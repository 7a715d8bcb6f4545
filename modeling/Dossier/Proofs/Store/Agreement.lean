import Dossier.Store
import Dossier.Proofs.Namespace
import Dossier.Proofs.SortedMap

/-!
Stores that agree on some of the keys. Agreeing stores hold the same individuals in the same order,
with the same identity, and under each of the keys the same observations. A write under such a key
is answered alike by both and keeps them in agreement; a write under another key goes unnoticed.
The keys are mostly those of one namespace, as this is all that a writer can reach.
-/

namespace Dossier

/-- The keys of a namespace. -/
def Within (n : String) (k : Key) : Prop := k.space = n

/-- The keys of all other namespaces. -/
def Beyond (n : String) (k : Key) : Prop := k.space ≠ n

structure Write where
  id : Uuid
  key : Key
  observation : Observation

/-- The same individual, with the same observations under certain keys. -/
structure Entry.Agree (P : Key → Prop) (e f : Entry) : Prop where
  id : e.id = f.id
  person : e.person = f.person
  attributes : ∀ k, P k → e.attributes.get? k = f.attributes.get? k

abbrev EntriesAgree (P : Key → Prop) : List Entry → List Entry → Prop :=
  List.Forall₂ (Entry.Agree P)

namespace EntriesAgree

variable {P Q : Key → Prop} {es fs gs : List Entry}

lemma refl (P : Key → Prop) (es : List Entry) : EntriesAgree P es es :=
  List.forall₂_same.mpr fun _ _ => ⟨rfl, rfl, fun _ _ => rfl⟩

lemma symm (h : EntriesAgree P es fs) : EntriesAgree P fs es :=
  h.flip.imp fun _ _ he => ⟨he.id.symm, he.person.symm, fun k hk => (he.attributes k hk).symm⟩

lemma trans (h : EntriesAgree P es fs) (h' : EntriesAgree P fs gs) : EntriesAgree P es gs := by
  induction h generalizing gs with
  | nil => cases h'; exact .nil
  | cons hd _ ih =>
    cases h' with
    | cons hd' tl' =>
      exact .cons ⟨hd.id.trans hd'.id, hd.person.trans hd'.person, fun k hk =>
        (hd.attributes k hk).trans (hd'.attributes k hk)⟩ (ih tl')

lemma mono (h : EntriesAgree P es fs) (hPQ : ∀ k, Q k → P k) : EntriesAgree Q es fs :=
  h.imp fun _ _ he => ⟨he.id, he.person, fun k hk => he.attributes k (hPQ k hk)⟩

/-- Agreements that together reach every key leave no difference. -/
lemma eq_of_cover (h : ∀ k, ∃ P : Key → Prop, P k ∧ EntriesAgree P es fs) : es = fs := by
  obtain ⟨P, -, hP⟩ := h ⟨"", ""⟩
  obtain ⟨hlen, hget⟩ := List.forall₂_iff_get.mp hP
  refine List.ext_get hlen fun i hi hj => ?_
  have hattr : (es.get ⟨i, hi⟩).attributes = (fs.get ⟨i, hj⟩).attributes := by
    refine SortedMap.ext_get? fun k => ?_
    obtain ⟨Q, hQ, hes⟩ := h k
    exact ((List.forall₂_iff_get.mp hes).2 i hi hj).attributes k hQ
  obtain ⟨hid, hperson, -⟩ := hget i hi hj
  generalize es.get ⟨i, hi⟩ = e at hid hperson hattr ⊢
  generalize fs.get ⟨i, hj⟩ = f at hid hperson hattr ⊢
  cases e; cases f; simp_all

end EntriesAgree

namespace Store

variable {P Q : Key → Prop} {s t u : Store}

structure Agree (P : Key → Prop) (s t : Store) : Prop where
  registry : ∀ k, P k → s.registry.resolve k = t.registry.resolve k
  entries : EntriesAgree P s.entries t.entries

namespace Agree

lemma refl (P : Key → Prop) (s : Store) : Agree P s s := ⟨fun _ _ => rfl, .refl P s.entries⟩

lemma symm (h : Agree P s t) : Agree P t s :=
  ⟨fun k hk => (h.registry k hk).symm, h.entries.symm⟩

lemma trans (h : Agree P s t) (h' : Agree P t u) : Agree P s u :=
  ⟨fun k hk => (h.registry k hk).trans (h'.registry k hk), h.entries.trans h'.entries⟩

lemma mono (h : Agree P s t) (hPQ : ∀ k, Q k → P k) : Agree Q s t :=
  ⟨fun k hk => h.registry k (hPQ k hk), h.entries.mono hPQ⟩

lemma find?_agree (h : Agree P s t) (id : Uuid) :
    Option.Rel (Entry.Agree P) (s.find? id) (t.find? id) := by
  have he := h.entries
  unfold find?
  generalize s.entries = es at he ⊢
  generalize t.entries = fs at he ⊢
  induction he with
  | nil => exact .none
  | cons hd _ ih =>
    rw [List.find?_cons, List.find?_cons, hd.id]
    split
    · exact .some hd
    · exact ih

lemma contains_eq (h : Agree P s t) (id : Uuid) : s.contains id = t.contains id := by
  have hf := h.find?_agree id
  unfold contains
  generalize s.find? id = a at hf ⊢
  generalize t.find? id = b at hf ⊢
  cases hf <;> rfl

lemma get?_eq (h : Agree P s t) (id : Uuid) {k : Key} (hk : P k) : s.get? id k = t.get? id k := by
  have hf := h.find?_agree id
  unfold get?
  generalize s.find? id = a at hf ⊢
  generalize t.find? id = b at hf ⊢
  cases hf with
  | none => rfl
  | some he => exact he.attributes k hk

lemma eq_of_cover (h : ∀ k, ∃ P : Key → Prop, P k ∧ Agree P s t)
    (hr : s.registry = t.registry) : s = t := by
  have he : s.entries = t.entries := EntriesAgree.eq_of_cover fun k => by
    obtain ⟨P, hP, hst⟩ := h k
    exact ⟨P, hP, hst.entries⟩
  cases s; cases t; simp_all

end Agree

/-! ### Writes -/

def write (s : Store) (today : CivilDate) (w : Write) : Except StoreError Store :=
  s.put today w.id w.key w.observation

lemma put_ok {today : CivilDate} {id : Uuid} {k : Key} {o : Observation} {s' : Store}
    (h : s.put today id k o = .ok s') :
    ∃ c, s.registry.resolve k = some c ∧ c.accepts today o.value = true ∧ s.contains id = true ∧
      s' = s.update id (·.insert k o) := by
  simp only [put] at h
  split at h
  · cases h
  · next c hc =>
    split at h
    · cases h
    · next hfits =>
      split at h
      · cases h
      · next hin =>
        exact ⟨c, hc, by simpa using hfits, by simpa using hin, (Except.ok.inj h).symm⟩

lemma find?_update (s : Store) (a id : Uuid)
    (f : SortedMap Key Observation → SortedMap Key Observation) :
    (s.update a f).find? id = (s.find? id).map fun e =>
      if e.id == a then { e with attributes := f e.attributes } else e := by
  simp only [find?, update, List.find?_map]
  congr 2
  funext e
  simp only [Function.comp_apply]
  split <;> rfl

/-- **An accepted write** changes what stands under its key, and nothing else. -/
theorem get?_write {today : CivilDate} {w : Write} {s' : Store} (h : s.write today w = .ok s')
    (id : Uuid) (k : Key) :
    s'.get? id k = if w.id = id ∧ w.key = k then some w.observation else s.get? id k := by
  obtain ⟨c, -, -, hin, rfl⟩ := put_ok h
  simp only [get?, find?_update]
  cases hf : s.find? id with
  | none =>
    have hne : w.id ≠ id := by
      rintro rfl
      simp [contains, hf] at hin
    simp [hne]
  | some e =>
    obtain rfl : e.id = id := by simpa using List.find?_some hf
    by_cases hid : w.id = e.id
    · simp only [hid, Option.map_some, beq_self_eq_true, if_true, Option.bind_some, true_and]
      rw [SortedMap.get?_insert]
      simp only [eq_comm]
    · simp [hid, Ne.symm hid]

lemma Agree.update (h : Agree P s t) (id : Uuid) (k : Key) (o : Observation) :
    Agree P (s.update id (·.insert k o)) (t.update id (·.insert k o)) := by
  refine ⟨h.registry, ?_⟩
  simp only [Store.update, List.forall₂_map_left_iff, List.forall₂_map_right_iff]
  refine h.entries.imp fun e f hef => ?_
  rw [hef.id]
  split
  · refine ⟨rfl, hef.person, fun a ha => ?_⟩
    rw [SortedMap.get?_insert, SortedMap.get?_insert, hef.attributes a ha]
  · exact hef

lemma agree_update (s : Store) (id : Uuid) {k : Key} (o : Observation) (hk : ¬ P k) :
    Agree P s (s.update id (·.insert k o)) := by
  refine ⟨fun _ _ => rfl, ?_⟩
  simp only [Store.update, List.forall₂_map_right_iff]
  refine List.forall₂_same.mpr fun e _ => ?_
  split
  · refine ⟨rfl, rfl, fun a ha => ?_⟩
    have hne : a ≠ k := by rintro rfl; exact hk ha
    exact (e.attributes.get?_insert_of_ne hne o).symm
  · exact ⟨rfl, rfl, fun _ _ => rfl⟩

inductive SameAnswer (P : Key → Prop) : Except StoreError Store → Except StoreError Store → Prop
  | refused (e : StoreError) : SameAnswer P (.error e) (.error e)
  | accepted {s t : Store} (h : Agree P s t) : SameAnswer P (.ok s) (.ok t)

lemma Agree.put (h : Agree P s t) (today : CivilDate) (id : Uuid) {k : Key} (o : Observation)
    (hk : P k) : SameAnswer P (s.put today id k o) (t.put today id k o) := by
  unfold Store.put
  rw [h.registry k hk, h.contains_eq id]
  split
  · exact .refused _
  · split
    · exact .refused _
    · split
      · exact .refused _
      · exact .accepted (h.update id k o)

end Store

end Dossier
