import Dossier.Proofs.History
import Dossier.Proofs.Store.Ledger
import Mathlib.Data.List.Dedup

/-!
What a store shows, by the history of the calls on it. The individuals are those that came in under
an identifier of their own, in that order and with the identity they came with; under each key of an
individual stands the observation of the last write that was accepted there.
-/

namespace Dossier

/-- What was written last under a key of an individual. -/
def lastWrite? (ws : List Write) (id : Uuid) (k : Key) : Option Observation :=
  (ws.reverse.find? fun w => w.id == id && w.key == k).map (·.observation)

lemma lastWrite?_append (ws ws' : List Write) (id : Uuid) (k : Key) :
    lastWrite? (ws ++ ws') id k = (lastWrite? ws' id k).or (lastWrite? ws id k) := by
  simp only [lastWrite?, List.reverse_append, List.find?_append]
  cases ws'.reverse.find? fun w => w.id == id && w.key == k <;> simp

lemma lastWrite?_concat (ws : List Write) (w : Write) (id : Uuid) (k : Key) :
    lastWrite? (ws ++ [w]) id k =
      if w.id = id ∧ w.key = k then some w.observation else lastWrite? ws id k := by
  by_cases h : w.id = id ∧ w.key = k <;> simp [lastWrite?, h]

lemma mem_of_lastWrite? {ws : List Write} {id : Uuid} {k : Key} {o : Observation}
    (h : lastWrite? ws id k = some o) : ⟨id, k, o⟩ ∈ ws := by
  obtain ⟨w, hw, rfl⟩ := Option.map_eq_some_iff.mp h
  have hp := List.find?_some hw
  simp only [Bool.and_eq_true, beq_iff_eq] at hp
  obtain ⟨rfl, rfl⟩ := hp
  exact List.mem_reverse.mp (List.mem_of_find?_eq_some hw)

lemma lastWrite?_isSome {ws : List Write} {w : Write} (h : w ∈ ws) :
    ∃ o, lastWrite? ws w.id w.key = some o := by
  have hfind : (ws.reverse.find? fun v => v.id == w.id && v.key == w.key).isSome = true :=
    List.find?_isSome.mpr ⟨w, List.mem_reverse.mpr h, by simp⟩
  obtain ⟨v, hv⟩ := Option.isSome_iff_exists.mp hfind
  exact ⟨v.observation, by rw [lastWrite?, hv]; rfl⟩

lemma lastWrite?_iff {ws : List Write} (h : (ws.map fun a => (a.id, a.key)).Nodup) {id : Uuid}
    {k : Key} {o : Observation} : lastWrite? ws id k = some o ↔ ⟨id, k, o⟩ ∈ ws := by
  refine ⟨mem_of_lastWrite?, fun hmem => ?_⟩
  obtain ⟨o', ho'⟩ := lastWrite?_isSome hmem
  have heq := List.inj_on_of_nodup_map h (mem_of_lastWrite? ho') hmem rfl
  obtain ⟨-, -, rfl⟩ := Write.mk.inj heq
  exact ho'

namespace Store

/-! ### Calls and their answers -/

/-- An insertion; without an identifier, the individual gets the next one of the supply. -/
def addStep (s : Store × IdSupply) (i : Individual) : (Store × IdSupply) × Except StoreError Uuid :=
  match s.1.add s.2 i with
  | (.error e, ids) => ((s.1, ids), .error e)
  | (.ok (id, s'), ids) => ((s', ids), .ok id)

/-- A write on a day. One that is refused leaves the store as it was, as nothing is changed before
the last check. -/
def putStep (s : Store) (w : CivilDate × Write) : Store × Except StoreError Unit :=
  match s.write w.1 w.2 with
  | .error e => (s, .error e)
  | .ok s' => (s', .ok ())

/-- The individuals taken in, with the identifiers under which they are in the store. -/
def arrived (log : List (Individual × Except StoreError Uuid)) : List (Uuid × Person) :=
  (accepted log).map fun e => (e.2, e.1.toPerson)

def written (log : List ((CivilDate × Write) × Except StoreError Unit)) : List Write :=
  (accepted log).map (·.1.2)

/-- The identifier under which an individual would come in. -/
def nextId (s : Store × IdSupply) (i : Individual) : Uuid := (s.2.complete i.id).1

lemma find?_eq_none_iff {s : Store} {id : Uuid} : s.find? id = none ↔ id ∉ s.ids := by
  simp [find?, ids]

lemma contains_iff {s : Store} {id : Uuid} : s.contains id = true ↔ id ∈ s.ids := by
  rw [contains, ← not_iff_not, ← find?_eq_none_iff]
  simp

lemma add_eq (s : Store) (ids : IdSupply) (i : Individual) :
    s.add ids i = if (ids.complete i.id).1 ∈ s.ids
      then (.error (.duplicateIndividual (ids.complete i.id).1), (ids.complete i.id).2)
      else (.ok ((ids.complete i.id).1,
          { s with entries := s.entries ++ [⟨(ids.complete i.id).1, i.toPerson, ∅⟩] }),
        (ids.complete i.id).2) := by
  by_cases h : (ids.complete i.id).1 ∈ s.ids
  · have hc : s.contains (ids.complete i.id).1 = true := contains_iff.mpr h
    rw [if_pos h]
    simp [add, insert, hc]
  · have hc : s.contains (ids.complete i.id).1 = false := by
      rw [Bool.eq_false_iff]
      exact fun hc => h (contains_iff.mp hc)
    rw [if_neg h]
    simp [add, insert, hc]

lemma addStep_eq (s : Store × IdSupply) (i : Individual) :
    addStep s i = if nextId s i ∈ s.1.ids
      then ((s.1, (s.2.complete i.id).2), .error (.duplicateIndividual (nextId s i)))
      else (({ s.1 with entries := s.1.entries ++ [⟨nextId s i, i.toPerson, ∅⟩] },
        (s.2.complete i.id).2), .ok (nextId s i)) := by
  simp only [addStep, add_eq, nextId]
  by_cases h : (s.2.complete i.id).1 ∈ s.1.ids <;> simp [h]

/-! ### The invariant -/

/-- A store that holds the individuals `people`, and of them what was last written by `ws`. -/
structure Tracks (people : List (Uuid × Person)) (ws : List Write) (s : Store) : Prop where
  people : s.entries.map (fun e => (e.id, e.person)) = people
  nodup : s.ids.Nodup
  held : ∀ e ∈ s.entries, ∀ k, e.attributes.get? k = lastWrite? ws e.id k
  known : ∀ w ∈ ws, w.id ∈ s.ids

lemma tracks_ofRegistry (registry : Registry) : Tracks [] [] (.ofRegistry registry) :=
  ⟨rfl, List.nodup_nil, by simp [ofRegistry], by simp⟩

lemma nodup_ids_concat {s : Store} (h : s.ids.Nodup) {id : Uuid} (hnew : id ∉ s.ids) (p : Person) :
    ({ s with entries := s.entries ++ [⟨id, p, ∅⟩] } : Store).ids.Nodup := by
  rw [ids, List.map_append]
  exact h.append (List.nodup_singleton id) (List.disjoint_singleton.mpr hnew)

lemma Tracks.add {people : List (Uuid × Person)} {ws : List Write} {s : Store}
    (h : Tracks people ws s) {id : Uuid} (hnew : id ∉ s.ids) (p : Person) :
    Tracks (people ++ [(id, p)]) ws { s with entries := s.entries ++ [⟨id, p, ∅⟩] } := by
  refine ⟨by simp [h.people], ?_, ?_, fun w hw => ?_⟩
  · exact nodup_ids_concat h.nodup hnew p
  · intro e he k
    rcases List.mem_append.mp he with he | he
    · exact h.held e he k
    · obtain rfl := List.mem_singleton.mp he
      refine (Option.eq_none_iff_forall_ne_some.mpr fun o ho => ?_).symm
      exact hnew (h.known _ (mem_of_lastWrite? ho))
  · have hold := h.known w hw
    simp only [ids, List.map_append, List.mem_append]
    exact .inl hold

lemma Tracks.addStep {log : List (Individual × Except StoreError Uuid)} {s : Store × IdSupply}
    (h : Tracks (arrived log) [] s.1) (i : Individual) :
    Tracks (arrived (log ++ [(i, (addStep s i).2)])) [] (addStep s i).1.1 := by
  rw [addStep_eq]
  split
  · simpa [arrived, accepted_append] using h
  · next hnew => simpa [arrived, accepted_append] using h.add hnew i.toPerson

lemma ids_update (s : Store) (id : Uuid)
    (f : SortedMap Key Observation → SortedMap Key Observation) : (s.update id f).ids = s.ids := by
  simp only [ids, update, List.map_map]
  refine List.map_congr_left fun e _ => ?_
  simp only [Function.comp_apply]
  split <;> rfl

lemma Tracks.update {people : List (Uuid × Person)} {ws : List Write} {s : Store}
    (h : Tracks people ws s) {w : Write} (hw : w.id ∈ s.ids) :
    Tracks people (ws ++ [w]) (s.update w.id (·.insert w.key w.observation)) := by
  refine ⟨?_, by rw [ids_update]; exact h.nodup, ?_, ?_⟩
  · rw [← h.people]
    simp only [Store.update, List.map_map]
    refine List.map_congr_left fun e _ => ?_
    simp only [Function.comp_apply]
    split <;> rfl
  · intro e he k
    obtain ⟨d, hd, rfl⟩ := List.mem_map.mp he
    rw [lastWrite?_concat]
    by_cases hid : d.id = w.id
    · simp only [hid, beq_self_eq_true, if_true, true_and]
      rw [SortedMap.get?_insert, h.held d hd, hid]
      simp only [eq_comm]
    · simp [hid, Ne.symm hid, h.held d hd]
  · intro v hv
    rw [ids_update]
    rcases List.mem_append.mp hv with hv | hv
    · exact h.known v hv
    · obtain rfl := List.mem_singleton.mp hv
      exact hw

lemma Tracks.putStep {people : List (Uuid × Person)} {s : Store}
    {log : List ((CivilDate × Write) × Except StoreError Unit)} (h : Tracks people (written log) s)
    (w : CivilDate × Write) :
    Tracks people (written (log ++ [(w, (putStep s w).2)])) (putStep s w).1 := by
  unfold Store.putStep
  split
  · simpa [written, accepted_append] using h
  · next s' hput =>
    obtain ⟨-, -, -, hin, rfl⟩ := put_ok hput
    simpa [written, accepted_append] using h.update (contains_iff.mp hin)

/-! ### What is shown -/

/-- What can be read off a store that took in `people` and then accepted the writes `ws`. -/
structure Shows (people : List (Uuid × Person)) (ws : List Write) (s : Store) : Prop where
  nodup : (people.map (·.1)).Nodup
  get? : ∀ id k, s.get? id k = lastWrite? ws id k
  snapshot? : ∀ id, (s.snapshot? id).map (fun i => (i.id, i.toPerson)) =
    (people.find? (·.1 == id)).map fun p => (some p.1, p.2)
  keys : ∀ id i, s.snapshot? id = some i → i.attributes.keys.Pairwise (compare · · = .lt)
  attributes : ∀ id i, s.snapshot? id = some i →
    ∀ k o, (k, o) ∈ i.attributes.toList ↔ lastWrite? ws id k = some o
  individuals : s.individuals.map some = (people.map (·.1)).map s.snapshot?
  attributeCount : ∀ id,
    s.attributeCount id = ((ws.filter (·.id == id)).map (·.key)).dedup.length
  ids : s.ids = people.map (·.1)
  size : s.size = people.length

lemma find?_of_mem {s : Store} (hn : s.ids.Nodup) {e : Entry} (he : e ∈ s.entries) :
    s.find? e.id = some e := by
  unfold find?
  unfold ids at hn
  generalize s.entries = es at hn he
  induction es with
  | nil => cases he
  | cons d es ih =>
    obtain ⟨hd, hn⟩ := List.nodup_cons.mp hn
    rcases List.mem_cons.mp he with rfl | he
    · simp
    · have hne : d.id ≠ e.id := fun h => hd (List.mem_map.mpr ⟨e, he, h.symm⟩)
      rw [List.find?_cons, beq_eq_false_iff_ne.mpr hne]
      exact ih hn he

lemma mem_of_find? {s : Store} {id : Uuid} {e : Entry} (h : s.find? id = some e) :
    e ∈ s.entries ∧ e.id = id :=
  ⟨List.mem_of_find?_eq_some h, by simpa using List.find?_some h⟩

namespace Tracks

variable {people : List (Uuid × Person)} {ws : List Write} {s : Store}

lemma ids_eq (h : Tracks people ws s) : s.ids = people.map (·.1) := by
  rw [← h.people, List.map_map]
  rfl

lemma get?_eq (h : Tracks people ws s) (id : Uuid) (k : Key) :
    s.get? id k = lastWrite? ws id k := by
  unfold get?
  cases hf : s.find? id with
  | some e =>
    obtain ⟨he, rfl⟩ := mem_of_find? hf
    exact h.held e he k
  | none =>
    refine (Option.eq_none_iff_forall_ne_some.mpr fun o ho => ?_).symm
    exact find?_eq_none_iff.mp hf (h.known _ (mem_of_lastWrite? ho))

lemma snapshot?_eq (h : Tracks people ws s) (id : Uuid) :
    (s.snapshot? id).map (fun i => (i.id, i.toPerson)) =
      (people.find? (·.1 == id)).map fun p => (some p.1, p.2) := by
  rw [← h.people, List.find?_map]
  simp only [snapshot?, find?, Option.map_map]
  rfl

lemma mem_attributes_iff (h : Tracks people ws s) {e : Entry} (he : e ∈ s.entries) (k : Key)
    (o : Observation) : (k, o) ∈ e.attributes.toList ↔ lastWrite? ws e.id k = some o := by
  rw [SortedMap.mem_toList_iff, h.held e he]

lemma attributeCount_eq (h : Tracks people ws s) (id : Uuid) :
    s.attributeCount id = ((ws.filter (·.id == id)).map (·.key)).dedup.length := by
  unfold attributeCount
  cases hf : s.find? id with
  | some e =>
    obtain ⟨he, rfl⟩ := mem_of_find? hf
    have hperm : e.attributes.keys.Perm ((ws.filter (·.id == e.id)).map (·.key)).dedup := by
      refine (List.perm_ext_iff_of_nodup e.attributes.nodup_keys (List.nodup_dedup _)).mpr ?_
      intro k
      simp only [SortedMap.mem_keys_iff, h.held e he, List.mem_dedup, List.mem_map,
        List.mem_filter, beq_iff_eq]
      constructor
      · rintro ⟨o, ho⟩
        exact ⟨_, ⟨mem_of_lastWrite? ho, rfl⟩, rfl⟩
      · rintro ⟨w, ⟨hw, hid⟩, rfl⟩
        rw [← hid]
        exact lastWrite?_isSome hw
    rw [← hperm.length_eq]
    simp [SortedMap.size, SortedMap.keys]
  | none =>
    have hnone : ws.filter (·.id == id) = [] := by
      rw [List.filter_eq_nil_iff]
      intro w hw hid
      obtain rfl := beq_iff_eq.mp hid
      exact find?_eq_none_iff.mp hf (h.known w hw)
    rw [hnone]
    rfl

theorem shows (h : Tracks people ws s) : Shows people ws s where
  nodup := h.ids_eq ▸ h.nodup
  get? := h.get?_eq
  snapshot? := h.snapshot?_eq
  keys := by
    intro id i _
    exact List.pairwise_map.mpr i.attributes.increasing
  attributes := by
    intro id i hi k o
    obtain ⟨e, hf, rfl⟩ := Option.map_eq_some_iff.mp hi
    obtain ⟨he, rfl⟩ := mem_of_find? hf
    exact h.mem_attributes_iff he k o
  individuals := by
    rw [← h.ids_eq, individuals, ids, List.map_map, List.map_map]
    refine List.map_congr_left fun e he => ?_
    simp [snapshot?, find?_of_mem h.nodup he]
  attributeCount := h.attributeCount_eq
  ids := h.ids_eq
  size := by rw [← h.people, List.length_map, size]

end Tracks

end Store

/-! ### The same in two structures -/

namespace Ledger

def addStep (s : Ledger × IdSupply) (i : Individual) :
    (Ledger × IdSupply) × Except StoreError Uuid :=
  let (id, ids) := s.2.complete i.id
  match s.1.insert id i.toPerson with
  | .error e => ((s.1, ids), .error e)
  | .ok l => ((l, ids), .ok id)

def putStep (l : Ledger) (w : CivilDate × Write) : Ledger × Except StoreError Unit :=
  match l.write w.1 w.2 with
  | .error e => (l, .error e)
  | .ok l' => (l', .ok ())

/-- A ledger whose two structures are in step, and which lists what the store does. -/
def Keeps (l : Ledger) (s : Store) : Prop := l.Sound ∧ l.store = s

lemma Keeps.addStep {l : Ledger × IdSupply} {s : Store × IdSupply}
    (h : l.1.Keeps s.1 ∧ l.2 = s.2) (i : Individual) :
    (addStep l i).2 = (Store.addStep s i).2 ∧
      (addStep l i).1.1.Keeps (Store.addStep s i).1.1 ∧
        (addStep l i).1.2 = (Store.addStep s i).1.2 := by
  obtain ⟨l, ids⟩ := l
  obtain ⟨s, ids'⟩ := s
  obtain ⟨⟨hsound, rfl⟩, rfl⟩ := h
  have hsame := hsound.insert (ids.complete i.id).1 i.toPerson
  simp only [Ledger.addStep, Store.addStep, Store.add]
  generalize l.insert _ _ = a at hsame ⊢
  generalize l.store.insert _ _ = b at hsame ⊢
  cases hsame with
  | refused e => exact ⟨rfl, ⟨hsound, rfl⟩, rfl⟩
  | accepted h => exact ⟨rfl, ⟨h, rfl⟩, rfl⟩

lemma Keeps.putStep {l : Ledger} {s : Store} (h : l.Keeps s) (w : CivilDate × Write) :
    (l.putStep w).2 = (s.putStep w).2 ∧ (l.putStep w).1.Keeps (s.putStep w).1 := by
  obtain ⟨hsound, rfl⟩ := h
  have hsame := hsound.write w.1 w.2
  simp only [Ledger.putStep, Store.putStep]
  generalize l.write _ _ = a at hsame ⊢
  generalize l.store.write _ _ = b at hsame ⊢
  cases hsame with
  | refused e => exact ⟨rfl, hsound, rfl⟩
  | accepted h => exact ⟨rfl, h, rfl⟩

end Ledger

namespace Store

/-- **A store is a map of last accepted writes.** After any insertions and then any writes it shows
those who came in and, under each key, what was accepted last. An insertion under an identifier
that is there already is refused as a duplicate and changes nothing. And if order and content are
kept apart, they stay in step, with the same answers and the same to read. -/
theorem shows_last_accepted (registry : Registry) (ids : IdSupply) (is : List Individual)
    (writes : List (CivilDate × Write)) :
    let insertions := history addStep (ofRegistry registry, ids) is
    let puts := history putStep insertions.1.1 writes
    Shows (arrived insertions.2) (written puts.2) puts.1 ∧
      (∀ i, if nextId insertions.1 i ∈ insertions.1.1.ids
        then (addStep insertions.1 i).2 = .error (.duplicateIndividual (nextId insertions.1 i)) ∧
          (addStep insertions.1 i).1.1 = insertions.1.1
        else (addStep insertions.1 i).2 = .ok (nextId insertions.1 i)) ∧
      let taken := history Ledger.addStep (.ofRegistry registry, ids) is
      let noted := history Ledger.putStep taken.1.1 writes
      taken.2 = insertions.2 ∧ noted.2 = puts.2 ∧ noted.1.entries.InStep ∧
        noted.1.ReadsAs puts.1 := by
  intro insertions puts
  have hin : Tracks (arrived insertions.2) [] insertions.1.1 :=
    history_inv (s := (ofRegistry registry, ids)) (fun s log => Tracks (arrived log) [] s.1)
      (tracks_ofRegistry registry) (fun _ _ i h => h.addStep i) is
  have hput : Tracks (arrived insertions.2) (written puts.2) puts.1 :=
    history_inv (fun s log => Tracks (arrived insertions.2) (written log) s) hin
      (fun _ _ w h => h.putStep w) writes
  refine ⟨hput.shows, fun i => ?_, ?_⟩
  · rw [addStep_eq]
    split <;> simp_all
  · have hstart : (Ledger.ofRegistry registry).Keeps (ofRegistry registry) :=
      ⟨Ledger.sound_ofRegistry registry, rfl⟩
    obtain ⟨htaken, hkeeps, -⟩ := history_same
      (R := fun (l : Ledger × IdSupply) (s : Store × IdSupply) => l.1.Keeps s.1 ∧ l.2 = s.2)
      (s := (_, ids)) (t := (_, ids)) (fun _ _ i h => Ledger.Keeps.addStep h i) ⟨hstart, rfl⟩ is
    obtain ⟨hnoted, hsound, hstore⟩ := history_same (R := Ledger.Keeps)
      (fun _ _ w h => h.putStep w) hkeeps writes
    exact ⟨htaken, hnoted, hsound.inStep, hstore ▸ hsound.readsAs⟩

end Store

end Dossier
