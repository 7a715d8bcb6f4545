import Dossier.Proofs.Store.LastWrite
import Dossier.Proofs.Writer.Request

/-!
Several writers on one store. Each has its own calls; the order in which the writers take their
turns does not show: not in the answers, not in the tallies, and not in the store. For what a
writer does depends on its own namespace only, and nobody else writes there.
-/

namespace Dossier

structure Turn (ι : Type) where
  who : ι
  today : CivilDate
  call : WriterCall

structure Team (ι : Type) where
  store : Store
  writers : ι → Writer

namespace Team

/-- Every writer has a namespace of its own, in normal form. -/
structure Apart {ι : Type} (writers : ι → Writer) : Prop where
  normal : ∀ i, IsNormal (writers i).space
  injective : Function.Injective fun i => (writers i).space

structure Same {ι : Type} (i : ι) (t u : Team ι) : Prop where
  writer : t.writers i = u.writers i
  store : Store.Agree (Within (t.writers i).space) t.store u.store

lemma Same.refl {ι : Type} (i : ι) (t : Team ι) : Same i t t := ⟨rfl, .refl _ _⟩

variable {ι : Type} [DecidableEq ι]

def take (t : Team ι) (c : Turn ι) : Team ι × Except StoreError Unit :=
  let after := (t.writers c.who).perform t.store c.today c.call
  (⟨after.store, Function.update t.writers c.who after.writer⟩, after.answer)

abbrev Log (ι : Type) := List (Turn ι × Except StoreError Unit)

def turnsOf (i : ι) (turns : List (Turn ι)) : List (Turn ι) := turns.filter (·.who = i)

/-- The part of a history that is of one writer: its turns with their answers. -/
def logOf (i : ι) (log : Log ι) : Log ι := log.filter (·.1.who = i)

/-- The writers one after the other, each with all its calls. -/
def serial (order : List ι) (calls : ι → List (CivilDate × WriterCall)) : List (Turn ι) :=
  order.flatMap fun i => (calls i).map fun c => ⟨i, c.1, c.2⟩

/-! ### One turn -/

lemma space_take (t : Team ι) (c : Turn ι) (i : ι) :
    ((t.take c).1.writers i).space = (t.writers i).space := by
  by_cases h : i = c.who
  · subst h
    simp [take, Writer.space_perform]
  · simp [take, h]

lemma Apart.take {t : Team ι} (h : Apart t.writers) (c : Turn ι) :
    Apart (t.take c).1.writers := by
  have hs : (fun i => ((t.take c).1.writers i).space) = fun i => (t.writers i).space :=
    funext (t.space_take c)
  exact ⟨fun i => (t.space_take c i).symm ▸ h.normal i, hs ▸ h.injective⟩

/-- A turn of another writer changes nothing within a namespace. -/
lemma agree_take_of_ne {t : Team ι} (h : Apart t.writers) {c : Turn ι} {i : ι} (hi : c.who ≠ i) :
    Store.Agree (Within (t.writers i).space) t.store (t.take c).1.store := by
  refine (Writer.perform_frame (h.normal c.who) t.store c.today c.call).mono fun k hk => ?_
  intro hk'
  exact hi (h.injective (hk'.symm.trans hk))

/-! ### One writer among others -/

lemma Same.take_own {i : ι} {t u : Team ι} (hs : Same i t u) (ht : Apart t.writers) {c : Turn ι}
    (hc : c.who = i) : Same i (t.take c).1 (u.take c).1 ∧ (t.take c).2 = (u.take c).2 := by
  subst hc
  obtain ⟨ha, hw, hst⟩ := Writer.perform_same (ht.normal c.who) hs.store c.today c.call
  refine ⟨⟨?_, ?_⟩, ?_⟩
  · simp [take, ← hs.writer, hw]
  · rw [space_take]
    simpa [take, ← hs.writer] using hst
  · simpa [take, ← hs.writer] using ha

lemma Same.take_other {i : ι} {t u : Team ι} (hs : Same i t u) (ht : Apart t.writers) {c : Turn ι}
    (hc : c.who ≠ i) : Same i (t.take c).1 u := by
  refine ⟨?_, ?_⟩
  · rw [← hs.writer]
    simp [take, Ne.symm hc]
  · rw [space_take]
    exact (agree_take_of_ne ht hc).symm.trans hs.store

/-- **A writer among others** fares as it would alone. -/
theorem same_alone {i : ι} {t u : Team ι} (hs : Same i t u) (ht : Apart t.writers)
    (turns : List (Turn ι)) :
    Same i (history take t turns).1 (history take u (turnsOf i turns)).1 ∧
      logOf i (history take t turns).2 = (history take u (turnsOf i turns)).2 := by
  induction turns generalizing t u with
  | nil => exact ⟨hs, rfl⟩
  | cons c cs ih =>
    by_cases hc : c.who = i
    · obtain ⟨hs', ha⟩ := hs.take_own ht hc
      obtain ⟨hfin, hlog⟩ := ih hs' (ht.take c)
      have hturns : turnsOf i (c :: cs) = c :: turnsOf i cs := by simp [turnsOf, hc]
      rw [hturns, history_cons, history_cons]
      refine ⟨hfin, ?_⟩
      simpa [logOf, hc, ha] using hlog
    · obtain ⟨hfin, hlog⟩ := ih (hs.take_other ht hc) (ht.take c)
      have hturns : turnsOf i (c :: cs) = turnsOf i cs := by simp [turnsOf, hc]
      rw [hturns, history_cons]
      refine ⟨hfin, ?_⟩
      simpa [logOf, hc] using hlog

lemma same_history {t : Team ι} (ht : Apart t.writers) {turns turns' : List (Turn ι)} {i : ι}
    (h : turnsOf i turns = turnsOf i turns') :
    Same i (history take t turns).1 (history take t turns').1 ∧
      logOf i (history take t turns).2 = logOf i (history take t turns').2 := by
  obtain ⟨hs, hlog⟩ := same_alone (Same.refl i t) ht turns
  obtain ⟨hs', hlog'⟩ := same_alone (Same.refl i t) ht turns'
  rw [h] at hs hlog
  have hspace := congrArg Writer.space (hs.writer.trans hs'.writer.symm)
  refine ⟨⟨hs.writer.trans hs'.writer.symm, hs.store.trans ?_⟩, hlog.trans hlog'.symm⟩
  rw [hspace]
  exact hs'.store.symm

/-! ### Beyond all namespaces -/

lemma space_history (t : Team ι) (turns : List (Turn ι)) (i : ι) :
    ((history take t turns).1.writers i).space = (t.writers i).space :=
  history_inv (s := t) (fun u _ => (u.writers i).space = (t.writers i).space) rfl
    (fun u _ c h => (u.space_take c i).trans h) turns

lemma registry_history (t : Team ι) (turns : List (Turn ι)) :
    (history take t turns).1.store.registry = t.store.registry :=
  history_inv (s := t) (fun u _ => u.store.registry = t.store.registry) rfl
    (fun u _ c h => ((u.writers c.who).registry_perform u.store c.today c.call).trans h) turns

/-- The keys that lie in no writer's namespace. -/
def Unowned (writers : ι → Writer) (k : Key) : Prop := ∀ i, Beyond (writers i).space k

lemma agree_unowned {t : Team ι} (ht : Apart t.writers) (turns : List (Turn ι)) :
    Store.Agree (Unowned t.writers) t.store (history take t turns).1.store := by
  induction turns generalizing t with
  | nil => exact .refl _ _
  | cons c cs ih =>
    have hown : Unowned (t.take c).1.writers = Unowned t.writers := by
      funext k
      simp only [Unowned, space_take]
    have hfirst : Store.Agree (Unowned t.writers) t.store (t.take c).1.store :=
      (Writer.perform_frame (ht.normal c.who) t.store c.today c.call).mono fun k hk => hk c.who
    exact hfirst.trans (hown ▸ ih (ht.take c))

lemma store_history_eq {t : Team ι} (ht : Apart t.writers) {turns turns' : List (Turn ι)}
    (h : ∀ i, turnsOf i turns = turnsOf i turns') :
    (history take t turns).1.store = (history take t turns').1.store := by
  have hr := (registry_history t turns).trans (registry_history t turns').symm
  refine Store.Agree.eq_of_cover (fun k => ?_) hr
  by_cases hk : ∃ i, Within (t.writers i).space k
  · obtain ⟨i, hi⟩ := hk
    refine ⟨_, hi, ?_⟩
    rw [← space_history t turns i]
    exact (same_history ht (h i)).1.store
  · refine ⟨Unowned t.writers, fun i hi => hk ⟨i, hi⟩, ?_⟩
    exact (agree_unowned ht turns).symm.trans (agree_unowned ht turns')

/-! ### Accepted writes -/

/-- The writes that the turns of a history achieved. -/
def writes (writers : ι → Writer) (log : Log ι) : List Write :=
  log.filterMap fun e => (writers e.1.who).achieved? e.1.call e.2

/-- **Under every key stands the last accepted write**, or else what stood there before. -/
theorem get?_history (t : Team ι) (turns : List (Turn ι)) (id : Uuid) (k : Key) :
    (history take t turns).1.store.get? id k =
      (lastWrite? (writes t.writers (history take t turns).2) id k).or (t.store.get? id k) := by
  refine (history_inv (s := t) (fun u log => (∀ i, (u.writers i).space = (t.writers i).space) ∧
    u.store.get? id k = (lastWrite? (writes t.writers log) id k).or (t.store.get? id k))
    ⟨fun _ => rfl, rfl⟩ ?_ turns).2
  rintro u log c ⟨hspace, hget⟩
  refine ⟨fun i => (u.space_take c i).trans (hspace i), ?_⟩
  have hstore := (u.writers c.who).store_perform u.store c.today c.call
  rw [Writer.achieved?_congr (hspace c.who)] at hstore
  simp only [writes, List.filterMap_append, List.filterMap_cons, List.filterMap_nil]
  split at hstore
  · next hnone =>
    simp only [take, hnone, List.append_nil, hstore]
    exact hget
  · next a hsome =>
    simp only [take, hsome]
    rw [Store.get?_write hstore.2, lastWrite?_concat, hget]
    split
    · rfl
    · rfl

/-! ### Any order of turns -/

lemma turnsOf_serial {order : List ι} (hn : order.Nodup) (calls : ι → List (CivilDate × WriterCall))
    (i : ι) : turnsOf i (serial order calls) =
      if i ∈ order then (calls i).map fun c => ⟨i, c.1, c.2⟩ else [] := by
  induction order with
  | nil => rfl
  | cons j js ih =>
    obtain ⟨hj, hn⟩ := List.nodup_cons.mp hn
    have hsplit : turnsOf i (serial (j :: js) calls) =
        turnsOf i ((calls j).map fun c => ⟨j, c.1, c.2⟩) ++ turnsOf i (serial js calls) := by
      simp [turnsOf, serial]
    rw [hsplit, ih hn]
    by_cases hij : j = i
    · subst hij
      simp [turnsOf, hj, List.filter_map, Function.comp_def]
    · simp [turnsOf, hij, Ne.symm hij, List.filter_map, Function.comp_def]

lemma turnsOf_eq {turns : List (Turn ι)} {calls : List (CivilDate × WriterCall)} {i : ι}
    (h : (turnsOf i turns).map (fun c => (c.today, c.call)) = calls) :
    turnsOf i turns = calls.map fun c => ⟨i, c.1, c.2⟩ := by
  rw [← h, List.map_map]
  refine (List.map_id _).symm.trans (List.map_congr_left fun c hc => ?_)
  obtain rfl : c.who = i := by simpa using List.of_mem_filter hc
  rfl

/-- **The order of the turns is immaterial.** Writers with namespaces of their own make calls, each
its own and in its own order. However the calls are interleaved, every call is answered, every
writer counts and the store ends as if the writers had come one after the other; under the keys of
each stands the last write that it was told was accepted, and no other key has changed. -/
theorem serial_of_interleaved (s : Store) (writers : ι → Writer) (h : Apart writers)
    (calls : ι → List (CivilDate × WriterCall)) (turns : List (Turn ι))
    (hturns : ∀ i, (turnsOf i turns).map (fun c => (c.today, c.call)) = calls i)
    (order : List ι) (hn : order.Nodup) (hall : ∀ i, i ∈ order) :
    let mixed := history take ⟨s, writers⟩ turns
    let apart := history take ⟨s, writers⟩ (serial order calls)
    (∀ i, logOf i mixed.2 = logOf i apart.2) ∧
      (∀ i, (mixed.1.writers i).written = (apart.1.writers i).written ∧
        (mixed.1.writers i).rejected = (apart.1.writers i).rejected) ∧
      mixed.1.store = apart.1.store ∧
      (∀ i id k, Within (writers i).space k → mixed.1.store.get? id k =
        (lastWrite? (writes writers (logOf i mixed.2)) id k).or (s.get? id k)) ∧
      ∀ id k, Unowned writers k → mixed.1.store.get? id k = s.get? id k := by
  intro mixed apart
  have hsame : ∀ i, turnsOf i turns = turnsOf i (serial order calls) := by
    intro i
    rw [turnsOf_eq (hturns i), turnsOf_serial hn, if_pos (hall i)]
  have hapart : ∀ i, Same i mixed.1 apart.1 ∧ logOf i mixed.2 = logOf i apart.2 :=
    fun i => same_history h (hsame i)
  refine ⟨fun i => (hapart i).2, fun i => ?_, store_history_eq h hsame, ?_, ?_⟩
  · rw [(hapart i).1.writer]
    exact ⟨rfl, rfl⟩
  · intro i id k hk
    obtain ⟨hs, hlog⟩ := same_alone (Same.refl i ⟨s, writers⟩) h turns
    have hk' : Within (mixed.1.writers i).space k := by
      rw [space_history]
      exact hk
    rw [hlog, hs.store.get?_eq id hk']
    exact get?_history _ _ id k
  · intro id k hk
    exact ((agree_unowned (t := ⟨s, writers⟩) h turns).get?_eq id hk).symm

/-! ### Two writers -/

def pair (b : Bool) : Writer := .ofNamespace (if b then "fb" else "tw")

def visitorId : Uuid := ⟨List.replicate 32 ⟨0, by decide⟩, rfl⟩

/-- A store with one individual, whose age may be written. -/
def visitors : Store where
  registry := ⟨(∅ : SortedMap Key Category).insert ⟨"fb", "age"⟩ .age, ∅, true⟩
  entries := [⟨visitorId, .named "Ann" "Lee", ∅⟩]

def writeAge (age : Int64) : WriterCall := .put visitorId "age" (.integer age) 1.0

/-- One writer writes twice; the other one is closed in between, and refused after that. -/
theorem serial_pair :
    let day : CivilDate := ⟨2024, 1, 1, by decide⟩
    let calls (b : Bool) : List (CivilDate × WriterCall) :=
      if b then [(day, writeAge 40), (day, writeAge 41)] else [(day, .close), (day, writeAge 42)]
    let turns : List (Turn Bool) := [⟨true, day, writeAge 40⟩, ⟨false, day, .close⟩,
      ⟨true, day, writeAge 41⟩, ⟨false, day, writeAge 42⟩]
    (history take ⟨visitors, pair⟩ turns).1.store =
      (history take ⟨visitors, pair⟩ (serial [false, true] calls)).1.store := by
  intro day calls turns
  have hnormal : ∀ b, IsNormal (pair b).space := fun b => by cases b <;> rfl
  have hinjective : Function.Injective fun b => (pair b).space := by
    intro a b h
    cases a <;> cases b <;> first | rfl | exact absurd h (by decide)
  obtain ⟨-, -, hstore, -⟩ := serial_of_interleaved visitors pair ⟨hnormal, hinjective⟩ calls turns
    (fun b => by cases b <;> rfl) [false, true] (by decide) (by decide)
  exact hstore

end Team

end Dossier
