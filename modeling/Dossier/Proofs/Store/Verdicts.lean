import Dossier.Proofs.Store.Validity

/-!
How a store answers a write. Of what may be wrong with a write the first thing counts: its key is
not declared, or its value does not fit the category, or nobody goes by its identifier. A write that
is refused leaves the store as it was; one that is accepted changes what stands under one key of one
individual.
-/

namespace Dossier

/-- The key is declared, under a category that accepts the value. -/
def Registry.Takes (r : Registry) (today : CivilDate) (k : Key) (v : Value) : Prop :=
  ∃ c, r.resolve k = some c ∧ c.accepts today v = true

lemma Registry.takes_iff {r : Registry} {k : Key} {c : Category} (hk : r.resolve k = some c)
    (today : CivilDate) (v : Value) : r.Takes today k v ↔ c.accepts today v = true := by
  simp [Takes, hk]

lemma Registry.not_takes {r : Registry} {k : Key} (hk : r.resolve k = none) (today : CivilDate)
    (v : Value) : ¬ r.Takes today k v := by
  simp [Takes, hk]

namespace Store

/-- What comes of a write. What may be wrong with it is looked for in this order. -/
inductive Verdict (s : Store) (today : CivilDate) (w : Write) : Except StoreError Store → Prop where
  | undeclared (hk : s.registry.resolve w.key = none) :
      Verdict s today w (.error (.unknownAttribute w.key))
  | mistyped {c : Category} (hk : s.registry.resolve w.key = some c)
      (hv : c.accepts today w.observation.value = false) :
      Verdict s today w (.error (.typeMismatch w.key c w.observation.value.kind))
  | stranger (ht : s.registry.Takes today w.key w.observation.value) (hid : w.id ∉ s.ids) :
      Verdict s today w (.error (.unknownIndividual w.id))
  | accepted (ht : s.registry.Takes today w.key w.observation.value) (hid : w.id ∈ s.ids) :
      Verdict s today w (.ok (s.update w.id (·.insert w.key w.observation)))

theorem verdict_write (s : Store) (today : CivilDate) (w : Write) :
    Verdict s today w (s.write today w) := by
  unfold write put
  split
  · next hk => exact .undeclared hk
  · next c hk =>
    split
    · next hv => exact .mistyped hk (by simpa using hv)
    · next hv =>
      have ht : s.registry.Takes today w.key w.observation.value := ⟨c, hk, by simpa using hv⟩
      split
      · next hid => exact .stranger ht fun hmem => by simp [contains_iff.mpr hmem] at hid
      · next hid => exact .accepted ht (contains_iff.mp (by simpa using hid))

lemma write_of_takes {s : Store} {today : CivilDate} {w : Write}
    (ht : s.registry.Takes today w.key w.observation.value) (hid : w.id ∈ s.ids) :
    s.write today w = .ok (s.update w.id (·.insert w.key w.observation)) := by
  obtain ⟨c, hk, hv⟩ := ht
  simp [write, put, hk, hv, contains_iff.mpr hid]

/-! ### Reliabilities -/

/-- A write that comes with a plain number, which is looked at after the value and before the
individual. -/
def putNumber (s : Store) (today : CivilDate) (id : Uuid) (k : Key) (v : Value) (x : Float) :
    Except StoreError Store :=
  match s.registry.resolve k with
  | none => .error (.unknownAttribute k)
  | some c =>
    if !c.accepts today v then .error (.typeMismatch k c v.kind)
    else
      match Reliability.ofFloat? x with
      | none => .error (.reliabilityOutOfRange x)
      | some r =>
        if !s.contains id then .error (.unknownIndividual id)
        else .ok (s.update id (·.insert k ⟨v, r⟩))

lemma putNumber_value (s : Store) (today : CivilDate) (id : Uuid) (k : Key) (v : Value)
    (r : Reliability) : s.putNumber today id k v r.value = s.put today id k ⟨v, r⟩ := by
  rw [putNumber, r.ofFloat?_value]
  rfl

/-! ### Answers and changes -/

/-- **The answer to a write** tells what is wrong with it, or that nothing is. -/
structure Answers (s : Store) (today : CivilDate) (w : Write) (answer : Except StoreError Unit) :
    Prop where
  undeclared : ∀ k, answer = .error (.unknownAttribute k) ↔
    w.key = k ∧ s.registry.resolve w.key = none
  mistyped : ∀ k c found, answer = .error (.typeMismatch k c found) ↔
    (w.key = k ∧ w.observation.value.kind = found) ∧ s.registry.resolve w.key = some c ∧
      c.accepts today w.observation.value = false
  stranger : ∀ id, answer = .error (.unknownIndividual id) ↔
    w.id = id ∧ s.registry.Takes today w.key w.observation.value ∧ w.id ∉ s.ids
  accepted : answer = .ok () ↔
    s.registry.Takes today w.key w.observation.value ∧ w.id ∈ s.ids
  inRange : ∀ x, answer ≠ .error (.reliabilityOutOfRange x)

/-- **What an accepted write changes**: an observation under one key of one individual. -/
structure Enters (s : Store) (w : Write) (s' : Store) : Prop where
  registry : s'.registry = s.registry
  ids : s'.ids = s.ids
  once : s.ids.count w.id = 1
  individuals : s'.individuals = s.individuals.map fun i =>
    if i.id = some w.id then { i with attributes := i.attributes.insert w.key w.observation } else i
  get? : ∀ id k, s'.get? id k =
    if w.id = id ∧ w.key = k then some w.observation else s.get? id k

variable {s : Store} {today : CivilDate} {w : Write}

lemma answers_putStep (s : Store) (today : CivilDate) (w : Write) :
    Answers s today w (putStep s (today, w)).2 := by
  have hverdict := s.verdict_write today w
  unfold putStep
  generalize s.write today w = answer at hverdict
  cases hverdict with
  | undeclared hk =>
    have hno := Registry.not_takes hk today w.observation.value
    constructor <;> simp [hk, hno]
  | @mistyped c hk hv =>
    have hno : ¬ s.registry.Takes today w.key w.observation.value := by
      simp [Registry.takes_iff hk, hv]
    constructor
    -- a key has one category, so the category that the answer names is this one
    case mistyped =>
      intro k c' found
      constructor
      · intro h
        cases h
        exact ⟨⟨rfl, rfl⟩, hk, hv⟩
      · rintro ⟨⟨rfl, rfl⟩, hk', -⟩
        cases hk.symm.trans hk'
        rfl
    all_goals simp [hk, hno]
  | stranger ht hid =>
    obtain ⟨c, hk, hv⟩ := id ht
    constructor <;> simp [hk, hv, ht, hid]
  | accepted ht hid =>
    obtain ⟨c, hk, hv⟩ := id ht
    constructor <;> simp [hk, hv, ht, hid]

lemma individuals_update (s : Store) (id : Uuid)
    (f : SortedMap Key Observation → SortedMap Key Observation) :
    (s.update id f).individuals = s.individuals.map fun i =>
      if i.id = some id then { i with attributes := f i.attributes } else i := by
  simp only [Store.individuals, update, List.map_map]
  refine List.map_congr_left fun e _ => ?_
  by_cases he : e.id = id <;> simp [Entry.individual, he]

lemma enters_write (hn : s.ids.Nodup) {s' : Store} (h : s.write today w = .ok s') :
    Enters s w s' := by
  have hget := get?_write h
  obtain ⟨c, -, -, hin, rfl⟩ := put_ok h
  exact {
    registry := rfl
    ids := ids_update s w.id _
    once := List.count_eq_one_of_mem hn (contains_iff.mp hin)
    individuals := individuals_update s w.id _
    get? := hget }

/-- **Every write is answered** for what it is. On a store that calls have led to, the answer is the
first thing that is wrong with the write: an undeclared key, a value that its category does not
accept, somebody who is not there. The reliability never is, as it was looked at when it was made,
and a second look makes no difference. A write that is refused leaves no trace; one that is accepted
changes one observation of one individual. -/
theorem answers_writes {registry : Registry} {ws : List (CivilDate × Write)}
    (h : Reached registry today ws s) (w : Write) :
    let after := putStep s (today, w)
    s.registry = registry ∧
      Answers s today w after.2 ∧
      s.putNumber today w.id w.key w.observation.value w.observation.reliability.value =
        s.write today w ∧
      (∀ e, after.2 = .error e → after.1 = s) ∧
      (after.2 = .ok () → Enters s w after.1) := by
  intro after
  refine ⟨h.backed.registry, s.answers_putStep today w, putNumber_value .., fun e he => ?_,
    fun hok => ?_⟩
  · simp only [after, putStep] at he ⊢
    split at he
    · rfl
    · cases he
  · simp only [after, putStep] at hok ⊢
    split at hok
    · cases hok
    · next s' hs => exact enters_write h.sound.nodup hs

/-- The age of a guest is written; text is no age, the town is not declared, and nobody else is
there. -/
theorem answers_about_guest :
    let day : CivilDate := ⟨2024, 1, 1, by decide⟩
    let guest : Uuid := ⟨List.replicate 32 ⟨0, by decide⟩, rfl⟩
    let other : Uuid := ⟨List.replicate 32 ⟨1, by decide⟩, rfl⟩
    let registry : Registry := ⟨(∅ : SortedMap Key Category).insert ⟨"fb", "age"⟩ .age, ∅, true⟩
    let s := (addStep (ofRegistry registry, .fresh fun _ => guest)
      (.ofPerson (.named "Ann" "Lee") none)).1.1
    let age : Write := ⟨guest, ⟨"fb", "age"⟩, ⟨.integer 40, .certain⟩⟩
    Reached registry day [] s ∧
      (putStep s (day, age)).2 = .ok () ∧ Enters s age (putStep s (day, age)).1 ∧
      (putStep s (day, { age with key := ⟨"fb", "town"⟩, id := other })).2 =
        .error (.unknownAttribute ⟨"fb", "town"⟩) ∧
      (putStep s (day, { age with observation := ⟨.text "40", .certain⟩, id := other })).2 =
        .error (.typeMismatch ⟨"fb", "age"⟩ .age .text) ∧
      (putStep s (day, { age with id := other })).2 = .error (.unknownIndividual other) := by
  intro day guest other registry s age
  have hs : Reached registry day [] s := .add (.start day) _ _
  have hanswers := fun w => (answers_writes hs w).2.1
  have hdeclared : s.registry.resolve ⟨"fb", "age"⟩ = some .age := by decide +kernel
  have hmissing : s.registry.resolve ⟨"fb", "town"⟩ = none := by decide +kernel
  have htakes : s.registry.Takes day ⟨"fb", "age"⟩ (.integer 40) := ⟨.age, hdeclared, rfl⟩
  have hage : (putStep s (day, age)).2 = .ok () :=
    (hanswers age).accepted.mpr ⟨htakes, by decide⟩
  exact ⟨hs, hage, (answers_writes hs age).2.2.2.2 hage,
    ((hanswers _).undeclared _).mpr ⟨rfl, hmissing⟩,
    ((hanswers _).mistyped _ _ _).mpr ⟨⟨rfl, rfl⟩, hdeclared, rfl⟩,
    ((hanswers _).stranger _).mpr ⟨rfl, htakes, by decide⟩⟩

end Store

end Dossier
