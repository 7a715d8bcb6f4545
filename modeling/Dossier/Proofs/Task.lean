import Dossier.Task
import Dossier.Proofs.Writer.Request

/-!
Collectors at work, one call at a time. A call reaches the store through the collector's writer
only, so it leaves all other namespaces alone; and a collector that looks at nothing beyond its own
namespace does the same on all stores that agree there.
-/

namespace Dossier

/-- The work looks at no observations but those of one namespace. -/
inductive Activity.Private (n : String) : Activity → Prop where
  | done : Private n .done
  | fail (causes : List String) : Private n (.fail causes)
  | crash (message : Option String) : Private n (.crash message)
  | ready {next : Activity} (h : Private n next) : Private n (.ready next)
  | put (id : Uuid) (localName : String) (v : Value) (r : Float)
      {next : Except StoreError Unit → Activity} (h : ∀ answer, Private n (next answer)) :
      Private n (.put id localName v r next)
  | putObservation (id : Uuid) (k : Key) (o : Observation)
      {next : Except StoreError Unit → Activity} (h : ∀ answer, Private n (next answer)) :
      Private n (.putObservation id k o next)
  | look (id : Uuid) {k : Key} (hk : Within n k) {next : Option Observation → Activity}
      (h : ∀ answer, Private n (next answer)) : Private n (.look id k next)
  | pause (millis : ℕ) (holding : Bool) {next : Activity} (h : Private n next) :
      Private n (.pause millis holding next)

namespace Task

variable {t t' : Task} {s s' : Store}

/-! ### One call -/

/-- What a call that is no write does to a collector: the writer may be closed, and a status that
was settled before stays. -/
structure Silent (t t' : Task) : Prop where
  writer : t'.writer = t.writer ∨ t'.writer = t.writer.close
  status : ∀ st, t.status = some st → t'.status = some st

lemma silent_finish (t : Task) (st : Status) : t.Silent (t.finish st) :=
  ⟨.inr rfl, fun st' h => by simp [finish, h]⟩

/-- **What a call can do**: it is a write, or it leaves the store alone. -/
theorem act_cases (t : Task) (today : CivilDate) (s : Store) :
    (∃ call next, t.act today s = t.answered (t.writer.perform s today call) next) ∨
      t.Silent (t.act today s).1 ∧ (t.act today s).2 = s := by
  cases hr : t.rest with
  | none =>
    simp only [act, hr]
    exact .inr ⟨⟨.inl rfl, fun _ h => h⟩, trivial⟩
  | some a =>
    cases a with
    | put id l v r next =>
      refine .inl ⟨.put id l v r, next, ?_⟩
      simp only [act, hr, Writer.perform]
    | putObservation id k o next =>
      refine .inl ⟨.putObservation id k o, next, ?_⟩
      simp only [act, hr, Writer.perform]
    | pause millis holding next =>
      simp only [act, hr]
      split <;> exact .inr ⟨⟨.inl rfl, fun _ h => h⟩, rfl⟩
    | done | fail causes | crash message =>
      simp only [act, hr]
      exact .inr ⟨t.silent_finish _, trivial⟩
    | ready next | look id k next =>
      simp only [act, hr]
      exact .inr ⟨⟨.inl rfl, fun _ h => h⟩, trivial⟩

lemma store_act (t : Task) (today : CivilDate) (s : Store) :
    (t.act today s).2 = s ∨
      ∃ call, (t.act today s).2 = (t.writer.perform s today call).store := by
  rcases t.act_cases today s with ⟨call, next, h⟩ | ⟨-, h⟩
  · exact .inr ⟨call, by rw [h]; rfl⟩
  · exact .inl h

lemma space_act (t : Task) (today : CivilDate) (s : Store) :
    (t.act today s).1.writer.space = t.writer.space := by
  rcases t.act_cases today s with ⟨call, next, h⟩ | ⟨h, -⟩
  · rw [h]
    exact t.writer.space_perform s today call
  · rcases h.writer with h | h <;> rw [h]
    rfl

lemma space_expire (t : Task) : t.expire.writer.space = t.writer.space := by
  unfold expire
  split <;> rfl

lemma status_act {st : Status} (hst : t.status = some st) (today : CivilDate) (s : Store) :
    (t.act today s).1.status = some st := by
  rcases t.act_cases today s with ⟨call, next, h⟩ | ⟨h, -⟩
  · rw [h]
    exact hst
  · exact h.status st hst

@[simp] lemma written_expire (t : Task) : t.expire.writer.written = t.writer.written := by
  unfold expire
  split <;> rfl

@[simp] lemma rejected_expire (t : Task) : t.expire.writer.rejected = t.writer.rejected := by
  unfold expire
  split <;> rfl

@[simp] lemma journal_expire (t : Task) : t.expire.journal = t.journal := by
  unfold expire
  split <;> rfl

lemma expire_of_some {st : Status} (h : t.status = some st) : t.expire = t := by
  simp [expire, h]

lemma status_expire_of_none (h : t.status = none) :
    t.expire.status = some (.failed (.timeout t.budget)) := by
  simp [expire, h]

lemma expire_expire (t : Task) : t.expire.expire = t.expire := by
  cases h : t.status with
  | some st => rw [expire_of_some h, expire_of_some h]
  | none => exact expire_of_some (status_expire_of_none h)

lemma act_frame (hn : IsNormal t.writer.space) (today : CivilDate) (s : Store) :
    Store.Agree (Beyond t.writer.space) s (t.act today s).2 := by
  rcases t.store_act today s with h | ⟨call, h⟩
  · rw [h]
    exact .refl _ s
  · rw [h]
    exact Writer.perform_frame hn s today call

/-! ### Calls within one namespace -/

structure IsPrivate (n : String) (t : Task) : Prop where
  space : t.writer.space = n
  normal : IsNormal n
  rest : ∀ a, t.rest = some a → a.Private n

lemma IsPrivate.act {n : String} (h : t.IsPrivate n) (today : CivilDate) (s : Store) :
    (t.act today s).1.IsPrivate n := by
  refine ⟨(t.space_act today s).trans h.space, h.normal, fun a ha => ?_⟩
  cases hr : t.rest with
  | none => simp [Task.act, hr] at ha
  | some b =>
    cases h.rest b hr with
    | done | fail | crash => simp [Task.act, hr, finish] at ha
    | ready hp =>
      obtain rfl : _ = a := by simpa [Task.act, hr] using ha
      exact hp
    | put _ _ _ _ hp | putObservation _ _ _ hp | look _ _ hp =>
      obtain rfl : _ = a := by simpa [Task.act, hr, answered] using ha
      exact hp _
    | pause _ _ hp =>
      simp only [Task.act, hr] at ha
      split at ha <;> cases ha
      exact hp

/-- **A private collector** does the same on all stores that agree on its namespace. -/
theorem act_same {n : String} (h : t.IsPrivate n) (today : CivilDate)
    (hs : Store.Agree (Within n) s s') :
    (t.act today s).1 = (t.act today s').1 ∧
      Store.Agree (Within n) (t.act today s).2 (t.act today s').2 := by
  obtain ⟨rfl, hn, hrest⟩ := h
  have hwrite : ∀ call next,
      (t.answered (t.writer.perform s today call) next).1 =
          (t.answered (t.writer.perform s' today call) next).1 ∧
        Store.Agree (Within t.writer.space) (t.answered (t.writer.perform s today call) next).2
          (t.answered (t.writer.perform s' today call) next).2 := by
    intro call next
    obtain ⟨ha, hw, hst⟩ := Writer.perform_same hn hs today call
    exact ⟨by simp only [answered, ha, hw], hst⟩
  cases hr : t.rest with
  | none =>
    simp only [act, hr]
    exact ⟨trivial, hs⟩
  | some a =>
    cases hrest a hr with
    | put id l v r _ =>
      simp only [act, hr]
      exact hwrite (.put id l v r) _
    | putObservation id k o _ =>
      simp only [act, hr]
      exact hwrite (.putObservation id k o) _
    | look id hk _ =>
      simp only [act, hr, hs.get?_eq id hk]
      exact ⟨trivial, hs⟩
    | pause =>
      simp only [act, hr]
      split <;> exact ⟨rfl, hs⟩
    | done | fail | crash | ready =>
      simp only [act, hr]
      exact ⟨trivial, hs⟩

/-! ### One call after the other -/

def acts (t : Task) (s : Store) : List CivilDate → Task × Store
  | [] => (t, s)
  | today :: days =>
    let (t, s) := t.act today s
    acts t s days

lemma acts_cons (t : Task) (s : Store) (today : CivilDate) (days : List CivilDate) :
    t.acts s (today :: days) = (t.act today s).1.acts (t.act today s).2 days := rfl

lemma acts_append (t : Task) (s : Store) (days days' : List CivilDate) :
    t.acts s (days ++ days') = (t.acts s days).1.acts (t.acts s days).2 days' := by
  induction days generalizing t s with
  | nil => rfl
  | cons today days ih => exact ih _ _

lemma acts_of_over (h : t.rest = none) (s : Store) (days : List CivilDate) :
    t.acts s days = (t, s) := by
  induction days with
  | nil => rfl
  | cons today days ih =>
    have hact : t.act today s = (t, s) := by simp [act, h]
    rw [acts_cons, hact]
    exact ih

lemma rest_act (h : t.status.isSome = true → t.rest = none) (today : CivilDate) (s : Store) :
    (t.act today s).1.status.isSome = true → (t.act today s).1.rest = none := by
  cases hst : t.status with
  | some st =>
    have hover : t.rest = none := h (by simp [hst])
    simp [act, hover]
  | none =>
    cases hr : t.rest with
    | none => simp [act, hr]
    | some a =>
      cases a with
      | done | fail | crash => simp [act, hr, finish]
      | ready | put | putObservation | look | pause => simp [act, hr, answered, hst]

lemma rest_acts (h : t.status.isSome = true → t.rest = none) (s : Store) (days : List CivilDate) :
    (t.acts s days).1.status.isSome = true → (t.acts s days).1.rest = none := by
  induction days generalizing t s with
  | nil => exact h
  | cons today days ih => exact ih (rest_act h today s) _

/-- Work that is over at different times has ended in the same way. -/
lemma acts_eq_of_longer (ht : t.status = none) {s : Store} {days days' : List CivilDate}
    (hdays : days <+: days') (hst : (t.acts s days).1.status.isSome = true) :
    t.acts s days = t.acts s days' := by
  obtain ⟨more, rfl⟩ := hdays
  have hover : (t.acts s days).1.rest = none := rest_acts (by simp [ht]) s days hst
  rw [acts_append, acts_of_over hover]

end Task

end Dossier
