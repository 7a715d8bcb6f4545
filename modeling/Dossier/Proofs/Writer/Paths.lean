import Dossier.Proofs.Writer.Account

/-!
Two ways to write. A writer takes a value under a local name, or an observation under a whole key.
For a writer whose namespace is in normal form the two are one: they ask the same of the store, and
so they are answered, counted and entered alike. What an open writer hands on, it hands on as it is.
-/

namespace Dossier

/-- The call under the whole key that a call under a local name comes to, if its name makes a key
and its number is a reliability. -/
def WriterCall.qualify (n : String) : WriterCall → WriterCall
  | .put id localName v x =>
    match Key.make n localName, Reliability.ofFloat? x with
    | .ok k, some r => .putObservation id k ⟨v, r⟩
    | _, _ => .put id localName v x
  | call => call

namespace Writer

variable {w : Writer} {k : Key} {localName : String}

lemma request?_qualify (hn : IsNormal w.space) (call : WriterCall) :
    w.request? (call.qualify w.space) = w.request? call := by
  cases call with
  | put id localName v x =>
    cases hk : Key.make w.space localName with
    | error e => simp [WriterCall.qualify, hk]
    | ok k =>
      cases hr : Reliability.ofFloat? x with
      | none => simp [WriterCall.qualify, hk, hr]
      | some r => simp [WriterCall.qualify, request?, hk, hr, hn.space_of_make hk]
  | putObservation id k o => rfl
  | close => rfl

/-- **Either way of writing** has the same effect and the same answer. -/
theorem perform_qualify (hn : IsNormal w.space) (s : Store) (today : CivilDate)
    (call : WriterCall) : w.perform s today (call.qualify w.space) = w.perform s today call := by
  rw [perform_eq, perform_eq, request?_qualify hn]

lemma put_eq_putObservation (hn : IsNormal w.space) (hk : Key.make w.space localName = .ok k)
    (s : Store) (today : CivilDate) (id : Uuid) (v : Value) (r : Reliability) :
    w.put s today id localName v r.value = w.putObservation s today id k ⟨v, r⟩ := by
  have hqualify : (WriterCall.put id localName v r.value).qualify w.space =
      .putObservation id k ⟨v, r⟩ := by
    simp only [WriterCall.qualify, hk, r.ofFloat?_value]
  have hsame := perform_qualify hn s today (.put id localName v r.value)
  rw [hqualify] at hsame
  exact hsame.symm

lemma putObservation_of_open (hopen : w.isClosed = false) (hk : k.space = w.space) (s : Store)
    (today : CivilDate) (id : Uuid) (o : Observation) :
    w.putObservation s today id k o = w.record s (s.put today id k o) := by
  simp [putObservation, hopen, hk]

lemma record_putStep (w : Writer) (s : Store) (a : CivilDate × Write) :
    ((w.record s (s.write a.1 a.2)).store, (w.record s (s.write a.1 a.2)).answer) =
      s.putStep a := by
  unfold Store.putStep
  cases s.write a.1 a.2 <;> rfl

/-- **The two ways to write agree.** A value under a local name, with a number between zero and one,
is written as the observation under the key of that name is: with the same store, tallies and
answer. From an open writer the store and the answer are those of a write past the writer. -/
theorem paths_agree (hn : IsNormal w.space) (hk : Key.make w.space localName = .ok k) (s : Store)
    (today : CivilDate) (id : Uuid) (v : Value) {x : Float} (hx : isReliability x = true) :
    let o : Observation := ⟨v, ⟨x, hx⟩⟩
    let after := w.put s today id localName v x
    after = w.putObservation s today id k o ∧
      (w.isClosed = false → (after.store, after.answer) = s.putStep (today, ⟨id, k, o⟩)) := by
  intro o after
  have hsame : after = w.putObservation s today id k o :=
    put_eq_putObservation hn hk s today id v ⟨x, hx⟩
  refine ⟨hsame, fun hopen => ?_⟩
  rw [hsame, putObservation_of_open hopen (hn.space_of_make hk)]
  exact w.record_putStep s (today, ⟨id, k, o⟩)

/-- The age of a visitor, under a name with blanks around it. -/
theorem paths_agree_on_age :
    let w : Writer := .ofNamespace "FB"
    let day : CivilDate := ⟨2024, 1, 1, by decide⟩
    let half : Reliability := ⟨0.5, by decide +kernel⟩
    let after := w.put Team.visitors day Team.visitorId " age " (.integer 40) 0.5
    after.answer = .ok () ∧ after.writer.written = 1 ∧
      after = w.putObservation Team.visitors day Team.visitorId ⟨"fb", "age"⟩
        ⟨.integer 40, half⟩ := by
  intro w day half after
  have hn : normalNamespace w.space = .ok w.space := by decide +kernel
  have hk : Key.make w.space " age " = .ok ⟨"fb", "age"⟩ := by decide +kernel
  exact ⟨by decide +kernel, by decide +kernel,
    (paths_agree hn hk Team.visitors day Team.visitorId (.integer 40) half.inRange).1⟩

end Writer

end Dossier
