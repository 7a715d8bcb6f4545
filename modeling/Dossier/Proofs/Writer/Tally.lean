import Dossier.Proofs.Writer.Request

/-!
How calls are counted. An open writer counts every write that is accepted and lists the error of
every other one. A closed writer refuses all writes, and counts and store stay as they are.
-/

namespace Dossier

/-- Whether a write on an open writer may be answered with this error. -/
def StoreError.isOfWrite : StoreError → Bool
  | duplicateIndividual _ | writerClosed _ => false
  | _ => true

lemma Store.isOfWrite_of_put {s : Store} {today : CivilDate} {id : Uuid} {k : Key} {o : Observation}
    {e : StoreError} (h : s.put today id k o = .error e) : e.isOfWrite = true := by
  simp only [Store.put] at h
  split at h
  · cases h; rfl
  · split at h
    · cases h; rfl
    · split at h
      · cases h; rfl
      · cases h

namespace Writer

variable {w : Writer} {call : WriterCall}

lemma isOfWrite_of_request? {e : StoreError} (h : w.request? call = some (.error e)) :
    e.isOfWrite = true := by
  cases call with
  | put id localName v r =>
    simp only [request?] at h
    split at h <;> cases h <;> rfl
  | putObservation id k o =>
    simp only [request?] at h
    split at h <;> cases h
    rfl
  | close => cases h

lemma request?_of_ne_close (hcall : call ≠ .close) (w : Writer) :
    ∃ r, w.request? call = some r := by
  cases call with
  | put id localName v r =>
    simp only [request?]
    split <;> exact ⟨_, rfl⟩
  | putObservation id k o =>
    simp only [request?]
    split <;> exact ⟨_, rfl⟩
  | close => exact absurd rfl hcall

lemma request?_of_accepted (hopen : w.isClosed = false) (hcall : call ≠ .close) {s : Store}
    {today : CivilDate} (h : (w.perform s today call).answer = .ok ()) :
    ∃ a, w.request? call = some (.ok a) := by
  obtain ⟨r, hr⟩ := request?_of_ne_close hcall w
  rw [perform_eq, hr] at h
  cases r with
  | error e => simp [hopen, handle, reject] at h
  | ok a => exact ⟨a, hr⟩

/-- **An open writer** counts a write that is accepted, and lists the error of one that is not. -/
theorem perform_of_open (hopen : w.isClosed = false) (hcall : call ≠ .close) (s : Store)
    (today : CivilDate) :
    match (w.perform s today call).answer with
    | .ok () => (w.perform s today call).writer = { w with written := w.written + 1 }
    | .error e => w.perform s today call = w.reject s e ∧ e.isOfWrite = true := by
  obtain ⟨r, hr⟩ := request?_of_ne_close hcall w
  have hperform : w.perform s today call = w.handle s today r := by
    rw [perform_eq, hr]
    exact if_neg (by simp [hopen])
  rw [hperform]
  cases r with
  | error e => exact ⟨rfl, isOfWrite_of_request? hr⟩
  | ok a =>
    simp only [handle]
    cases ha : s.write today a with
    | error e => exact ⟨rfl, Store.isOfWrite_of_put ha⟩
    | ok s' => rfl

/-- **A closed writer** refuses every write. -/
theorem perform_of_closed (hclosed : w.isClosed = true) (hcall : call ≠ .close) (s : Store)
    (today : CivilDate) : w.perform s today call = ⟨s, w, .error (.writerClosed w.space)⟩ := by
  obtain ⟨r, hr⟩ := request?_of_ne_close hcall w
  rw [perform_eq, hr]
  exact if_pos hclosed

/-- What a call may add to the list of errors. -/
lemma rejected_perform (w : Writer) (s : Store) (today : CivilDate) (call : WriterCall) :
    (w.perform s today call).writer.rejected = w.rejected ∨
      ∃ e : StoreError, e.isOfWrite = true ∧
        (w.perform s today call).writer.rejected = w.rejected ++ [e] := by
  by_cases hcall : call = .close
  · subst hcall
    exact .inl rfl
  · cases hw : w.isClosed with
    | true => exact .inl (by rw [perform_of_closed hw hcall])
    | false =>
      have hopen := perform_of_open hw hcall s today
      split at hopen
      · exact .inl (by rw [hopen])
      · next e _ => exact .inr ⟨e, hopen.2, by rw [hopen.1]; rfl⟩

end Writer

end Dossier
