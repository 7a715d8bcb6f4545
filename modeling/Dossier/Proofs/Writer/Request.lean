import Dossier.Writer
import Dossier.Proofs.Store.Agreement

/-!
Calls on writers in two steps. From its arguments alone a call becomes a write that the store is
asked for, or an error; only then the store is looked at. So a call depends on the namespace of its
writer and on nothing beyond, and leaves all else as it was.
-/

namespace Dossier

namespace Writer

/-- What a call asks of the store, or why it is not even asked. Closing asks for nothing. -/
def request? (w : Writer) : WriterCall → Option (Except StoreError Write)
  | .put id localName v r =>
    match Key.make w.space localName, Reliability.ofFloat? r with
    | .error _, _ => some (.error (.unknownAttribute ⟨w.space, localName⟩))
    | .ok _, none => some (.error (.reliabilityOutOfRange r))
    | .ok k, some r => some (.ok ⟨id, k, ⟨v, r⟩⟩)
  | .putObservation id k o =>
    if k.space = w.space then some (.ok ⟨id, k, o⟩)
    else some (.error (.namespaceViolation w.space k))
  | .close => none

lemma request?_congr {w v : Writer} (h : w.space = v.space) : w.request? = v.request? := by
  funext call
  cases call <;> simp only [request?, h]

/-- What becomes of a request. -/
def handle (w : Writer) (s : Store) (today : CivilDate) : Except StoreError Write → Written
  | .error e => w.reject s e
  | .ok a => w.record s (s.write today a)

/-- **A call is a request**, which an open writer handles and a closed one refuses. -/
theorem perform_eq (w : Writer) (s : Store) (today : CivilDate) (call : WriterCall) :
    w.perform s today call =
      match w.request? call with
      | none => ⟨s, w.close, .ok ()⟩
      | some r => if w.isClosed then w.refuse s else w.handle s today r := by
  cases call with
  | put id localName v r =>
    simp only [perform, Writer.put, request?]
    cases Key.make w.space localName with
    | error e => rfl
    | ok k => cases Reliability.ofFloat? r <;> rfl
  | putObservation id k o =>
    simp only [perform, putObservation, request?]
    by_cases hk : k.space = w.space <;> simp [hk] <;> rfl
  | close => rfl

lemma space_of_request? {w : Writer} {call : WriterCall} {a : Write} (hn : IsNormal w.space)
    (h : w.request? call = some (.ok a)) : Within w.space a.key := by
  cases call with
  | put id localName v r =>
    simp only [request?] at h
    split at h
    · cases h
    · cases h
    · next k r' hk hr =>
      cases h
      exact hn.space_of_make hk
  | putObservation id k o =>
    simp only [request?] at h
    split at h
    · next hk => cases h; exact hk
    · cases h
  | close => cases h

/-! ### What a call changes -/

variable {w : Writer} {s t : Store}

/-- The write that a call achieved, going by its answer. -/
def achieved? (w : Writer) (call : WriterCall) : Except StoreError Unit → Option Write
  | .error _ => none
  | .ok () => (w.request? call).bind fun r => r.toOption

lemma achieved?_congr {w v : Writer} (h : w.space = v.space) : w.achieved? = v.achieved? := by
  funext call answer
  cases answer with
  | error e => rfl
  | ok u => simp only [achieved?, request?_congr h]

/-- **What a call leaves behind** in the store is what it achieved. -/
theorem store_perform (w : Writer) (s : Store) (today : CivilDate) (call : WriterCall) :
    match w.achieved? call (w.perform s today call).answer with
    | none => (w.perform s today call).store = s
    | some a => w.request? call = some (.ok a) ∧
        s.write today a = .ok (w.perform s today call).store := by
  rw [perform_eq]
  cases hr : w.request? call with
  | none => simp [achieved?, hr]
  | some r =>
    by_cases hc : w.isClosed = true
    · simp [hc, achieved?, refuse]
    · simp only [hc]
      cases r with
      | error e => simp [achieved?, handle, reject]
      | ok a =>
        cases hw : s.write today a with
        | error e => simp [achieved?, handle, hw, record, reject]
        | ok s' => simp [achieved?, handle, hw, hr, record, Except.toOption]

lemma store_perform_cases (w : Writer) (s : Store) (today : CivilDate) (call : WriterCall) :
    (w.perform s today call).store = s ∨ ∃ a, w.request? call = some (.ok a) ∧
      s.write today a = .ok (w.perform s today call).store := by
  have h := w.store_perform s today call
  split at h
  · exact .inl h
  · exact .inr ⟨_, h⟩

lemma space_perform (w : Writer) (s : Store) (today : CivilDate) (call : WriterCall) :
    (w.perform s today call).writer.space = w.space := by
  rw [perform_eq]
  cases w.request? call with
  | none => rfl
  | some r =>
    simp only
    split
    · rfl
    · cases r with
      | error e => rfl
      | ok a =>
        simp only [handle]
        cases s.write today a <;> rfl

lemma registry_perform (w : Writer) (s : Store) (today : CivilDate) (call : WriterCall) :
    (w.perform s today call).store.registry = s.registry := by
  rcases w.store_perform_cases s today call with h | ⟨a, -, h⟩
  · rw [h]
  · obtain ⟨c, -, -, -, hs⟩ := Store.put_ok h
    rw [hs]
    rfl

/-- **Frame**: a call on a writer changes nothing beyond its namespace. -/
theorem perform_frame (hn : IsNormal w.space) (s : Store) (today : CivilDate) (call : WriterCall) :
    Store.Agree (Beyond w.space) s (w.perform s today call).store := by
  rcases w.store_perform_cases s today call with h | ⟨a, ha, h⟩
  · rw [h]
    exact .refl _ s
  · obtain ⟨c, -, -, -, hs⟩ := Store.put_ok h
    rw [hs]
    exact s.agree_update a.id a.observation fun hk => hk (space_of_request? hn ha)

/-! ### What a call depends on -/

/-- The answer to a call depends on who the individuals are, not on what is known of them. -/
lemma answer_perform_congr {w v : Writer} (hspace : w.space = v.space)
    (hclosed : w.isClosed = v.isClosed) (hr : s.registry = t.registry)
    (hids : ∀ id, s.contains id = t.contains id) (today : CivilDate) (call : WriterCall) :
    (w.perform s today call).answer = (v.perform t today call).answer := by
  rw [perform_eq, perform_eq, request?_congr hspace, hclosed]
  cases v.request? call with
  | none => rfl
  | some r =>
    simp only
    split
    · simp only [refuse, hspace]
    · cases r with
      | error e => rfl
      | ok a =>
        simp only [handle, Store.write, Store.put, hr, hids]
        split
        · rfl
        · split
          · rfl
          · split <;> rfl

structure SameResult (P : Key → Prop) (a b : Written) : Prop where
  answer : a.answer = b.answer
  writer : a.writer = b.writer
  store : Store.Agree P a.store b.store

/-- **Locality**: what a call on a writer does and answers depends on its own namespace only. -/
theorem perform_same (hn : IsNormal w.space) (h : Store.Agree (Within w.space) s t)
    (today : CivilDate) (call : WriterCall) :
    SameResult (Within w.space) (w.perform s today call) (w.perform t today call) := by
  rw [perform_eq, perform_eq]
  cases hr : w.request? call with
  | none => exact ⟨rfl, rfl, h⟩
  | some r =>
    simp only
    split
    · exact ⟨rfl, rfl, h⟩
    · cases r with
      | error e => exact ⟨rfl, rfl, h⟩
      | ok a =>
        simp only [handle]
        have hput : Store.SameAnswer _ (s.write today a) (t.write today a) :=
          h.put today a.id a.observation (space_of_request? hn hr)
        revert hput
        generalize s.write today a = b
        generalize t.write today a = c
        rintro (e | h')
        · exact ⟨rfl, rfl, h⟩
        · exact ⟨rfl, rfl, h'⟩

end Writer

end Dossier
