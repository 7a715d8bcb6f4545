import Dossier.Proofs.Key
import Dossier.Proofs.Store.Verdicts
import Dossier.Proofs.Writer.Paths

/-!
Spellings of a namespace. A writer is opened under a text in letters of either case, which it puts
in lower case. Where there are no blanks around the text, it is the writer of the normal form. Where
there are, it writes under local names as that writer does, but takes no key for one of its own.
-/

namespace Dossier

open Text

/-- Whether a call says no more than a local name. Closing says nothing at all. -/
def WriterCall.isLocal : WriterCall → Bool
  | putObservation _ _ _ => false
  | _ => true

/-- The error as a writer of the namespace `n` has it. -/
def StoreError.respell (n : String) : StoreError → StoreError
  | unknownAttribute k => unknownAttribute ⟨n, k.localName⟩
  | writerClosed _ => writerClosed n
  | e => e

lemma Store.respell_of_put {s : Store} {today : CivilDate} {id : Uuid} {k : Key} {o : Observation}
    {e : StoreError} (h : s.put today id k o = .error e) : e.respell k.space = e := by
  have hverdict : s.Verdict today ⟨id, k, o⟩ (.error e) := h ▸ s.verdict_write today ⟨id, k, o⟩
  cases hverdict <;> rfl

lemma Key.make_congr {space space' : String} (h : normalNamespace space = normalNamespace space') :
    Key.make space = Key.make space' := by
  funext localName
  simp only [Key.make, h]

namespace Writer

variable {w : Writer} {s : Store} {today : CivilDate} {id : Uuid} {localName : String} {v : Value}
  {x : Float}

lemma put_of_make (hopen : w.isClosed = false) {k : Key} (hk : Key.make w.space localName = .ok k)
    {r : Reliability} (hr : Reliability.ofFloat? x = some r) :
    w.put s today id localName v x = w.record s (s.write today ⟨id, k, ⟨v, r⟩⟩) := by
  simp [put, hopen, hk, hr, Store.write]

lemma put_accepted (h : (w.put s today id localName v x).answer = .ok ()) :
    w.isClosed = false ∧ ∃ k r s', Key.make w.space localName = .ok k ∧
      Reliability.ofFloat? x = some r ∧ s.write today ⟨id, k, ⟨v, r⟩⟩ = .ok s' ∧
      w.put s today id localName v x = ⟨s', { w with written := w.written + 1 }, .ok ()⟩ := by
  have hopen : w.isClosed = false := by
    by_contra hclosed
    rw [put, if_pos (Bool.not_eq_false _ ▸ hclosed)] at h
    cases h
  refine ⟨hopen, ?_⟩
  cases hk : Key.make w.space localName with
  | error e => simp [put, hopen, hk, reject] at h
  | ok k =>
    cases hr : Reliability.ofFloat? x with
    | none => simp [put, hopen, hk, hr, reject] at h
    | some r =>
      rw [put_of_make hopen hk hr] at h ⊢
      cases hs : s.write today ⟨id, k, ⟨v, r⟩⟩ with
      | error e => simp [hs, record, reject] at h
      | ok s' => exact ⟨k, r, s', rfl, rfl, hs, rfl⟩

lemma putObservation_accepted (hopen : w.isClosed = false) {k : Key} (hk : k.space = w.space)
    {o : Observation} (ht : s.registry.Takes today k o.value) (hid : id ∈ s.ids) :
    (w.putObservation s today id k o).answer = .ok () := by
  have hput : s.put today id k o = .ok (s.update id (·.insert k o)) :=
    Store.write_of_takes (w := ⟨id, k, o⟩) ht hid
  rw [putObservation_of_open hopen hk, hput]
  rfl

/-- A write under a local name that was accepted leaves its value under a key, where it may be
written again: on that day or later, and however far it is relied on. -/
def Rewritable (w : Writer) (s : Store) (today : CivilDate) (id : Uuid) (localName : String)
    (v : Value) (x : Float) : Prop :=
  (w.put s today id localName v x).answer = .ok () →
    let after := w.put s today id localName v x
    ∃ k r, Key.make w.space localName = .ok k ∧ Reliability.ofFloat? x = some r ∧
      after.store.get? id k = some ⟨v, r⟩ ∧ ∀ later r', today.notAfter later = true →
        (after.writer.putObservation after.store later id k ⟨v, r'⟩).answer = .ok ()

lemma rewritable (hn : IsNormal w.space) (s : Store) (today : CivilDate) (id : Uuid)
    (localName : String) (v : Value) (x : Float) : w.Rewritable s today id localName v x := by
  intro h
  obtain ⟨hopen, k, r, s', hk, hr, hs, hput⟩ := put_accepted h
  refine ⟨k, r, hk, hr, ?_⟩
  simp only [hput]
  refine ⟨by rw [Store.get?_write hs, if_pos ⟨rfl, rfl⟩], fun later r' hlater => ?_⟩
  obtain ⟨c, hc, hfits, hin, rfl⟩ := Store.put_ok hs
  refine putObservation_accepted (w := { w with written := w.written + 1 }) (o := ⟨v, r'⟩) hopen
    (hn.space_of_make hk) ⟨c, hc, Category.accepts_later hfits hlater⟩ ?_
  rw [Store.ids_update]
  exact Store.contains_iff.mp hin

/-! ### Local names -/

/-- The writer as it would be if it had been opened for the namespace `n`. -/
def respell (n : String) (w : Writer) : Writer :=
  { w with space := n, rejected := w.rejected.map (·.respell n) }

end Writer

def Written.respell (n : String) (r : Written) : Written :=
  ⟨r.store, r.writer.respell n, r.answer.mapError (·.respell n)⟩

namespace Writer

variable {n : String} {w : Writer}

lemma reject_respell (w : Writer) (s : Store) (e : StoreError) :
    (w.respell n).reject s (e.respell n) = (w.reject s e).respell n := by
  simp [reject, respell, Written.respell, Except.mapError]

lemma record_respell {answer : Except StoreError Store}
    (h : ∀ e, answer = .error e → e.respell n = e) (w : Writer) (s : Store) :
    (w.respell n).record s answer = (w.record s answer).respell n := by
  cases answer with
  | ok s' => rfl
  | error e =>
    have hsame := w.reject_respell (n := n) s e
    rwa [h e rfl] at hsame

/-- **Under a local name** a writer writes in the same way, whatever it was opened under. -/
theorem put_respell (hn : normalNamespace w.space = .ok n) (s : Store) (today : CivilDate)
    (id : Uuid) (localName : String) (v : Value) (x : Float) :
    (w.respell n).put s today id localName v x = (w.put s today id localName v x).respell n := by
  have hmake : Key.make n = Key.make w.space :=
    Key.make_congr ((isNormal_of_normalNamespace hn).trans hn.symm)
  unfold put
  rw [show (w.respell n).isClosed = w.isClosed from rfl,
    show (w.respell n).space = n from rfl, hmake]
  split
  · rfl
  · split
    · exact w.reject_respell s (.unknownAttribute ⟨w.space, localName⟩)
    · next k hk =>
      split
      · exact w.reject_respell s (.reliabilityOutOfRange x)
      · next r hr =>
        -- the store names the key, which is made in normal form from either text
        have hspace : k.space = n :=
          Except.ok.inj ((Key.normalNamespace_of_make hk).symm.trans hn)
        exact w.record_respell (fun e he => hspace ▸ Store.respell_of_put he) s

lemma perform_respell (hn : normalNamespace w.space = .ok n) (s : Store) (today : CivilDate)
    {call : WriterCall} (hc : call.isLocal = true) :
    (w.respell n).perform s today call = (w.perform s today call).respell n := by
  cases call with
  | put id localName v x => exact put_respell hn s today id localName v x
  | putObservation id k o => cases hc
  | close => rfl

/-- A writer that was opened under a text with blanks around it takes no key for one of its own. -/
lemma putObservation_of_blanks {space : String} (hspace : normalNamespace space = .ok n)
    (hblanks : trim space ≠ space) (hw : w.space = lower space) (hopen : w.isClosed = false)
    (s : Store) (today : CivilDate) (id : Uuid) {k : Key} (hk : k.IsProper) (o : Observation) :
    w.putObservation s today id k o = w.reject s (.namespaceViolation (lower space) k) := by
  -- the namespace of a key is in normal form, but the text in lower case still has its blanks
  have hne : k.space ≠ lower space := by
    intro heq
    have hnormal : normalNamespace (lower space) = .ok (lower space) := heq ▸ hk.isNormal
    have hlower := Except.ok.inj (hnormal.symm.trans (normalNamespace_lower hspace))
    exact hblanks ((lower_eq_iff_trim_eq hspace).mp hlower)
  simp [putObservation, hopen, hw, hne]

end Writer

namespace Desk

def respell (n : String) (d : Desk) : Desk := ⟨d.writer.respell n, d.store⟩

lemma history_respell {n : String} {d : Desk} (hn : normalNamespace d.writer.space = .ok n)
    {calls : List DeskCall} (hcalls : ∀ c ∈ calls, c.2.isLocal = true) :
    history call (d.respell n) calls =
      ((history call d calls).1.respell n,
        (history call d calls).2.map fun e => (e.1, e.2.mapError (·.respell n))) := by
  -- a call keeps the namespace, and with it the normal form
  induction calls generalizing d with
  | nil => rfl
  | cons c calls ih =>
    obtain ⟨hc, hcalls⟩ := List.forall_mem_cons.mp hcalls
    have hcall : (d.respell n).call c =
        ((d.call c).1.respell n, (d.call c).2.mapError (·.respell n)) := by
      simp only [call, respell, Writer.perform_respell hn d.store c.1 hc]
      rfl
    have hspace : (d.call c).1.writer.space = d.writer.space := Writer.space_perform ..
    rw [history_cons, history_cons, hcall, ih (hspace ▸ hn) hcalls]
    rfl

lemma space_history (d : Desk) (calls : List DeskCall) :
    (history call d calls).1.writer.space = d.writer.space :=
  history_inv (s := d) (fun u _ => u.writer.space = d.writer.space) rfl
    (fun u _ c h => (u.writer.space_perform u.store c.1 c.2).trans h) calls

/-- A writer that was opened under one text cannot be told from a writer opened under the other, and
what it writes under a local name it may write under the key as well. -/
structure Alike (space n : String) : Prop where
  sameSpace : (Writer.ofNamespace space).space = (Writer.ofNamespace n).space
  runs : ∀ s calls,
    history call ⟨.ofNamespace space, s⟩ calls = history call ⟨.ofNamespace n, s⟩ calls
  rewritable : ∀ s calls, let d := (history call ⟨.ofNamespace space, s⟩ calls).1
    ∀ today id localName v x, d.writer.Rewritable d.store today id localName v x

lemma alike_of_normal {space n : String} (h : normalNamespace space = .ok n)
    (hopened : Writer.ofNamespace space = .ofNamespace n) : Alike space n := by
  have hn := isNormal_of_normalNamespace h
  refine ⟨by rw [hopened], fun s calls => by rw [hopened], fun s calls => ?_⟩
  intro d today id localName v x
  refine Writer.rewritable ?_ d.store today id localName v x
  have hspace : d.writer.space = n := by
    rw [space_history, hopened]
    exact hn.lower_eq
  exact hspace.symm ▸ hn

/-- **A namespace may be spelled in either case.** Of the texts that have a normal form, those with
nothing to trim open the writer of the normal form. Under the others, local names lead to the same
writes, counts and errors, but for the namespace that the errors name; every key is refused as
somebody else's. -/
theorem spelled_alike {space n : String} (h : normalNamespace space = .ok n) :
    (Alike space n ↔ trim space = space) ∧
      (∀ s calls, (∀ c ∈ calls, c.2.isLocal = true) →
        let run := history call ⟨.ofNamespace space, s⟩ calls
        history call ⟨.ofNamespace n, s⟩ calls =
          (run.1.respell n, run.2.map fun e => (e.1, e.2.mapError (·.respell n)))) ∧
      (trim space ≠ space → ∀ s calls, let d := (history call ⟨.ofNamespace space, s⟩ calls).1
        d.writer.isClosed = false → ∀ today id k o, k.IsProper →
          d.writer.putObservation d.store today id k o =
            d.writer.reject d.store (.namespaceViolation (lower space) k)) := by
  have hn := isNormal_of_normalNamespace h
  refine ⟨⟨fun halike => ?_, fun htrim => ?_⟩, fun s calls hcalls => ?_, ?_⟩
  · refine (lower_eq_iff_trim_eq h).mp (halike.sameSpace.trans ?_)
    exact hn.lower_eq
  · have hspace : lower space = lower n :=
      ((lower_eq_iff_trim_eq h).mpr htrim).trans hn.lower_eq.symm
    exact alike_of_normal h (by rw [Writer.ofNamespace, hspace, Writer.ofNamespace])
  · have hopened : (Desk.mk (.ofNamespace space) s).respell n = ⟨.ofNamespace n, s⟩ := by
      simp [respell, Writer.respell, Writer.ofNamespace, hn.lower_eq]
    have hspace : normalNamespace (Writer.ofNamespace space).space = .ok n :=
      normalNamespace_lower h
    have hrun := history_respell (d := ⟨.ofNamespace space, s⟩) hspace hcalls
    rw [hopened] at hrun
    exact hrun
  · intro hblanks s calls d hopen today id k o hk
    have hspace : d.writer.space = lower space := space_history ⟨.ofNamespace space, s⟩ calls
    exact Writer.putObservation_of_blanks h hblanks hspace hopen d.store today id hk o

/-- Upper case does not show. -/
theorem spelled_in_capitals : Alike "FB" "fb" := by
  have h : normalNamespace "FB" = .ok "fb" := by decide +kernel
  exact (spelled_alike h).1.mpr (by decide +kernel)

/-- **Blanks show**: a namespace that differs from its normal form in blanks is taken for another.
What was written under a local name may not be written under its key. -/
theorem spelled_with_blanks :
    let day : CivilDate := ⟨2024, 1, 1, by decide⟩
    let calls : List DeskCall := [(day, Team.writeAge 40),
      (day, .putObservation Team.visitorId ⟨"fb", "age"⟩ ⟨.integer 40, .certain⟩)]
    normalNamespace " FB " = .ok "fb" ∧ ¬ Alike " FB " "fb" ∧
      (history call ⟨.ofNamespace " FB ", Team.visitors⟩ calls).2.map (·.2) =
        [.ok (), .error (.namespaceViolation " fb " ⟨"fb", "age"⟩)] ∧
      (history call ⟨.ofNamespace "fb", Team.visitors⟩ calls).2.map (·.2) = [.ok (), .ok ()] := by
  intro day calls
  exact ⟨by decide +kernel, fun h => absurd h.sameSpace (by decide +kernel), by decide +kernel,
    by decide +kernel⟩

end Desk

end Dossier
