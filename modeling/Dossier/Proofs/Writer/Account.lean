import Mathlib
import Dossier.Proofs.Writer.Interleaving
import Dossier.Proofs.Writer.Tally

/-!
The account of a writer. Over all its calls, a writer counts the writes that were accepted, and
lists the errors of those that were refused before it was closed for the first time. So a write on
an open writer is counted or listed, and a write on a closed one is refused without a trace. Beyond
the namespace of the writer the store stays as it was.
-/

namespace Dossier

def WriterCall.isWrite : WriterCall → Bool
  | close => false
  | _ => true

lemma WriterCall.isWrite_iff {call : WriterCall} : call.isWrite = true ↔ call ≠ .close := by
  cases call <;> simp [isWrite]

lemma WriterCall.isWrite_eq_false_iff {call : WriterCall} :
    call.isWrite = false ↔ call = .close := by
  cases call <;> simp [isWrite]

/-- A writer, and the store that it writes into. -/
structure Desk where
  writer : Writer
  store : Store

abbrev DeskCall := CivilDate × WriterCall

abbrev DeskLog := List (DeskCall × Except StoreError Unit)

namespace DeskLog

def acceptedWrites (log : DeskLog) : Nat := log.countP fun e => e.1.2.isWrite && e.2.isOk

def hasClose (log : DeskLog) : Bool := log.any fun e => !e.1.2.isWrite

/-- The calls before the writer was first closed. -/
def beforeClose (log : DeskLog) : DeskLog := log.takeWhile fun e => e.1.2.isWrite

def errors (log : DeskLog) : List StoreError :=
  log.filterMap fun e =>
    match e.2 with
    | .error e => some e
    | .ok () => none

variable {log : DeskLog}

lemma hasClose_iff : hasClose log = true ↔ ∃ b ∈ log.map (·.1), b.2 = .close := by
  simp [hasClose, WriterCall.isWrite_eq_false_iff]

lemma hasClose_eq_false_iff : hasClose log = false ↔ ∀ e ∈ log, e.1.2.isWrite = true := by
  simp [hasClose]

lemma beforeClose_concat (log : DeskLog) (e : DeskCall × Except StoreError Unit) :
    beforeClose (log ++ [e]) =
      beforeClose log ++ if hasClose log = false ∧ e.1.2.isWrite = true then [e] else [] := by
  cases hclose : hasClose log with
  | false =>
    have hall := hasClose_eq_false_iff.mp hclose
    rw [beforeClose, beforeClose, List.takeWhile_append_of_pos hall,
      List.takeWhile_eq_self_iff.mpr hall]
    by_cases he : e.1.2.isWrite = true <;> simp [he]
  | true =>
    have hsome : (log.takeWhile fun e => e.1.2.isWrite).length ≠ log.length := by
      intro hlength
      have hall := (List.takeWhile_prefix _).eq_of_length hlength
      rw [hasClose_eq_false_iff.mpr (List.takeWhile_eq_self_iff.mp hall)] at hclose
      cases hclose
    rw [beforeClose, List.takeWhile_append, if_neg hsome, if_neg (by simp), List.append_nil]
    rfl

lemma acceptedWrites_concat (log : DeskLog) (e : DeskCall × Except StoreError Unit) :
    acceptedWrites (log ++ [e]) =
      acceptedWrites log + if e.1.2.isWrite && e.2.isOk then 1 else 0 := by
  rw [acceptedWrites, List.countP_append, List.countP_singleton]
  rfl

lemma hasClose_concat (log : DeskLog) (e : DeskCall × Except StoreError Unit) :
    hasClose (log ++ [e]) = (hasClose log || !e.1.2.isWrite) := by
  simp [hasClose]

@[simp] lemma errors_ok (c : DeskCall) : errors [(c, .ok ())] = [] := rfl

@[simp] lemma errors_error (c : DeskCall) (e : StoreError) : errors [(c, .error e)] = [e] := rfl

lemma errors_append (log log' : DeskLog) : errors (log ++ log') = errors log ++ errors log' :=
  List.filterMap_append

end DeskLog

namespace Desk

open DeskLog

def call (d : Desk) (c : DeskCall) : Desk × Except StoreError Unit :=
  let after := d.writer.perform d.store c.1 c.2
  (⟨after.writer, after.store⟩, after.answer)

/-- **What one call adds** to the account, after the calls `before`. A write is counted if it was
accepted and listed if it was not, unless the writer was closed before; then it is refused, and
nothing changes. Closing changes neither the account nor the store. -/
structure Adds (before : List DeskCall) (d : Desk) (c : DeskCall) (d' : Desk)
    (answer : Except StoreError Unit) : Prop where
  once : (∀ b ∈ before, b.2 ≠ .close) → c.2 ≠ .close →
    answer = .ok () ∧ d'.writer = { d.writer with written := d.writer.written + 1 } ∨
    ∃ e, answer = .error e ∧ d'.writer = { d.writer with rejected := d.writer.rejected ++ [e] }
  late : (∃ b ∈ before, b.2 = .close) → c.2 ≠ .close →
    d' = d ∧ answer = .error (.writerClosed d.writer.space)
  closing : c.2 = .close → d' = ⟨d.writer.close, d.store⟩
  refused : ∀ e, answer = .error e → d'.store = d.store
  frame : Store.Agree (Beyond d.writer.space) d.store d'.store

/-- The writer that its calls and their answers tell of. -/
def recorded (n : String) (log : DeskLog) : Writer where
  space := n
  written := acceptedWrites log
  rejected := errors (beforeClose log)
  isClosed := hasClose log

/-- **The account of a writer** that was new for a namespace. Every call before the first close is
either counted or listed. -/
structure Accounts (n : String) (s : Store) (log : DeskLog) (d : Desk) : Prop where
  writer : d.writer = recorded n log
  balanced : d.writer.written + d.writer.rejected.length = (beforeClose log).length
  frame : Store.Agree (Beyond n) s d.store

variable {n : String} {s : Store} {log : DeskLog} {d : Desk} {before : List DeskCall}
  {c : DeskCall}

/-! ### One call more -/

lemma recorded_close (hc : c.2.isWrite = false) (answer : Except StoreError Unit) :
    recorded n (log ++ [(c, answer)]) = (recorded n log).close := by
  simp [recorded, Writer.close, hasClose_concat, acceptedWrites_concat, beforeClose_concat, hc]

lemma recorded_late (hclose : hasClose log = true) (c : DeskCall) (e : StoreError) :
    recorded n (log ++ [(c, .error e)]) = recorded n log := by
  simp [recorded, hasClose_concat, acceptedWrites_concat, beforeClose_concat, hclose, Except.isOk,
    Except.toBool]

lemma recorded_accepted (hopen : hasClose log = false) (hc : c.2.isWrite = true) :
    recorded n (log ++ [(c, .ok ())]) =
      { recorded n log with written := (recorded n log).written + 1 } := by
  simp [recorded, hasClose_concat, acceptedWrites_concat, beforeClose_concat, errors_append, hopen,
    hc, Except.isOk, Except.toBool]

lemma recorded_refused (hopen : hasClose log = false) (hc : c.2.isWrite = true) (e : StoreError) :
    recorded n (log ++ [(c, .error e)]) =
      { recorded n log with rejected := (recorded n log).rejected ++ [e] } := by
  simp [recorded, hasClose_concat, acceptedWrites_concat, beforeClose_concat, errors_append, hopen,
    hc, Except.isOk, Except.toBool]

/-- Whatever was called before, all that counts is whether the writer is closed. -/
lemma call_adds (hn : IsNormal d.writer.space)
    (hclosed : d.writer.isClosed = true ↔ ∃ b ∈ before, b.2 = .close) (c : DeskCall) :
    Adds before d c (d.call c).1 (d.call c).2 := by
  refine ⟨fun hopen hc => ?_, fun hclose hc => ?_, fun hc => ?_, fun e he => ?_, ?_⟩
  · have hopen' : d.writer.isClosed = false := by
      rw [Bool.eq_false_iff, Ne, hclosed]
      rintro ⟨b, hb, hclose⟩
      exact hopen b hb hclose
    have h := Writer.perform_of_open hopen' hc d.store c.1
    split at h
    · next hok => exact .inl ⟨hok, h⟩
    · next e he => exact .inr ⟨e, he, congrArg Written.writer h.1⟩
  · have h := Writer.perform_of_closed (hclosed.mpr hclose) hc d.store c.1
    simp only [call, h, and_self]
  · simp only [call, hc]
    rfl
  · have h := d.writer.store_perform d.store c.1 c.2
    rw [show (d.writer.perform d.store c.1 c.2).answer = .error e from he] at h
    exact h
  · exact Writer.perform_frame hn d.store c.1 c.2

/-- **One call more** is entered into the account. -/
lemma Accounts.call (hn : IsNormal n) (h : Accounts n s log d) (c : DeskCall) :
    Accounts n s (log ++ [(c, (d.call c).2)]) (d.call c).1 := by
  obtain ⟨w, t⟩ := d
  obtain ⟨rfl, hbalanced, hframe⟩ := h
  have hadds := call_adds (d := ⟨recorded n log, t⟩) hn hasClose_iff c
  -- what the call did and answered is known from `hadds` alone
  generalize (Desk.call ⟨recorded n log, t⟩ c).1 = d' at hadds ⊢
  generalize (Desk.call ⟨recorded n log, t⟩ c).2 = answer at hadds ⊢
  have hframe' := hframe.trans hadds.frame
  dsimp only at hbalanced
  by_cases hc : c.2 = .close
  · have hw : c.2.isWrite = false := WriterCall.isWrite_eq_false_iff.mpr hc
    obtain rfl := hadds.closing hc
    refine ⟨(recorded_close hw answer).symm, ?_, hframe'⟩
    simpa [Writer.close, beforeClose_concat, hw] using hbalanced
  · have hw : c.2.isWrite = true := WriterCall.isWrite_iff.mpr hc
    cases hclose : hasClose log with
    | true =>
      obtain ⟨rfl, rfl⟩ := hadds.late (hasClose_iff.mp hclose) hc
      refine ⟨(recorded_late hclose c _).symm, ?_, hframe'⟩
      simpa [beforeClose_concat, hclose] using hbalanced
    | false =>
      have hopen : ∀ b ∈ log.map (·.1), b.2 ≠ .close := by
        intro b hb hbc
        rw [hasClose_iff.mpr ⟨b, hb, hbc⟩] at hclose
        cases hclose
      have hbefore : (beforeClose (log ++ [(c, answer)])).length =
          (beforeClose log).length + 1 := by
        rw [beforeClose_concat, if_pos ⟨hclose, hw⟩, List.length_append, List.length_singleton]
      rcases hadds.once hopen hc with ⟨rfl, hwriter⟩ | ⟨e, rfl, hwriter⟩
      · refine ⟨hwriter.trans (recorded_accepted hclose hw).symm, ?_, hframe'⟩
        rw [hbefore, hwriter, ← hbalanced]
        exact Nat.add_right_comm _ _ _
      · refine ⟨hwriter.trans (recorded_refused hclose hw e).symm, ?_, hframe'⟩
        rw [hbefore, hwriter, ← hbalanced, List.length_append, List.length_singleton]
        exact (Nat.add_assoc _ _ _).symm

lemma accounts_ofNamespace (space : String) (s : Store) :
    Accounts (Writer.ofNamespace space).space s [] ⟨.ofNamespace space, s⟩ :=
  ⟨rfl, rfl, .refl _ s⟩

/-- **A writer accounts for every write**, and stays in its namespace. -/
theorem accounts_for_writes (space : String) (hn : IsNormal (Writer.ofNamespace space).space)
    (s : Store) (calls : List DeskCall) :
    let run := history call ⟨.ofNamespace space, s⟩ calls
    Accounts (Writer.ofNamespace space).space s run.2 run.1 ∧
      ∀ c, Adds calls run.1 c (run.1.call c).1 (run.1.call c).2 := by
  intro run
  have haccounts : Accounts (Writer.ofNamespace space).space s run.2 run.1 :=
    history_inv (fun d log => Accounts (Writer.ofNamespace space).space s log d)
      (accounts_ofNamespace space s) (fun d log c h => h.call hn c) calls
  refine ⟨haccounts, call_adds ?_ ?_⟩
  · rw [haccounts.writer]
    exact hn
  · rw [haccounts.writer, ← map_fst_history call ⟨.ofNamespace space, s⟩ calls]
    exact hasClose_iff

/-- A write is accepted, one goes astray, and one comes after the close. -/
theorem accounts_for_one :
    let day : CivilDate := ⟨2024, 1, 1, by decide⟩
    let astray : WriterCall :=
      .putObservation Team.visitorId ⟨"tw", "age"⟩ ⟨.integer 41, .certain⟩
    let calls : List DeskCall :=
      [(day, Team.writeAge 40), (day, astray), (day, .close), (day, Team.writeAge 42)]
    let run := history call ⟨.ofNamespace "fb", Team.visitors⟩ calls
    IsNormal (Writer.ofNamespace "fb").space ∧
      run.1.writer = ⟨"fb", 1, [.namespaceViolation "fb" ⟨"tw", "age"⟩], true⟩ ∧
      Accounts "fb" Team.visitors run.2 run.1 := by
  intro day astray calls run
  have hn : IsNormal (Writer.ofNamespace "fb").space := rfl
  exact ⟨hn, by decide +kernel, (accounts_for_writes "fb" hn Team.visitors calls).1⟩

end Desk

end Dossier
