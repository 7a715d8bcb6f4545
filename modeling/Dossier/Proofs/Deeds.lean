import Dossier.Clock
import Dossier.Proofs.Crew
import Dossier.Proofs.Store.LastWrite
import Dossier.Proofs.Writer.Tally

/-!
Collectors deed by deed. Until its outcome is settled, a collector goes along one path of its work,
by the answers that it gets. Every write that is accepted counts and stays, every other is listed
with its error. The outcome is settled when the work comes to an end on this path, or when the
budget runs out before. Afterwards all writes are refused, and nothing changes any more.
-/

namespace Dossier

/-- What a call of a collector did, with the answer that it got. -/
inductive Deed where
  | ready
  | wrote (call : WriterCall) (answer : Except StoreError Unit)
  | looked (answer : Option Observation)
  | waited (millis : ℕ)

namespace Deed

def isReady : Deed → Bool
  | ready => true
  | _ => false

def isAccepted : Deed → Bool
  | wrote _ (.ok ()) => true
  | _ => false

def error? : Deed → Option StoreError
  | wrote _ (.error e) => some e
  | _ => none

/-- What a collector of the namespace `n` has written, if it was accepted. -/
def write? (n : String) : Deed → Option Write
  | wrote call answer => (Writer.ofNamespace n).achieved? call answer
  | _ => none

def nanos : Deed → ℕ
  | waited millis => millis * Span.nanosPerMilli
  | _ => 0

end Deed

namespace Activity

/-- Work leads by these deeds to what is left of it. -/
inductive Leads : Activity → List Deed → Activity → Prop where
  | here (a : Activity) : Leads a [] a
  | ready {next b : Activity} {ds : List Deed} (h : Leads next ds b) :
      Leads (.ready next) (.ready :: ds) b
  | put (id : Uuid) (l : String) (v : Value) (r : Float) {next : Except StoreError Unit → Activity}
      (answer : Except StoreError Unit) {b : Activity} {ds : List Deed}
      (h : Leads (next answer) ds b) :
      Leads (.put id l v r next) (.wrote (.put id l v r) answer :: ds) b
  | putObservation (id : Uuid) (k : Key) (o : Observation)
      {next : Except StoreError Unit → Activity} (answer : Except StoreError Unit) {b : Activity}
      {ds : List Deed} (h : Leads (next answer) ds b) :
      Leads (.putObservation id k o next) (.wrote (.putObservation id k o) answer :: ds) b
  | look (id : Uuid) (k : Key) {next : Option Observation → Activity}
      (answer : Option Observation) {b : Activity} {ds : List Deed}
      (h : Leads (next answer) ds b) : Leads (.look id k next) (.looked answer :: ds) b
  | pause (millis : ℕ) (holding : Bool) {next b : Activity} {ds : List Deed}
      (h : Leads next ds b) : Leads (.pause millis holding next) (.waited millis :: ds) b

/-- How work ends whose setup is over or not, if its next call is its last one. -/
def ending? (isReady : Bool) : Activity → Option Status
  | done => some .success
  | fail causes =>
    some (.failed (if isReady then .failed (chain causes) else .setupFailed (chain causes)))
  | crash message => some (.failed (.ofCrash message))
  | _ => none

def delay : Activity → ℕ
  | pause millis _ _ => millis * Span.nanosPerMilli
  | _ => 0

end Activity

/-! ### One call -/

namespace Task

variable {n : String} {a : Activity} {t u v : Task} {s s' s'' : Store} {ds ds' : List Deed}

/-- What the next call is going to do. The last call of all work does nothing more. -/
def deed? (t : Task) (today : CivilDate) (s : Store) : Option Deed :=
  match t.rest with
  | some (.ready _) => some .ready
  | some (.put id l v r _) =>
    some (.wrote (.put id l v r) (t.writer.perform s today (.put id l v r)).answer)
  | some (.putObservation id k o _) =>
    some (.wrote (.putObservation id k o)
      (t.writer.perform s today (.putObservation id k o)).answer)
  | some (.look id k _) => some (.looked (s.get? id k))
  | some (.pause millis _ _) => some (.waited millis)
  | _ => none

/-- The collector is at work in its namespace, and the work `a` is left. -/
structure Working (n : String) (a : Activity) (t : Task) : Prop where
  rest : t.rest = some a
  status : t.status = none
  space : t.writer.space = n
  isOpen : t.writer.isClosed = false

/-- What deeds leave behind, in the tallies and under the keys of the namespace. -/
structure Leaves (n : String) (t : Task) (s : Store) (ds : List Deed) (u : Task) (s' : Store) :
    Prop where
  written : u.writer.written = t.writer.written + ds.countP (·.isAccepted)
  rejected : u.writer.rejected = t.writer.rejected ++ ds.filterMap Deed.error?
  held : ∀ id k, Within n k →
    s'.get? id k = (lastWrite? (ds.filterMap (Deed.write? n)) id k).or (s.get? id k)

lemma leaves_nothing (hw : u.writer.written = t.writer.written)
    (hr : u.writer.rejected = t.writer.rejected) (hs : Store.Agree (Within n) s s') :
    Leaves n t s [] u s' where
  written := hw
  rejected := by simpa using hr
  held id k hk := (hs.get?_eq id hk).symm

lemma Leaves.trans (h : Leaves n t s ds u s') (h' : Leaves n u s' ds' v s'') :
    Leaves n t s (ds ++ ds') v s'' where
  written := by rw [h'.written, h.written, List.countP_append, Nat.add_assoc]
  rejected := by rw [h'.rejected, h.rejected, List.filterMap_append, List.append_assoc]
  held id k hk := by
    rw [h'.held id k hk, h.held id k hk, List.filterMap_append, lastWrite?_append,
      Option.or_assoc]

lemma leaves_answered {call : WriterCall} (hcall : call ≠ .close) (h : t.Working n a)
    (hn : IsNormal n) (today : CivilDate) (s : Store) (next : Except StoreError Unit → Activity) :
    let after := t.writer.perform s today call
    Leaves n t s [.wrote call after.answer] (t.answered after next).1
      (t.answered after next).2 := by
  intro after
  have hopen := Writer.perform_of_open h.isOpen hcall s today
  have hstore := t.writer.store_perform s today call
  have hachieved : (Writer.ofNamespace n).achieved? = t.writer.achieved? :=
    Writer.achieved?_congr (hn.lower_eq.trans h.space.symm)
  cases hanswer : after.answer with
  | error e =>
    rw [show (t.writer.perform s today call).answer = .error e from hanswer] at hopen
    obtain ⟨hreject, -⟩ := hopen
    have hafter : after = t.writer.reject s e := hreject
    rw [hafter]
    exact ⟨rfl, rfl, fun id k _ => rfl⟩
  | ok =>
    rw [show (t.writer.perform s today call).answer = .ok () from hanswer] at hopen hstore
    have hwriter : after.writer = { t.writer with written := t.writer.written + 1 } := hopen
    refine ⟨?_, ?_, fun id k _ => ?_⟩
    · simp [answered, hwriter, Deed.isAccepted]
    · simp [answered, hwriter, Deed.error?]
    · simp only [List.filterMap_cons, List.filterMap_nil, Deed.write?, hachieved]
      cases hw : t.writer.achieved? call (.ok ()) with
      | none =>
        rw [hw] at hstore
        simpa [answered, lastWrite?] using congrArg (·.get? id k) hstore
      | some w =>
        rw [hw] at hstore
        have hget := Store.get?_write hstore.2 id k
        by_cases hsame : w.id = id ∧ w.key = k <;> simpa [answered, lastWrite?, hsame] using hget

/-- A call of a collector at work is the deed `d`, after which the work `b` is left. -/
structure Proceeds (n : String) (a : Activity) (t : Task) (today : CivilDate) (s : Store)
    (d : Deed) (b : Activity) : Prop where
  deed : t.deed? today s = some d
  working : (t.act today s).1.Working n b
  leads : ∀ ds c, b.Leads ds c → a.Leads (d :: ds) c
  isReady : (t.act today s).1.isReady = (t.isReady || d.isReady)
  budget : (t.act today s).1.budget = t.budget
  leaves : Leaves n t s [d] (t.act today s).1 (t.act today s).2

structure Concludes (a : Activity) (t : Task) (today : CivilDate) (s : Store) (st : Status) :
    Prop where
  deed : t.deed? today s = none
  ending : a.ending? t.isReady = some st
  act : t.act today s = (t.finish st, s)

lemma proceeds_of_write {call : WriterCall} (hcall : call ≠ .close) (h : t.Working n a)
    (hn : IsNormal n) {today : CivilDate} {s : Store} {next : Except StoreError Unit → Activity}
    (hdeed : t.deed? today s = some (.wrote call (t.writer.perform s today call).answer))
    (hact : t.act today s = t.answered (t.writer.perform s today call) next)
    (hleads : ∀ answer ds c, (next answer).Leads ds c → a.Leads (.wrote call answer :: ds) c) :
    ∃ d b, Proceeds n a t today s d b := by
  have hopen : (t.writer.perform s today call).writer.isClosed = false := by
    have hperform := Writer.perform_of_open h.isOpen hcall s today
    split at hperform
    · rw [hperform]; exact h.isOpen
    · rw [hperform.1]; exact h.isOpen
  refine ⟨_, next (t.writer.perform s today call).answer, hdeed, ?_, hleads _, ?_, ?_, ?_⟩
  · rw [hact]
    exact ⟨rfl, h.status, (t.writer.space_perform s today call).trans h.space, hopen⟩
  · simp [hact, answered, Deed.isReady]
  · rw [hact]
    rfl
  · rw [hact]
    exact leaves_answered hcall h hn today s next

/-- **A call of a collector at work** is a deed, or else its work is over. -/
theorem act_working (h : t.Working n a) (hn : IsNormal n) (today : CivilDate) (s : Store) :
    (∃ d b, Proceeds n a t today s d b) ∨ ∃ st, Concludes a t today s st := by
  have hrest := h.rest
  -- what is no write leaves writer and store alone
  have hquiet {b : Activity} {d : Deed} {isReady : Bool} {journal : List JournalEntry}
      (hdeed : t.deed? today s = some d)
      (hact : t.act today s = ({ t with rest := some b, isReady, journal }, s))
      (hready : isReady = (t.isReady || d.isReady)) (hd : Leaves n t s [d] t s)
      (hleads : ∀ ds c, b.Leads ds c → a.Leads (d :: ds) c) :
      ∃ d b, Proceeds n a t today s d b := by
    refine ⟨d, b, hdeed, ?_, hleads, ?_, ?_, ?_⟩ <;> rw [hact]
    · exact ⟨rfl, h.status, h.space, h.isOpen⟩
    · exact hready
    · exact ⟨hd.written, hd.rejected, hd.held⟩
  have hnothing {d : Deed} (hw : d.isAccepted = false) (he : d.error? = none)
      (hv : d.write? n = none) : Leaves n t s [d] t s :=
    ⟨by simp [hw], by simp [he], fun id k _ => by simp [hv, lastWrite?]⟩
  cases a with
  | done => exact .inr ⟨_, by simp [deed?, hrest], rfl, by simp [act, hrest]⟩
  | fail causes => exact .inr ⟨_, by simp [deed?, hrest], rfl, by simp [act, hrest]⟩
  | crash message => exact .inr ⟨_, by simp [deed?, hrest], rfl, by simp [act, hrest]⟩
  | ready next =>
    exact .inl (hquiet (d := .ready) (by simp only [deed?, hrest]) (by simp only [act, hrest]; rfl)
      (Bool.or_true _).symm (hnothing rfl rfl rfl) fun _ _ => .ready)
  | put id l v r next =>
    exact .inl (proceeds_of_write (by simp) h hn (by simp only [deed?, hrest])
      (by simp only [act, hrest]; rfl) fun answer _ _ => .put id l v r answer)
  | putObservation id k o next =>
    exact .inl (proceeds_of_write (by simp) h hn (by simp only [deed?, hrest])
      (by simp only [act, hrest]; rfl) fun answer _ _ => .putObservation id k o answer)
  | look id k next =>
    exact .inl (hquiet (d := .looked (s.get? id k)) (by simp only [deed?, hrest])
      (by simp only [act, hrest]; rfl) (Bool.or_false _).symm (hnothing rfl rfl rfl)
      fun _ _ => .look id k _)
  | pause millis holding next =>
    exact .inl (hquiet (d := .waited millis) (by simp only [deed?, hrest])
      (by simp only [act, hrest, h.status]; rfl) (Bool.or_false _).symm (hnothing rfl rfl rfl)
      fun _ _ => .pause millis holding)

structure Settled (n : String) (st : Status) (t : Task) : Prop where
  status : t.status = some st
  space : t.writer.space = n
  isClosed : t.writer.isClosed = true

/-- What is left of a call after the outcome was settled: the refusal of a write. -/
structure Idle (n : String) (t : Task) (today : CivilDate) (s : Store) : Prop where
  writer : (t.act today s).1.writer = t.writer
  store : (t.act today s).2 = s
  refused : ∀ call answer, t.deed? today s = some (.wrote call answer) →
    answer = .error (.writerClosed n)
  ended : t.rest = none → (t.act today s).1.rest = none ∧ t.deed? today s = none

/-- **After it was settled**, nothing that a collector tries has an effect. -/
theorem act_settled {st : Status} (h : t.Settled n st) (today : CivilDate) (s : Store) :
    Idle n t today s := by
  obtain ⟨-, hspace, hclosed⟩ := h
  have hclose : t.writer.close = t.writer := by rw [Writer.close, ← hclosed]
  have hrefused (call : WriterCall) (hcall : call ≠ .close) :
      t.writer.perform s today call = ⟨s, t.writer, .error (.writerClosed n)⟩ := by
    rw [Writer.perform_of_closed hclosed hcall, hspace]
  have hsame : (t.act today s).1.writer = t.writer ∧ (t.act today s).2 = s := by
    rcases t.act_cases today s with ⟨call, next, hact⟩ | ⟨hsilent, hstore⟩
    · rw [hact]
      by_cases hcall : call = .close
      · subst hcall
        exact ⟨hclose, rfl⟩
      · rw [hrefused call hcall]
        exact ⟨rfl, rfl⟩
    · exact ⟨hsilent.writer.elim id (·.trans hclose), hstore⟩
  refine ⟨hsame.1, hsame.2, fun call answer hdeed => ?_, fun hrest => ?_⟩
  · unfold deed? at hdeed
    split at hdeed <;> cases hdeed
    · rw [hrefused _ (by simp)]
    · rw [hrefused _ (by simp)]
  · simp [act, deed?, hrest]

lemma Settled.act {st : Status} (h : t.Settled n st) (today : CivilDate) (s : Store) :
    (t.act today s).1.Settled n st := by
  have hwriter := (act_settled h today s).writer
  exact ⟨status_act h.status today s, hwriter ▸ h.space, hwriter ▸ h.isClosed⟩

end Task

/-! ### One collector of a crew -/

/-- How a collector came to its outcome: by what it did until then, what it had left to do, whether
its budget had run out, and what it tried later. -/
structure Course where
  deeds : List Deed
  next : Activity
  expired : Bool
  later : List Deed

namespace Course

/-- The move by which the outcome was settled. -/
def settling (k : Course) (i : ℕ) : Move := if k.expired then .expire i else .act i

/-- The status with which a course ends: the work came to its own end, or its budget ran out. -/
def Ends (k : Course) (budget : Span) (isReady : Bool) (st : Status) : Prop :=
  if k.expired then st = .failed (.timeout budget)
  else k.next.ending? (isReady || k.deeds.any (·.isReady)) = some st

end Course

namespace Crew

variable {n : String} {a : Activity} {c : Crew} {i : ℕ} {t u : Task} {st : Status}
  {ms : List (CivilDate × Move)}

def statusAt? (c : Crew) (i : ℕ) : Option Status := (c.tasks[i]?).bind (·.status)

/-- What the collector in one place does with a move. -/
def deed? (c : Crew) (i : ℕ) (today : CivilDate) : Move → Option Deed
  | .act j => if j = i then (c.tasks[i]?).bind (·.deed? today c.store) else none
  | .expire _ => none

/-- What the collector in one place does under a schedule. -/
def deeds (i : ℕ) : Crew → List (CivilDate × Move) → List Deed
  | _, [] => []
  | c, (today, m) :: ms => (c.deed? i today m).toList ++ deeds i (c.step today m) ms

/-- The collector in one place takes this course under a schedule: one of the moves settles its
outcome. -/
def Takes (c : Crew) (i : ℕ) (ms : List (CivilDate × Move)) (k : Course) : Prop :=
  ∃ before today after t, ms = before ++ (today, k.settling i) :: after ∧
    (c.schedule before).tasks[i]? = some t ∧ t.status = none ∧ t.rest = some k.next ∧
    ((c.schedule before).step today (k.settling i)).statusAt? i ≠ none ∧
    c.deeds i before = k.deeds ∧
    ((c.schedule before).step today (k.settling i)).deeds i after = k.later

lemma deed?_act (ht : c.tasks[i]? = some t) (today : CivilDate) :
    c.deed? i today (.act i) = t.deed? today c.store := by
  simp [deed?, ht]

lemma deed?_of_ne {m : Move} (hm : m.index ≠ i) (today : CivilDate) :
    c.deed? i today m = none := by
  cases m with
  | act j => exact if_neg hm
  | expire j => rfl

lemma Takes.cons {today : CivilDate} {m : Move} {k : Course}
    (h : (c.step today m).Takes i ms k) :
    c.Takes i ((today, m) :: ms) { k with deeds := (c.deed? i today m).toList ++ k.deeds } := by
  obtain ⟨before, day, after, t, rfl, ht, hnone, hrest, hsome, hdeeds, hlater⟩ := h
  exact ⟨(today, m) :: before, day, after, t, rfl, ht, hnone, hrest, hsome,
    congrArg ((c.deed? i today m).toList ++ ·) hdeeds, hlater⟩

lemma takes_now {today : CivilDate} {k : Course} (ht : c.tasks[i]? = some t)
    (hnone : t.status = none) (hrest : t.rest = some k.next)
    (hu : (c.step today (k.settling i)).tasks[i]? = some u) (hst : u.status = some st)
    (hdeeds : k.deeds = []) (hlater : k.later = (c.step today (k.settling i)).deeds i ms) :
    c.Takes i ((today, k.settling i) :: ms) k := by
  refine ⟨[], today, ms, t, rfl, ht, hnone, hrest, ?_, hdeeds.symm, hlater.symm⟩
  simp [statusAt?, schedule, hu, hst]

/-- What a collector is after its outcome was settled, and whatever it tries then. -/
structure Rests (c : Crew) (i : ℕ) (n : String) (t : Task) (st : Status)
    (ms : List (CivilDate × Move)) (u : Task) : Prop where
  task : (c.schedule ms).tasks[i]? = some u
  status : u.status = some st
  writer : u.writer = t.writer
  store : Store.Agree (Within n) c.store (c.schedule ms).store
  refused : ∀ call answer, .wrote call answer ∈ c.deeds i ms → answer = .error (.writerClosed n)
  ended : t.rest = none → c.deeds i ms = []

lemma Rests.act {today : CivilDate}
    (h : Rests (c.step today (.act i)) i n (t.act today c.store).1 st ms u)
    (ht : c.tasks[i]? = some t) (hidle : Task.Idle n t today c.store) :
    Rests c i n t st ((today, .act i) :: ms) u := by
  have hstore : (c.step today (.act i)).store = c.store := by
    rw [step_act ht]
    exact hidle.store
  refine ⟨h.task, h.status, h.writer.trans hidle.writer, hstore ▸ h.store, ?_, fun hrest => ?_⟩
  · intro call answer hd
    rcases List.mem_append.mp hd with hd | hd
    · rw [deed?_act ht, Option.mem_toList] at hd
      exact hidle.refused call answer hd
    · exact h.refused call answer hd
  · obtain ⟨hrest', hdeed⟩ := hidle.ended hrest
    rw [deeds, deed?_act ht, hdeed, h.ended hrest']
    rfl

lemma Rests.of_other {today : CivilDate} {m : Move} (h : Rests (c.step today m) i n t st ms u)
    (hc : c.Apart) (ht : c.tasks[i]? = some t) (hspace : t.writer.space = n) (hm : m.index ≠ i) :
    Rests c i n t st ((today, m) :: ms) u := by
  have hquiet := hc.agree_step ht today hm
  rw [hspace] at hquiet
  have hdeeds : c.deeds i ((today, m) :: ms) = (c.step today m).deeds i ms := by
    rw [deeds, deed?_of_ne hm]
    rfl
  exact ⟨h.task, h.status, h.writer, hquiet.trans h.store, hdeeds ▸ h.refused, hdeeds ▸ h.ended⟩

lemma rests (hc : c.Apart) (ht : c.tasks[i]? = some t) (h : t.Settled n st)
    (ms : List (CivilDate × Move)) : ∃ u, Rests c i n t st ms u := by
  induction ms generalizing c t with
  | nil => exact ⟨t, ht, h.status, rfl, .refl _ _, fun _ _ hd => absurd hd List.not_mem_nil,
      fun _ => rfl⟩
  | cons m ms ih =>
    obtain ⟨today, m⟩ := m
    have hapart := hc.step today m
    by_cases hm : m.index = i
    · cases m with
      | act j =>
        obtain rfl : j = i := hm
        obtain ⟨u, hu⟩ := ih hapart (getElem?_step_act ht today) (h.act today c.store)
        exact ⟨u, hu.act ht (Task.act_settled h today c.store)⟩
      | expire j =>
        obtain rfl : j = i := hm
        have htask := getElem?_step_expire ht today
        rw [Task.expire_of_some h.status] at htask
        obtain ⟨u, hu⟩ := ih hapart htask h
        exact ⟨u, hu.task, hu.status, hu.writer, hu.store, hu.refused, hu.ended⟩
    · have ht' : (c.step today m).tasks[i]? = some t := by rw [getElem?_step_of_ne c today hm, ht]
      obtain ⟨u, hu⟩ := ih hapart ht' h
      exact ⟨u, hu.of_other hc ht h.space hm⟩

/-- **What a course leaves behind**, once its outcome `st` is settled: the path that it took, and
what was accepted on it; whatever was tried later has left no trace. -/
structure Leads (c : Crew) (i : ℕ) (n : String) (a : Activity) (t : Task) (k : Course)
    (ms : List (CivilDate × Move)) (u : Task) (st : Status) : Prop where
  takes : c.Takes i ms k
  path : a.Leads k.deeds k.next
  ends : k.Ends t.budget t.isReady st
  leaves : Task.Leaves n t c.store k.deeds u (c.schedule ms).store
  refused : ∀ call answer, .wrote call answer ∈ k.later → answer = .error (.writerClosed n)
  ended : k.expired = false → k.later = []

lemma Leads.act {today : CivilDate} {d : Deed} {b : Activity} {k : Course}
    (h : Leads (c.step today (.act i)) i n b (t.act today c.store).1 k ms u st)
    (ht : c.tasks[i]? = some t) (hd : Task.Proceeds n a t today c.store d b) :
    Leads c i n a t { k with deeds := d :: k.deeds } ((today, .act i) :: ms) u st := by
  have hdeed : c.deed? i today (.act i) = some d := (deed?_act ht today).trans hd.deed
  have hstore : (c.step today (.act i)).store = (t.act today c.store).2 := by rw [step_act ht]
  refine ⟨?_, hd.leads _ _ h.path, ?_, ?_, h.refused, h.ended⟩
  · simpa [hdeed] using h.takes.cons
  · have hends := h.ends
    rw [hd.isReady, hd.budget] at hends
    simpa [Course.Ends, Bool.or_assoc] using hends
  · exact hd.leaves.trans (hstore ▸ h.leaves)

/-- What another collector does leaves the course alone. -/
lemma Leads.of_other {today : CivilDate} {m : Move} {k : Course}
    (h : Leads (c.step today m) i n a t k ms u st) (hc : c.Apart) (ht : c.tasks[i]? = some t)
    (hspace : t.writer.space = n) (hm : m.index ≠ i) :
    Leads c i n a t k ((today, m) :: ms) u st := by
  have hquiet := hc.agree_step ht today hm
  rw [hspace] at hquiet
  refine ⟨?_, h.path, h.ends, (Task.leaves_nothing rfl rfl hquiet).trans h.leaves, h.refused,
    h.ended⟩
  simpa [deed?_of_ne hm] using h.takes.cons

lemma leads_now {today : CivilDate} {k : Course} (hc : c.Apart) (ht : c.tasks[i]? = some t)
    (h : t.Working n a) {t' : Task} (ht' : (c.step today (k.settling i)).tasks[i]? = some t')
    (hstore : (c.step today (k.settling i)).store = c.store) (hsettled : t'.Settled n st)
    (hwriter : t'.writer = t.writer.close) (hdeeds : k.deeds = []) (hnext : k.next = a)
    (hlater : k.later = (c.step today (k.settling i)).deeds i ms)
    (hends : k.Ends t.budget t.isReady st) (hover : k.expired = false → t'.rest = none)
    (hu : (c.schedule ((today, k.settling i) :: ms)).tasks[i]? = some u) :
    u.status = some st ∧ Leads c i n a t k ((today, k.settling i) :: ms) u st := by
  obtain ⟨v, hv⟩ := rests (hc.step today (k.settling i)) ht' hsettled ms
  obtain rfl : v = u := Option.some.inj (hv.task.symm.trans hu)
  refine ⟨hv.status, ?_, ?_, hends, ?_, ?_, fun hk => ?_⟩
  · exact takes_now ht h.status (hnext ▸ h.rest) ht' hsettled.status hdeeds hlater
  · rw [hdeeds, hnext]
    exact .here a
  · rw [hdeeds]
    have hsame := hv.writer.trans hwriter
    refine Task.leaves_nothing ?_ ?_ (hstore ▸ hv.store)
    · rw [hsame]; rfl
    · rw [hsame]; rfl
  · rw [hlater]
    exact hv.refused
  · rw [hlater]
    exact hv.ended (hover hk)

lemma leads_ending {today : CivilDate} (hc : c.Apart) (ht : c.tasks[i]? = some t)
    (h : t.Working n a) (hend : Task.Concludes a t today c.store st)
    (hu : (c.schedule ((today, .act i) :: ms)).tasks[i]? = some u) :
    ∃ k, u.status = some st ∧ Leads c i n a t k ((today, .act i) :: ms) u st := by
  let k : Course := ⟨[], a, false, (c.step today (.act i)).deeds i ms⟩
  have htask := getElem?_step_act ht today
  rw [hend.act] at htask
  have hstore : (c.step today (.act i)).store = c.store := by rw [step_act ht, hend.act]
  have hfinish : (t.finish st).Settled n st := ⟨by simp [Task.finish, h.status], h.space, rfl⟩
  exact ⟨k, leads_now (k := k) hc ht h htask hstore hfinish rfl rfl rfl rfl
    (by simpa [Course.Ends, k] using hend.ending) (fun _ => rfl) hu⟩

lemma leads_expiry {today : CivilDate} (hc : c.Apart) (ht : c.tasks[i]? = some t)
    (h : t.Working n a) (hu : (c.schedule ((today, .expire i) :: ms)).tasks[i]? = some u) :
    ∃ k, u.status = some (.failed (.timeout t.budget)) ∧
      Leads c i n a t k ((today, .expire i) :: ms) u (.failed (.timeout t.budget)) := by
  let k : Course := ⟨[], a, true, (c.step today (.expire i)).deeds i ms⟩
  have hexpire : t.expire.Settled n (.failed (.timeout t.budget)) :=
    ⟨Task.status_expire_of_none h.status, t.space_expire.trans h.space,
      by simp [Task.expire, h.status, Writer.close]⟩
  exact ⟨k, leads_now (k := k) hc ht h (getElem?_step_expire ht today) rfl hexpire
    (by simp [Task.expire, h.status]) rfl rfl rfl rfl (by simp [k]) hu⟩

/-- **Every collector takes a course** to its outcome, whatever the others do. -/
theorem exists_course (hc : c.Apart) (ht : c.tasks[i]? = some t) (h : t.Working n a)
    (hn : IsNormal n) (hu : (c.schedule ms).tasks[i]? = some u) (hst : u.status = some st) :
    ∃ k, Leads c i n a t k ms u st := by
  induction ms generalizing c t a with
  | nil =>
    obtain rfl : t = u := Option.some.inj (ht.symm.trans hu)
    rw [h.status] at hst
    cases hst
  | cons m ms ih =>
    obtain ⟨today, m⟩ := m
    have hapart := hc.step today m
    by_cases hm : m.index = i
    · cases m with
      | act j =>
        obtain rfl : j = i := hm
        rcases Task.act_working h hn today c.store with ⟨d, b, hd⟩ | ⟨st', hend⟩
        · obtain ⟨k, hk⟩ := ih hapart (getElem?_step_act ht today) hd.working hu
          exact ⟨_, hk.act ht hd⟩
        · obtain ⟨k, hst', hk⟩ := leads_ending hc ht h hend hu
          obtain rfl : st' = st := Option.some.inj (hst'.symm.trans hst)
          exact ⟨k, hk⟩
      | expire j =>
        obtain rfl : j = i := hm
        obtain ⟨k, hst', hk⟩ := leads_expiry hc ht h hu
        obtain rfl := Option.some.inj (hst'.symm.trans hst)
        exact ⟨k, hk⟩
    · have ht' : (c.step today m).tasks[i]? = some t := by rw [getElem?_step_of_ne c today hm, ht]
      obtain ⟨k, hk⟩ := ih hapart ht' h hu
      exact ⟨k, hk.of_other hc ht h.space hm⟩

end Crew

end Dossier
