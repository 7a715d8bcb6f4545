import Dossier.Proofs.Session.Isolation
import Dossier.Proofs.Session.LifeCycle
import Dossier.Proofs.Session.Materialising
import Dossier.Proofs.Session.Outcomes
import Dossier.Proofs.Session.Strokes

/-!
What becomes of a secondary collector. It goes along its work until that ends or the budget is
spent, and its outcome says which of the two it was. What it had written by then stays, whatever the
outcome; what it tries later has no effect.
-/

namespace Dossier

/-- **What a status tells of a course** with this budget. It is never one of those that only a
primary collector can have, or nobody at work. -/
structure Course.Tells (k : Course) (budget : Span) (st : Status) : Prop where
  success : st = .success ↔ k.expired = false ∧ k.next = .done
  setupFailed : ∀ reason, st = .failed (.setupFailed reason) ↔ k.expired = false ∧
    .ready ∉ k.deeds ∧ ∃ causes, k.next = .fail causes ∧ chain causes = reason
  failed : ∀ reason, st = .failed (.failed reason) ↔ k.expired = false ∧
    .ready ∈ k.deeds ∧ ∃ causes, k.next = .fail causes ∧ chain causes = reason
  crashed : ∀ reason, st = .failed (.crashed reason) ↔ k.expired = false ∧
    ∃ message, k.next = .crash message ∧ .ofCrash message = CollectorFailure.crashed reason
  timeout : ∀ span, st = .failed (.timeout span) ↔ k.expired = true ∧ budget = span
  others : st ≠ .skipped ∧ st ≠ .failed .cancelled ∧ ∀ reason, st ≠ .failed (.persistence reason)

lemma any_isReady {ds : List Deed} : ds.any (·.isReady) = true ↔ .ready ∈ ds := by
  rw [List.any_eq_true]
  constructor
  · rintro ⟨d, hd, hready⟩
    cases d with
    | ready => exact hd
    | wrote | looked | waited => cases hready
  · exact fun h => ⟨_, h, rfl⟩

lemma Course.Ends.tells {k : Course} {budget : Span} {st : Status}
    (h : k.Ends budget false st) : k.Tells budget st := by
  obtain ⟨deeds, next, expired, later⟩ := k
  cases expired with
  | true =>
    obtain rfl : st = .failed (.timeout budget) := h
    constructor <;> simp
  | false =>
    have hending : next.ending? (deeds.any (·.isReady)) = some st := h
    cases next with
    | done =>
      obtain rfl := Option.some.inj hending
      constructor <;> simp
    | fail causes =>
      by_cases hready : .ready ∈ deeds
      · rw [any_isReady.mpr hready] at hending
        obtain rfl := Option.some.inj hending
        constructor <;> simp [hready]
      · rw [Bool.eq_false_iff.mpr fun hany => hready (any_isReady.mp hany)] at hending
        obtain rfl := Option.some.inj hending
        constructor <;> simp [hready]
    | crash message =>
      obtain rfl := Option.some.inj hending
      constructor <;> simp [CollectorFailure.ofCrash]
    | ready | put | putObservation | look | pause => cases hending

namespace Session

variable {settings : Settings} {archive : Option Archive} {es : List Enrolment} {s t : Session}
  {today : CivilDate} {ids : IdSupply} {ms : List (CivilDate × Move)} {r : Report} {i : ℕ}
  {c : Secondary} {n : String}

/-! ### The store before the secondary collectors come to work -/

lemma entries_opening (h : Knows settings archive es s) (today : CivilDate) (ids : IdSupply) :
    (s.opening today ids).store.entries = [] ∨ ∃ p is, .primary p ∈ es ∧
      (s.opening today ids).store.entries = (taken ids is).map fun e =>
        { e with attributes :=
          s.registry.admitted (runningNamespace p.space) today e.attributes } := by
  cases hp : s.primary with
  | none =>
    left
    simp [opening, hp, Store.ofRegistry]
  | some p =>
    have hmem := h.primary_mem.mp hp
    have hn := h.normal (e := .primary p) hmem
    cases hy : p.collect.yield (p.timeout.getD settings.collectorTimeout) archive with
    | error failure => exact .inl (opening_of_error h hp hy today ids).1
    | ok is => exact .inr ⟨p, is, hmem, (opening_of_ok h hp hn hy today ids).1⟩

lemma nodup_opening (h : Knows settings archive es s) (today : CivilDate) (ids : IdSupply) :
    (s.opening today ids).store.ids.Nodup := by
  rcases entries_opening h today ids with hnone | ⟨p, is, -, htaken⟩
  · simp [Store.ids, hnone]
  · rw [Store.ids, htaken, List.map_map]
    exact nodup_taken ids is

lemma Knows.runningNamespace_ne (h : Knows settings archive es s) {p : Primary}
    (hp : .primary p ∈ es) (hc : .secondary c ∈ es) :
    runningNamespace p.space ≠ runningNamespace c.space := by
  intro heq
  have hsame : normalNamespace p.space = normalNamespace c.space :=
    (h.normal (e := .primary p) hp).trans (heq ▸ (h.normal (e := .secondary c) hc).symm)
  cases List.inj_on_of_nodup_map h.nodup_namespaces hp hc hsame

/-- Nobody has written under the keys of a secondary collector before it comes to work. -/
lemma get?_opening (h : Knows settings archive es s) (hc : .secondary c ∈ es) (today : CivilDate)
    (ids : IdSupply) (id : Uuid) {k : Key} (hk : Within (runningNamespace c.space) k) :
    (s.opening today ids).store.get? id k = none := by
  rcases entries_opening h today ids with hnone | ⟨p, is, hp, htaken⟩
  · simp [Store.get?, Store.find?, hnone]
  · refine Option.eq_none_iff_forall_ne_some.mpr fun o ho => ?_
    obtain ⟨e, hfind, hget⟩ := Option.bind_eq_some_iff.mp ho
    obtain ⟨he, -⟩ := Store.mem_of_find? hfind
    rw [htaken] at he
    obtain ⟨e, -, rfl⟩ := List.mem_map.mp he
    have hmem := (SortedMap.mem_toList_iff _).mpr hget
    have hadmits := (List.mem_filter.mp hmem).2
    simp only [Registry.admits, Bool.and_eq_true, beq_iff_eq] at hadmits
    exact h.runningNamespace_ne hp hc (hadmits.1.symm.trans hk)

/-! ### The report of a course -/

/-- **What a report tells of a secondary collector** that took the course `k` along its `work`,
under the namespace `n` and with this budget. Its status says how the course ended. Whatever the
status, the tallies, and the attributes of the individuals `is` under the namespace, are those of
the writes that were accepted on the course; what was tried later was refused, and after its own
end the collector tried nothing more. -/
structure Fares (work : Activity) (n : String) (budget : Span) (k : Course) (o : Outcome)
    (is : List Individual) : Prop where
  path : work.Leads k.deeds k.next
  status : k.Tells budget o.status
  space : o.space = n
  written : o.written = k.deeds.countP (·.isAccepted)
  rejected : o.rejected = k.deeds.filterMap Deed.error?
  attributes : ∀ j ∈ is, ∃ id, j.id = some id ∧ ∀ key, Within n key →
    j.attributes.get? key = lastWrite? (k.deeds.filterMap (Deed.write? n)) id key
  refused : ∀ call answer, .wrote call answer ∈ k.later → answer = .error (.writerClosed n)
  ended : k.expired = false → k.later = []

lemma working_starting (hn : IsNormal (runningNamespace c.space)) (s : Session) (store : Store) :
    (s.starting c store).Working (runningNamespace c.space) (c.work store.individuals) :=
  ⟨rfl, rfl, hn.lower_eq, rfl⟩

lemma budget_starting (h : Knows settings archive es s) (c : Secondary) (store : Store) :
    (s.starting c store).budget = c.timeout.getD settings.collectorTimeout := by
  rw [← h.settings]
  rfl

/-- What an individual holds in the end was written on the course, as nobody else writes there. -/
lemma get?_of_leaves (h : Knows settings archive es s) (hc : .secondary c ∈ es) {u : Task}
    {ds : List Deed}
    (hleaves : Task.Leaves (runningNamespace c.space) (s.starting c (s.opening today ids).store)
      (s.opening today ids).store ds u
      ((s.crew (s.opening today ids).store).schedule ms).store)
    {e : Entry} (he : e ∈ ((s.crew (s.opening today ids).store).schedule ms).store.entries)
    {key : Key} (hkey : Within (runningNamespace c.space) key) :
    e.attributes.get? key =
      lastWrite? (ds.filterMap (Deed.write? (runningNamespace c.space))) e.id key := by
  have hids : ((s.crew (s.opening today ids).store).schedule ms).store.ids =
      (s.opening today ids).store.ids := Crew.store_schedule ids_perform _ ms
  have hfind := Store.find?_of_mem (hids ▸ nodup_opening h today ids) he
  have hheld := hleaves.held e.id key hkey
  rw [get?_opening h hc today ids e.id hkey, Option.or_none, Store.get?, hfind] at hheld
  exact hheld

lemma exists_fares (h : Knows settings archive es s) (hi : s.secondaries[i]? = some c)
    (hr : s.MayReport today ids ms r) (hsome : r.individuals ≠ []) :
    ∃ o k, r.secondaries[i]? = some o ∧
      (s.crew (s.opening today ids).store).Takes i ms k ∧
      Fares (c.work (s.opening today ids).store.individuals) (runningNamespace c.space)
        (c.timeout.getD settings.collectorTimeout) k o r.individuals := by
  have hc := h.mem_secondaries.mp (List.mem_of_getElem? hi)
  have hn := isNormal_of_normalNamespace (h.normal (e := .secondary c) hc)
  cases hr with
  | skipped hempty =>
    rw [Store.isEmpty, List.isEmpty_iff] at hempty
    simp [Report.individuals, Store.individuals, hempty] at hsome
  | @enriched ms outcomes _ hsettles =>
    set store := (s.opening today ids).store
    have htask : (s.crew store).tasks[i]? = some (s.starting c store) := by
      simp only [crew, List.getElem?_map, hi]
      rfl
    have hworks := s.worksIn_schedule store ms
    obtain ⟨hlt₀, rfl⟩ := List.getElem?_eq_some_iff.mp hi
    have hlt := hworks.length_eq ▸ hlt₀
    have hlt' := hsettles.length_eq ▸ hlt
    have hsettle := hsettles.get hlt hlt'
    obtain ⟨k, hk⟩ := Crew.exists_course (crew_apart h store) htask
      (working_starting hn s store) hn (List.getElem?_eq_getElem hlt) hsettle.status
    refine ⟨outcomes[i], k, List.getElem?_eq_getElem hlt', hk.takes, hk.path,
      budget_starting h _ _ ▸ hk.ends.tells, ?_, ?_, ?_, fun j hj => ?_, hk.refused, hk.ended⟩
    · exact (hsettle.space.trans (hworks.get hlt₀ hlt).space).trans hn.lower_eq
    · exact hsettle.written.trans (hk.leaves.written.trans (Nat.zero_add _))
    · exact hsettle.rejected.trans hk.leaves.rejected
    · obtain ⟨e, he, rfl⟩ := List.mem_map.mp hj
      exact ⟨e.id, rfl, fun key hkey => get?_of_leaves h hc hk.leaves he hkey⟩

/-- It writes, holds its thread for two minutes, and then tries to write again. -/
def slow : Secondary :=
  ⟨"slow", [⟨"first", .firstName⟩], none, fun _ => .ready
    (.putObservation annId ⟨"slow", "first"⟩ ⟨.text "Annie", .certain⟩ fun _ => .pause 120000 true
      (.putObservation annId ⟨"slow", "first"⟩ ⟨.text "Nan", .certain⟩ fun _ => .done))⟩

/-- It holds its thread for two minutes and then panics. -/
def shaky : Secondary :=
  ⟨"slow", [⟨"first", .firstName⟩], none, fun _ => .ready
    (.pause 120000 true (.crash (some "late")))⟩

end Session

end Dossier
