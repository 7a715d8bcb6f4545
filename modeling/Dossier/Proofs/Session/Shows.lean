import Mathlib
import Dossier.Proofs.Registry.Content
import Dossier.Proofs.Requirements
import Dossier.Proofs.Roster
import Dossier.Proofs.Session.FactFiles
import Dossier.Proofs.Session.Materialising

/-!
Loading a show and querying a show. A roster may leave out those who do not attend an event before
anything else is done; or everybody is loaded, and the query leaves them out in the end. Where the
roster tells its people apart, both ways select the same individuals, with the same attributes.
-/

namespace Dossier

lemma find?_filter_of_apart {α : Type} {q : α → Bool} {xs : List α}
    (h : xs.Pairwise fun x y => ¬ (q x = true ∧ q y = true)) (p : α → Bool) :
    (xs.filter p).find? q = (xs.find? q).filter p := by
  induction xs with
  | nil => rfl
  | cons x xs ih =>
    obtain ⟨hx, hxs⟩ := List.pairwise_cons.mp h
    by_cases hq : q x = true
    · -- nobody behind it is meant, too
      have hnone : (xs.filter p).find? q = none :=
        List.find?_eq_none.mpr fun y hy hqy => hx y (List.mem_filter.mp hy).1 ⟨hq, hqy⟩
      by_cases hp : p x = true <;> simp [hp, hq, hnone, Option.filter_some]
    · by_cases hp : p x = true <;> simp [hp, hq, ih hxs]

lemma filterMap_filter_of {α β : Type} {f : α → Option β} {p : β → Bool} {q : α → Bool}
    (h : ∀ a b, f a = some b → p b = q a) (xs : List α) :
    (xs.filter q).filterMap f = (xs.filterMap f).filter p := by
  rw [List.filter_filterMap, List.filterMap_filter]
  refine List.filterMap_congr fun a _ => ?_
  cases hf : f a with
  | none => simp
  | some b => simp [Option.filter_some, h a b hf]

/-! ### Queries on a narrowed store -/

namespace Store.Narrows

variable {p : Person → Bool} {st full : Store}

lemma individuals (h : Narrows p st full) :
    st.individuals = full.individuals.filter fun i => p i.toPerson := by
  rw [Store.individuals, Store.individuals, h.entries, List.filter_map]
  rfl

lemma select {event : String} (h : Narrows (·.attends (some event)) st full) {q : Requirements}
    (hq : q.event = none) :
    q.select st.registry st.individuals =
      ({ q with event := some event } : Requirements).select full.registry full.individuals := by
  have hmet : q.isMetBy st.registry =
      ({ q with event := some event } : Requirements).isMetBy full.registry := by
    funext i
    exact q.isMetBy_congr h.registry i
  have hcandidates : q.candidates st.individuals =
      ({ q with event := some event } : Requirements).candidates full.individuals := by
    simp only [Requirements.candidates, hq, Person.attends, List.filter_true, h.individuals]
  simp only [Requirements.select, hmet, hcandidates]
  rfl

end Store.Narrows

/-- The entry as which a line is taken in, if it has an identifier. -/
def Roster.admission? (r : Registry) (today : CivilDate) (l : Line) : Option Entry :=
  (Session.arrival? (individual l)).map fun e =>
    { e with attributes := r.admitted space today e.attributes }

lemma Roster.admission?_eq_some {r : Registry} {today : CivilDate} {l : Line} {e : Entry}
    (h : admission? r today l = some e) : l.1 = some e.id ∧ e.person = tidy l.2 := by
  obtain ⟨e', he', rfl⟩ := Option.map_eq_some_iff.mp h
  obtain ⟨id, hid, rfl⟩ := Option.map_eq_some_iff.mp he'
  exact ⟨hid, rfl⟩

namespace Session

lemma subjectsAgree {p : Person → Bool} {st full : Store} (h : Store.Narrows p st full)
    (hids : full.ids.Nodup) (hapart : full.entries.Pairwise fun e f => ∀ a,
      e.person.address? = some a → f.person.address? ≠ some a) :
    SubjectsAgree st (·.subject? st.individuals) (·.subject? full.individuals) := by
  intro f
  simp only [Fact.subject?]
  cases f.id with
  | some id => exact .inl rfl
  | none =>
    cases f.email with
    | none => exact .inl rfl
    | some email =>
      simp only [Option.bind_some]
      set q : Individual → Bool := fun i =>
        i.id.isSome && i.email.map Fact.addressForm == some (Fact.addressForm email) with hq
      have hmeant : ∀ {i}, q i = true → i.toPerson.address? = some (Fact.addressForm email) := by
        intro i hi
        simp only [hq, Bool.and_eq_true, beq_iff_eq] at hi
        exact hi.2
      have hunique : full.individuals.reverse.Pairwise fun i j => ¬ (q i = true ∧ q j = true) := by
        rw [List.pairwise_reverse, Store.individuals, List.pairwise_map]
        exact hapart.imp fun hef hboth => hef _ (hmeant hboth.2) (hmeant hboth.1)
      rw [h.individuals, ← List.filter_reverse, find?_filter_of_apart hunique]
      cases hi : full.individuals.reverse.find? q with
      | none => exact .inl rfl
      | some i =>
        by_cases hp : p i.toPerson = true
        · exact .inl (by rw [Option.filter_some, if_pos hp])
        · refine .inr ⟨by rw [Option.filter_some, if_neg hp]; rfl, fun id hid hmem => hp ?_⟩
          -- the identifier is that of somebody who is there, and of nobody else
          have hmem' := List.mem_reverse.mp (List.mem_of_find?_eq_some hi)
          obtain ⟨e, he, rfl⟩ := List.mem_map.mp hmem'
          obtain ⟨e', he', hid'⟩ := List.mem_map.mp hmem
          rw [h.entries, List.mem_filter] at he'
          have hsame : e'.id = e.id := hid'.trans (Option.some.inj hid).symm
          rw [← List.inj_on_of_nodup_map hids he'.1 he hsame]
          exact he'.2

/-! ### Rosters that are loaded -/

/-- The collectors of a session: a roster and files of facts, in this order. -/
structure Loads (roster : Roster) (files : List FactFile) (read : ReadFile)
    (es : List Enrolment) : Prop where
  primary : es.filterMap Enrolment.primary? = [roster.primary read]
  secondaries : es.filterMap Enrolment.secondary? = files.map (·.secondary read)

/-- What a registry gets to see of them depends neither on the event nor on when the roster is
registered. -/
lemma Loads.mem_calls {roster : Roster} {files : List FactFile} {read : ReadFile}
    {es : List Enrolment} (h : Loads roster files read es) (c : String × List Declaration) :
    c ∈ es.map Enrolment.call ↔
      c = (Roster.space, Roster.declarations) ∨ ∃ f ∈ files, c = (f.space, f.declarations) := by
  have hprimary : ∀ p, .primary p ∈ es ↔ p = roster.primary read := by
    intro p
    rw [← List.mem_singleton, ← h.primary, List.mem_filterMap]
    constructor
    · exact fun hp => ⟨_, hp, rfl⟩
    · rintro ⟨e, he, hp⟩
      cases e <;> cases hp
      exact he
  have hsecondary : ∀ d, .secondary d ∈ es ↔ ∃ f ∈ files, f.secondary read = d := by
    intro d
    rw [← List.mem_map, ← h.secondaries, List.mem_filterMap]
    constructor
    · exact fun hd => ⟨_, hd, rfl⟩
    · rintro ⟨e, he, hd⟩
      cases e <;> cases hd
      exact he
  constructor
  · intro hc
    obtain ⟨e, he, rfl⟩ := List.mem_map.mp hc
    cases e with
    | primary p => exact .inl (congrArg (fun p => (p.space, p.declarations)) ((hprimary p).mp he))
    | secondary d =>
      obtain ⟨f, hf, rfl⟩ := (hsecondary d).mp he
      exact .inr ⟨f, hf, rfl⟩
  · rintro (rfl | ⟨f, hf, rfl⟩)
    · exact List.mem_map_of_mem ((hprimary _).mpr rfl)
    · exact List.mem_map_of_mem ((hsecondary _).mpr ⟨f, hf, rfl⟩)

variable {settings settings' : Settings} {archive archive' : Option Archive}
  {es es' : List Enrolment} {s s' : Session} {today : CivilDate} {ids ids' : IdSupply}
  {ms ms' : List Move} {r r' : Report} {roster : Roster} {files : List FactFile} {read : ReadFile}

lemma Knows.primary_of_loads (h : Knows settings archive es s) (hl : Loads roster files read es) :
    s.primary = some (roster.primary read) := by
  have hlist := h.primary.trans hl.primary
  cases hp : s.primary with
  | none => simp [hp] at hlist
  | some p => simpa [hp] using hlist

/-- How the collection of a roster ends: the time is up, or the file cannot be read and has no
lines, or those who attend come in. -/
lemma yield_roster (hknown : ∀ l ∈ roster.lines read, l.1.isSome = true) (budget : Span)
    (archive : Option Archive) :
    (roster.collect read).yield budget archive = .error (.timeout budget) ∨
      (roster.lines read = [] ∧ ∃ failure, (roster.collect read).yield budget archive =
        .error failure) ∨
      (roster.collect read).yield budget archive =
        .ok (((roster.lines read).filter fun l => l.2.attends roster.event).map
          Roster.individual) := by
  by_cases hbudget : budget.toNanos ≤ (roster.collect read).total
  · exact .inl (if_pos hbudget)
  · rw [Collection.yield, if_neg hbudget]
    rcases roster.collect_cases read with hcollect | ⟨hnone, causes, hcollect⟩
    · -- nobody is new, so the archive has nothing to store
      have hnew : newcomers (((roster.lines read).filter fun l =>
          l.2.attends roster.event).map Roster.individual) = 0 := by
        rw [newcomers, List.countP_eq_zero]
        intro i hi
        obtain ⟨l, hl, rfl⟩ := List.mem_map.mp hi
        have hid : (Roster.individual l).id.isSome = true := hknown l (List.mem_filter.mp hl).1
        simpa using Option.isSome_iff_ne_none.mp hid
      have harchive : archive.bind (·.refusal? 0) = none := by
        cases archive <;> simp [Archive.refusal?]
      refine .inr (.inr ?_)
      simp only [hcollect, Collection.result, hnew, harchive]
    · rw [hcollect]
      exact .inr (.inl ⟨hnone, _, rfl⟩)

/-- **How a session over a roster opens**, if its collector is in time: with an entry for each line
who attends. -/
lemma opening_roster (h : Knows settings archive es s) (hl : Loads roster files read es)
    (hd : Roster.Distinct (roster.lines read))
    (hin : ∀ o ∈ (s.opening today ids).outcome, o.InTime) :
    (s.opening today ids).store.entries =
      ((roster.lines read).filter fun l => l.2.attends roster.event).filterMap
        (Roster.admission? s.registry today) := by
  have hp := h.primary_of_loads hl
  have hn : normalNamespace (roster.primary read).space = .ok Roster.space := Roster.normal_space
  rcases yield_roster hd.known settings.collectorTimeout archive with
    htimeout | ⟨hnone, failure, hfailure⟩ | his
  · obtain ⟨-, houtcome⟩ := opening_of_error h hp htimeout today ids
    exact absurd rfl (hin _ houtcome settings.collectorTimeout)
  · rw [(opening_of_error h hp hfailure today ids).1, hnone]
    rfl
  · obtain ⟨hentries, -⟩ := opening_of_ok h hp hn his today ids
    have hfilter := hd.filter fun l => l.2.attends roster.event
    have hknown : ∀ i ∈ ((roster.lines read).filter fun l => l.2.attends roster.event).map
        Roster.individual, i.id.isSome = true := by
      intro i hi
      obtain ⟨l, hl, rfl⟩ := List.mem_map.mp hi
      exact hfilter.known l hl
    have hapart : ((((roster.lines read).filter fun l => l.2.attends roster.event).map
        Roster.individual).map (·.id)).Nodup := by
      rw [List.map_map]
      exact hfilter.ids
    rw [hentries, taken_of_known hknown hapart, List.map_filterMap, List.filterMap_map]
    rfl

lemma opening_narrows {path event : String} (h : Knows settings archive es s)
    (h' : Knows settings' archive' es' s') (hl : Loads ⟨path, some event⟩ files read es)
    (hl' : Loads ⟨path, none⟩ files read es')
    (hd : Roster.Distinct (Roster.lines ⟨path, none⟩ read))
    (hin : ∀ o ∈ (s.opening today ids).outcome, o.InTime)
    (hin' : ∀ o ∈ (s'.opening today ids').outcome, o.InTime) :
    Store.Narrows (·.attends (some event)) (s.opening today ids).store
      (s'.opening today ids').store := by
  have hresolve : ∀ k, s.registry.resolve k = s'.registry.resolve k :=
    h.registry.resolve_congr h'.registry fun c => by rw [hl.mem_calls, hl'.mem_calls]
  have hentry : Roster.admission? s.registry today = Roster.admission? s'.registry today := by
    have hadmits :
        s.registry.admits Roster.space today = s'.registry.admits Roster.space today := by
      funext k o
      simp only [Registry.admits, hresolve]
    funext l
    simp only [Roster.admission?, Registry.admitted, hadmits]
  refine ⟨fun k => by rw [registry_opening, registry_opening, hresolve], ?_⟩
  have hall : (Roster.lines ⟨path, none⟩ read).filter (fun l => l.2.attends none) =
      Roster.lines ⟨path, none⟩ read := List.filter_true _
  rw [opening_roster h hl hd hin, opening_roster h' hl' hd hin', hall, hentry]
  refine filterMap_filter_of (fun l e he => ?_) _
  rw [(Roster.admission?_eq_some he).2]
  rfl

lemma opening_apart (h : Knows settings archive es s) (hl : Loads roster files read es)
    (hd : Roster.Distinct (roster.lines read))
    (hin : ∀ o ∈ (s.opening today ids).outcome, o.InTime) :
    (s.opening today ids).store.ids.Nodup ∧
      (s.opening today ids).store.entries.Pairwise fun e f => ∀ a,
        e.person.address? = some a → f.person.address? ≠ some a := by
  have hfilter := hd.filter fun l => l.2.attends roster.event
  rw [Store.ids, List.nodup_iff_pairwise_ne, List.pairwise_map, opening_roster h hl hd hin,
    List.pairwise_filterMap, List.pairwise_filterMap]
  constructor
  · refine (List.pairwise_map.mp hfilter.ids).imp fun hlm e he f hf hid => hlm ?_
    rw [(Roster.admission?_eq_some he).1, (Roster.admission?_eq_some hf).1, hid]
  · refine hfilter.tidied.imp fun hlm e he f hf a => ?_
    rw [(Roster.admission?_eq_some he).2, (Roster.admission?_eq_some hf).2]
    exact hlm a

/-- **Loading a show and querying a show agree.** Take a session whose roster is restricted to an
event and one whose roster is not, both with the same files of facts, whatever is in them; let the
lines of the roster have identifiers and emails of their own, and let every collector be in time, in
whatever order they come to act. Then the first session, for requirements without an event, and the
second, for the same requirements with the event, select the same individuals, or find the same
number of candidates of whom none meets them. -/
theorem select_show {path event : String} (h : Configured settings archive es s)
    (h' : Configured settings' archive' es' s') (hl : Loads ⟨path, some event⟩ files read es)
    (hl' : Loads ⟨path, none⟩ files read es')
    (hd : Roster.Distinct (Roster.lines ⟨path, none⟩ read))
    (hr : s.Reports today ids (onDay today ms) r) (hr' : s'.Reports today ids' (onDay today ms') r')
    (hin : ∀ o ∈ r.outcomes, o.InTime) (hin' : ∀ o ∈ r'.outcomes, o.InTime) {q : Requirements}
    (hq : q.event = none) : r.select q = r'.select { q with event := some event } := by
  obtain ⟨t, hseal, hr⟩ := hr
  obtain ⟨t', hseal', hr'⟩ := hr'
  have hknows := (h.sealRegistry hseal).knows
  have hknows' := (h'.sealRegistry hseal').knows
  simp only [Report.outcomes, List.mem_append, Option.mem_toList, hr.primary_eq, hr'.primary_eq]
    at hin hin'
  have hprimary : ∀ o ∈ (t.opening today ids).outcome, o.InTime := fun o ho => hin o (.inl ho)
  have hprimary' : ∀ o ∈ (t'.opening today ids').outcome, o.InTime := fun o ho => hin' o (.inl ho)
  have hopening := opening_narrows hknows hknows' hl hl' hd hprimary hprimary'
  obtain ⟨hids, haddresses⟩ := opening_apart hknows' hl' hd hprimary'
  have hsubjects := subjectsAgree hopening hids haddresses
  have hnarrows := report_narrows hknows hknows' (hknows.secondaries.trans hl.secondaries)
    (hknows'.secondaries.trans hl'.secondaries) hopening hsubjects hr hr'
    (fun o ho => hin o (.inr ho)) (fun o ho => hin' o (.inr ho))
  exact hnarrows.select hq

/-! ### A roster of two events -/

def ann : Roster.Line :=
  (some ⟨List.replicate 32 ⟨6, by decide⟩, rfl⟩, ⟨"Ann", "Lee", some "A@x", some "gala", none⟩)

def bob : Roster.Line :=
  (some ⟨List.replicate 32 ⟨7, by decide⟩, rfl⟩, ⟨"Bob", "Roy", some "b@x ", some "ball", none⟩)

def attendees (event : Option String) : Roster := ⟨"attendees.json", event⟩

def towns : FactFile := ⟨"towns", "towns.json", [⟨"town", .hometown⟩], none⟩

def townFacts : List Fact :=
  [⟨none, some "a@X", "town", .text "Oslo", 1⟩, ⟨none, some "b@x", "town", .text "Rome", 1⟩]

def attendeeText : String :=
  "[[\"66666666666666666666666666666666\", \"Ann\", \"Lee\", \"A@x\", \"gala\", null]," ++
  " [\"77777777777777777777777777777777\", \"Bob\", \"Roy\", \"b@x \", \"ball\", null]]"

def townText : String :=
  "[[null, \"a@X\", \"town\", [\"text\", \"Oslo\"], 1]," ++
  " [null, \"b@x\", \"town\", [\"text\", \"Rome\"], 1]]"

def desk : ReadFile
  | "attendees.json" => .ok attendeeText
  | "towns.json" => .ok townText
  | _ => .error .notFound

def someTown : Requirements :=
  ⟨none, (∅ : SortedMap Category Reliability).insert .hometown .certain⟩

lemma lines_attendees (event : Option String) : (attendees event).lines desk = [ann, bob] := by
  have hlines : (attendees none).lines desk = [ann, bob] := by decide +kernel
  exact hlines

lemma primary_attendees (event : Option String) : (attendees event).primary desk =
    ⟨Roster.space, Roster.declarations, none,
      .individuals (([ann, bob].filter fun l => l.2.attends event).map Roster.individual)⟩ := by
  rcases (attendees event).collect_cases desk with hcollect | ⟨hnone, -⟩
  · rw [lines_attendees] at hcollect
    exact congrArg (Primary.mk _ _ _) hcollect
  · rw [lines_attendees] at hnone
    cases hnone

set_option maxRecDepth 4000 in
lemma secondary_towns : towns.secondary desk = ⟨"towns", [⟨"town", .hometown⟩], none, fun is =>
    .ready (.putFacts (townFacts.filterMap fun f => (f.subject? is).map fun id => (id, f)))⟩ := by
  rfl

/-- Of the two who have a town, Ann attends the gala, whether Bob was loaded or not. -/
theorem select_gala : ∃ (s s' : Session) (r r' : Report),
    s.Reports ⟨2024, 1, 1, by decide⟩ (.fresh fun _ => annId)
      (onDay ⟨2024, 1, 1, by decide⟩ [.act 0, .act 0, .act 0]) r ∧
    s'.Reports ⟨2024, 1, 1, by decide⟩ (.fresh fun _ => annId)
      (onDay ⟨2024, 1, 1, by decide⟩ [.act 0, .act 0, .act 0, .act 0]) r' ∧
    r'.individuals.length = 2 ∧
    (r.select someTown).toOption.map (·.map (·.firstName)) = some ["Ann"] ∧
    r.select someTown = r'.select { someTown with event := some "gala" } := by
  have hgala : ∃ s, Configured .default none
      [.primary ((attendees (some "gala")).primary desk), .secondary (towns.secondary desk)] s ∧
      ∃ r : Report, s.Reports ⟨2024, 1, 1, by decide⟩ (.fresh fun _ => annId)
        (onDay ⟨2024, 1, 1, by decide⟩ [.act 0, .act 0, .act 0]) r ∧
        r.outcomes.map (·.status) = List.replicate 2 .success ∧
        (r.select someTown).toOption.map (·.map (·.firstName)) = some ["Ann"] := by
    rw [primary_attendees, secondary_towns]
    exact ⟨_, .enrol (.enrol .fresh rfl) rfl, ⟨_, _, _⟩,
      ⟨_, rfl, .enriched _ rfl (.cons (b := ⟨_, _, _, _, 0⟩) ⟨rfl, rfl, rfl, rfl⟩ .nil)⟩, rfl, rfl⟩
  have hall : ∃ s, Configured .default none
      [.secondary (towns.secondary desk), .primary ((attendees none).primary desk)] s ∧
      ∃ r : Report, s.Reports ⟨2024, 1, 1, by decide⟩ (.fresh fun _ => annId)
        (onDay ⟨2024, 1, 1, by decide⟩ [.act 0, .act 0, .act 0, .act 0]) r ∧
        r.outcomes.map (·.status) = List.replicate 2 .success ∧ r.individuals.length = 2 := by
    rw [primary_attendees, secondary_towns]
    exact ⟨_, .enrol (.enrol .fresh rfl) rfl, ⟨_, _, _⟩,
      ⟨_, rfl, .enriched _ rfl (.cons (b := ⟨_, _, _, _, 0⟩) ⟨rfl, rfl, rfl, rfl⟩ .nil)⟩, rfl, rfl⟩
  have hd : Roster.Distinct ((attendees none).lines desk) := by
    rw [lines_attendees]
    exact ⟨by decide, by decide, by decide +kernel⟩
  obtain ⟨s, hs, r, hr, hstatus, hann⟩ := hgala
  obtain ⟨s', hs', r', hr', hstatus', htwo⟩ := hall
  exact ⟨s, s', r, r', hr, hr', htwo, hann,
    select_show hs hs' (⟨rfl, rfl⟩ : Loads (attendees (some "gala")) [towns] desk
      [.primary _, .secondary _]) (⟨rfl, rfl⟩ : Loads (attendees none) [towns] desk
      [.secondary _, .primary _]) hd hr hr'
      (Outcome.inTime_of_success hstatus) (Outcome.inTime_of_success hstatus') rfl⟩

end Session

end Dossier
