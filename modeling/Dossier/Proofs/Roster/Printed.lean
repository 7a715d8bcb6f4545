import Dossier.Proofs.Coding
import Dossier.Proofs.Json.Indented
import Dossier.Proofs.Program.Find
import Dossier.Proofs.Session.Fates
import Dossier.Proofs.Session.Guests

/-!
Printed individuals as a roster. Whoever came out of a session over a roster is somebody whose names
and email are tidy, and whose facts under the roster's namespace are those that such a line states.
So a roster that lists the individuals of a report brings the same ones in again: nobody is dropped,
and of the facts only those emails are refused that were refused before.
-/

namespace Dossier

/-- Whether a value was refused because it is none of its category. -/
def StoreError.isMismatch : StoreError → Bool
  | typeMismatch .. => true
  | _ => false

/-! ### Lists of individuals -/

namespace Individual

def line (i : Individual) : Roster.Line := (i.id, i.toPerson)

/-- The texts as which individuals are listed, with the members of their records in their order or
in that of their names. -/
inductive Lists (is : List Individual) (text : String) : Prop where
  | plain (h : (Data.array (is.map data)).Prints text)
  | sorted (h : (Data.array (is.map data)).sorted.Prints text)

end Individual

namespace Roster

lemma exists_members (i : Individual) : ∃ idData : Data,
    i.data = .object [("id", idData), ("first_name", .string i.firstName),
      ("last_name", .string i.lastName), ("email", .optional i.email), ("show", .optional i.event),
      ("seat", .optional i.seat), ("attributes", attributesData i.attributes)] ∧
    Json.optional? Uuid.ofJson? (some idData.tree) = some i.id ∧ idData.sorted = idData := by
  obtain ⟨person, id, attributes⟩ := i
  cases id with
  | none => exact ⟨.null, rfl, rfl, rfl⟩
  | some id => exact ⟨id.data, rfl, congrArg (Option.map some) id.ofJson?_data, rfl⟩

lemma ofFields?_data (i : Individual) :
    Person.ofFields? (Person.fieldNames.map fun n => (i.data.member? n).map Data.tree) =
      some i.line := by
  obtain ⟨idData, hdata, hid, -⟩ := exists_members i
  have htext : ∀ s, (Data.string s).tree.text? = some s := fun s => rfl
  simp [hdata, Person.fieldNames, Data.member?, Person.ofFields?, hid, Json.required?, htext,
    Json.optional?_text, Individual.line]

/-- A record with these fields is a line, in whatever order and whatever else there is. -/
lemma lineOfJson?_of_members {i : Individual} {ms : List (String × Data)}
    (hn : (ms.map (·.1)).Nodup)
    (h : ∀ n ∈ Person.fieldNames, (Data.object ms).member? n = i.data.member? n) :
    lineOfJson? (Data.object ms).tree = some i.line := by
  have hrecord := Json.record?_object Person.fieldNames hn 3
  have hfields : Person.fieldNames.map (fun n => ((Data.object ms).member? n).map Data.tree) =
      Person.fieldNames.map fun n => (i.data.member? n).map Data.tree :=
    List.map_congr_left fun n hmem => by rw [h n hmem]
  have hrecord : (Data.object ms).tree.record? Person.fieldNames 3 =
      some (Person.fieldNames.map fun n => (i.data.member? n).map Data.tree) :=
    hrecord.trans (congrArg some hfields)
  rw [lineOfJson?, hrecord, Option.bind_some, ofFields?_data]

lemma lineOfJson?_data (i : Individual) : lineOfJson? i.data.tree = some i.line :=
  lineOfJson?_of_members (by simp) fun _ _ => rfl

lemma sorted_member? (i : Individual) {n : String} (hn : n ∈ Person.fieldNames) :
    (i.data.member? n).map Data.sorted = i.data.member? n := by
  obtain ⟨idData, hdata, -, hid⟩ := exists_members i
  have hoptional : ∀ s, (Data.optional s).sorted = Data.optional s := fun s => by cases s <;> rfl
  simp only [Person.fieldNames, List.mem_cons, List.not_mem_nil, or_false] at hn
  rcases hn with rfl | rfl | rfl | rfl | rfl | rfl <;>
    simp [hdata, Data.member?, hid, hoptional, Data.sorted]

lemma lineOfJson?_sorted (i : Individual) : lineOfJson? i.data.sorted.tree = some i.line := by
  obtain ⟨ms, hms⟩ : ∃ ms, i.data = .object ms := ⟨_, rfl⟩
  have hn : (ms.map (·.1)).Nodup := by
    obtain rfl := Data.object.inj hms
    simp
  rw [hms, Data.sorted]
  refine lineOfJson?_of_members ((Data.names_sortedMembers ms).nodup_iff.mpr hn) fun n hmem => ?_
  have hmember := Data.member?_sorted hn n
  rw [← hms, sorted_member? i hmem, hms] at hmember
  exact hmember.trans (congrArg (Data.member? n) hms.symm)

/-- **The lines of a list of individuals** say who they are. -/
theorem linesOfText?_of_lists {is : List Individual} {text : String}
    (h : Individual.Lists is text) : linesOfText? text = some (is.map Individual.line) := by
  have hlines {f : Individual → Json} (hf : ∀ i, lineOfJson? (f i) = some i.line) :
      (Json.array (is.map f)).list? lineOfJson? = some (is.map Individual.line) := by
    have hread : lineOfJson? ∘ f = fun i => pure i.line := funext hf
    rw [Json.list?, List.mapM_map, hread, List.mapM_pure]
    rfl
  cases h with
  | plain h =>
    rw [linesOfText?, h.ofText?, Option.bind_some, Data.tree, Data.itemTrees_eq_map, List.map_map]
    exact hlines lineOfJson?_data
  | sorted h =>
    rw [linesOfText?, h.ofText?, Option.bind_some, Data.sorted, Data.tree, Data.sortedItems_eq,
      Data.itemTrees_eq_map, List.map_map, List.map_map]
    exact hlines lineOfJson?_sorted

/-! ### Guests and what is stated of them -/

lemma tidy_tidy (p : Person) : tidy (tidy p) = tidy p := by
  obtain ⟨firstName, lastName, email, event, seat⟩ := p
  have hemail : (((email.map Text.trim).filter fun e => !e.isEmpty).map Text.trim).filter
      (fun e => !e.isEmpty) = (email.map Text.trim).filter fun e => !e.isEmpty := by
    cases email with
    | none => rfl
    | some e =>
      by_cases he : (Text.trim e).isEmpty = true <;>
        simp [Option.filter_some, he, Text.trim_trim]
  simp only [tidy, Text.trim_trim, hemail]

/-- A guest as taken in: names and email are tidy, and known is what a roster states of them. -/
structure IsGuest (e : Entry) : Prop where
  tidy : tidy e.person = e.person
  stated : e.attributes = .ofList (facts e.person)

lemma IsGuest.individual_eq {e : Entry} (h : IsGuest e) :
    individual (some e.id, e.person) = e.individual := by
  simp only [individual, h.tidy, Entry.individual, h.stated]

lemma isGuest_of_taken {ids : IdSupply} {ls : List Line} :
    ∀ e ∈ Session.taken ids (ls.map individual), IsGuest e := by
  intro e he
  obtain ⟨q, hq, rfl⟩ := List.mem_map.mp ((firsts_sublist _ [] _).mem he)
  have harrives := Session.arrives ids _ q hq
  have hmem := List.mem_map_of_mem (f := Prod.fst) hq
  rw [Session.fst_arrivals] at hmem
  obtain ⟨l, -, hl⟩ := List.mem_map.mp hmem
  have hperson : q.2.person = tidy l.2 :=
    harrives.person.trans (congrArg Individual.toPerson hl.symm)
  refine ⟨by rw [hperson, tidy_tidy], ?_⟩
  rw [harrives.attributes, ← hl, hperson]
  simp only [individual]

lemma States.day {today : CivilDate} {p : Person} {k : Key} {v : String} (h : States today p k v)
    (day : CivilDate) : States day p k v := by
  cases h with
  | firstName h => exact .firstName h
  | lastName h => exact .lastName h
  | email he h => exact .email he h

section Registered

variable {r r' : Registry} (hr : Declared r) {e : Entry} (he : IsGuest e) (today : CivilDate)
include hr he

lemma refusals_guest :
    r.refusals space today e.attributes = (misaddressed? today e.person).toList := by
  have hrefusals := refusals_individual hr today (some e.id, e.person)
  rwa [he.individual_eq, he.tidy] at hrefusals

/-- What is admitted of a guest depends neither on the session nor on its day. -/
lemma admitted_guest (hr' : Declared r') (day : CivilDate) :
    r.admitted space today e.attributes = r'.admitted space day e.attributes := by
  have hadmitted {r : Registry} (hr : Declared r) (day : CivilDate) (k : Key) (o : Observation) :
      (r.admitted space day e.attributes).get? k = some o ↔
        ∃ v, States day e.person k v ∧ o = ⟨.text v, .certain⟩ := by
    have hget := get?_admitted hr day (some e.id, e.person) k o
    rwa [he.individual_eq, he.tidy] at hget
  refine SortedMap.ext_get? fun k => Option.ext fun o => ?_
  rw [hadmitted hr, hadmitted hr']
  exact exists_congr fun v => and_congr_left' ⟨fun h => h.day day, fun h => h.day today⟩

end Registered

/-! ### Sessions over rosters -/

open Session (Knows Configured taken dropped newcomers)

variable {settings settings' : Settings} {archive archive' : Option Archive}
  {es es' : List Enrolment} {s s' : Session} {p : Primary} {today day : CivilDate}
  {ids ids' : IdSupply} {roster : Roster} {read : ReadFile} {gs : List Entry} {o o' : Outcome}
  {ms : List (CivilDate × Move)} {r r' : Report} {text : String}

lemma normal_primary (hspace : p.space = space) : normalNamespace p.space = .ok space := by
  rw [hspace]
  exact normal_space

lemma declared_of_knows (h : Knows settings archive es s) (hp : .primary p ∈ es)
    (hcall : (Enrolment.primary p).call = (space, declarations)) : Declared s.registry := by
  have hn := normal_primary (congrArg Prod.fst hcall)
  have hresolve (k : Key) (c : Category) (hk : k.space = space)
      (hmem : (k, c) ∈ Registry.entries (space, declarations)) : s.registry.resolve k = some c := by
    have hiff := h.resolve_primary hp (hn.trans (congrArg Except.ok hk.symm)) c
    rw [hcall] at hiff
    exact hiff.mpr hmem
  rw [entries_declarations] at hresolve
  exact ⟨hresolve _ _ rfl (by simp), hresolve _ _ rfl (by simp), hresolve _ _ rfl (by simp)⟩

/-- **How a session opens** that the guests `gs` come to: what is written and what is refused is
what is admitted of them, and the others had an identifier that was there. -/
structure Opens (s : Session) (today : CivilDate) (ids : IdSupply) (gs : List Entry)
    (repeated : List Uuid) (o : Outcome) : Prop where
  entries : (s.opening today ids).store.entries =
    gs.map fun e => { e with attributes := s.registry.admitted space today e.attributes }
  outcome : (s.opening today ids).outcome = some o
  written : o.written = (gs.map fun e => (s.registry.admitted space today e.attributes).size).sum
  rejected : o.rejected = repeated.map .duplicateIndividual ++
    gs.flatMap fun e => s.registry.refusals space today e.attributes

lemma opens_of_ok (h : Knows settings archive es s) (hp : .primary p ∈ es)
    (hspace : p.space = space) {is : List Individual}
    (hy : p.collect.yield (p.timeout.getD settings.collectorTimeout) archive = .ok is)
    (today : CivilDate) (ids : IdSupply) :
    ∃ o, Opens s today ids (taken ids is) (dropped ids is) o ∧ o.status = .success := by
  obtain ⟨hentries, houtcome⟩ :=
    Session.opening_of_ok h (h.primary_mem.mpr hp) (normal_primary hspace) hy today ids
  exact ⟨_, ⟨hentries, houtcome, rfl, rfl⟩, rfl⟩

lemma result_of_yield {c : Collection} {budget : Span} {is : List Individual}
    (h : c.yield budget archive = .ok is) : c.result = .ok is := by
  unfold Collection.yield at h
  split at h
  · cases h
  · split at h
    · cases h
    · next hresult =>
      split at h <;> cases h
      exact hresult

lemma exists_opens (h : Knows settings archive es s) (hp : .primary p ∈ es)
    (hspace : p.space = space) (hc : p.collect.result = (roster.collect read).result)
    (today : CivilDate) (ids : IdSupply) :
    ∃ gs repeated o, Opens s today ids gs repeated o ∧ (∀ e ∈ gs, IsGuest e) ∧
      (gs.map (·.id)).Nodup := by
  cases hy : p.collect.yield (p.timeout.getD settings.collectorTimeout) archive with
  | error failure =>
    obtain ⟨hnone, houtcome⟩ :=
      Session.opening_of_error h (h.primary_mem.mpr hp) hy today ids
    exact ⟨[], [], _, ⟨hnone, houtcome, rfl, rfl⟩, by simp, by simp⟩
  | ok is =>
    obtain ⟨o, ho, -⟩ := opens_of_ok h hp hspace hy today ids
    have hresult := hc.symm.trans (result_of_yield hy)
    obtain ⟨ls, rfl⟩ : ∃ ls : List Line, is = ls.map individual := by
      rcases roster.collect_cases read with hcollect | ⟨-, causes, hcollect⟩
      · rw [hcollect] at hresult
        exact ⟨_, (Except.ok.inj hresult).symm⟩
      · rw [hcollect] at hresult
        cases hresult
    exact ⟨_, _, o, ho, isGuest_of_taken, Session.nodup_taken ids _⟩

lemma opens_again (hapart : (gs.map (·.id)).Nodup)
    (h : Knows settings archive es s) (hp : .primary p ∈ es) (hspace : p.space = space)
    (hresult : p.collect.result = .ok (gs.map Entry.individual))
    (htime : p.collect.total < (p.timeout.getD settings.collectorTimeout).toNanos)
    (today : CivilDate) (ids : IdSupply) :
    ∃ o, Opens s today ids gs [] o ∧ o.status = .success := by
  have hnew : newcomers (gs.map Entry.individual) = 0 := by
    simp [newcomers, Entry.individual]
  have harchive : archive.bind (·.refusal? 0) = none := by
    cases archive <;> simp [Archive.refusal?]
  have hy : p.collect.yield (p.timeout.getD settings.collectorTimeout) archive =
      .ok (gs.map Entry.individual) := by
    simp only [Collection.yield, if_neg (not_le.mpr htime), hresult, hnew, harchive]
  have hnodup : (gs.map fun e => some e.id).Nodup := by
    have hids := hapart.map (Option.some_injective Uuid)
    rwa [List.map_map] at hids
  have htaken : taken ids (gs.map Entry.individual) = gs := by
    rw [taken, Session.arrivals_individual]
    exact firsts_of_nodup hnodup
  have hdropped : dropped ids (gs.map Entry.individual) = [] := by
    rw [dropped, Session.arrivals_individual]
    exact repeats_of_nodup hnodup
  have hopens := opens_of_ok h hp hspace hy today ids
  rwa [htaken, hdropped] at hopens

/-- Nobody else writes under the keys of a roster. -/
lemma within_report (h : Knows settings archive es s) (hp : .primary p ∈ es)
    (hspace : p.space = space) (hr : s.MayReport today ids ms r) :
    EntriesAgree (Within space) (s.opening today ids).store.entries r.store.entries := by
  have hn := h.normal (e := .primary p) hp
  have hrunning : Session.runningNamespace p.space = space :=
    Except.ok.inj (hn.symm.trans (normal_primary hspace))
  refine ((Session.report_unowned h hr).mono fun k hk c hc heq => ?_).entries
  refine h.runningNamespace_ne hp (h.mem_secondaries.mp hc) (hrunning.trans ?_)
  exact (heq.trans hk).symm

lemma lines_of_opens {repeated : List Uuid} (ho : Opens s today ids gs repeated o)
    (h : EntriesAgree (Within space) (s.opening today ids).store.entries r.store.entries) :
    r.individuals.map Individual.line = gs.map fun e => (some e.id, e.person) := by
  rw [ho.entries, EntriesAgree, List.forall₂_map_left_iff] at h
  rw [Report.individuals, Store.individuals, List.map_map, ← List.forall₂_eq_eq_eq,
    List.forall₂_map_left_iff, List.forall₂_map_right_iff]
  refine h.flip.imp fun e g hg => ?_
  have hid : g.id = e.id := hg.id
  have hperson : g.person = e.person := hg.person
  show (some e.id, e.person) = (some g.id, g.person)
  rw [hid, hperson]

/-- **The same people once more.** A report has the individuals of another one, with the same
attributes of the roster. Its primary collector has written as much, and was refused those values
that were none of their category before. -/
structure Returns (r r' : Report) : Prop where
  individuals : List.Forall₂ (Individual.Alike space) r.individuals r'.individuals
  outcome : ∃ o o', r.primary = some o ∧ r'.primary = some o' ∧ o'.status = .success ∧
    o'.written = o.written ∧ o'.rejected = o.rejected.filter (·.isMismatch) ∧
    ∀ id, .duplicateIndividual id ∉ o'.rejected

lemma isMismatch_of_misaddressed? {p : Person} {e : StoreError}
    (h : misaddressed? today p = some e) : e.isMismatch = true := by
  obtain ⟨email, -, h⟩ := Option.bind_eq_some_iff.mp h
  split at h <;> cases h
  rfl

lemma Opens.rejected_eq {repeated : List Uuid} (ho : Opens s today ids gs repeated o)
    (hr : Declared s.registry) (hgs : ∀ e ∈ gs, IsGuest e) :
    o.rejected = repeated.map .duplicateIndividual ++
      gs.filterMap fun e => misaddressed? today e.person := by
  rw [ho.rejected, List.filterMap_eq_flatMap_toList]
  refine congrArg (_ ++ List.flatten ·) (List.map_congr_left fun e he => ?_)
  exact refusals_guest hr (hgs e he) today

lemma filter_isMismatch (repeated : List Uuid) (today : CivilDate) (gs : List Entry) :
    (repeated.map StoreError.duplicateIndividual ++
      gs.filterMap fun e => misaddressed? today e.person).filter (·.isMismatch) =
        gs.filterMap fun e => misaddressed? today e.person := by
  have hnone : (repeated.map StoreError.duplicateIndividual).filter (·.isMismatch) = [] := by
    simp [List.filter_eq_nil_iff, StoreError.isMismatch]
  have hall : ∀ e ∈ gs.filterMap fun e => misaddressed? today e.person, e.isMismatch = true := by
    intro e he
    obtain ⟨g, -, hg⟩ := List.mem_filterMap.mp he
    exact isMismatch_of_misaddressed? hg
  rw [List.filter_append, hnone, List.nil_append, List.filter_eq_self.mpr hall]

lemma returns_of_opens {repeated : List Uuid} (hgs : ∀ e ∈ gs, IsGuest e)
    (hdeclared : Declared s.registry) (hdeclared' : Declared s'.registry)
    (ho : Opens s today ids gs repeated o) (ho' : Opens s' day ids' gs [] o')
    (hsuccess : o'.status = .success)
    (hwithin : EntriesAgree (Within space) (s.opening today ids).store.entries r.store.entries)
    (hwithin' : EntriesAgree (Within space) (s'.opening day ids').store.entries r'.store.entries)
    (hr : r.primary = (s.opening today ids).outcome)
    (hr' : r'.primary = (s'.opening day ids').outcome) : Returns r r' := by
  have hadmitted : ∀ e ∈ gs, s.registry.admitted space today e.attributes =
      s'.registry.admitted space day e.attributes :=
    fun e he => admitted_guest hdeclared (hgs e he) today hdeclared' day
  have hentries : (s'.opening day ids').store.entries = (s.opening today ids).store.entries := by
    rw [ho.entries, ho'.entries]
    exact List.map_congr_left fun e he => by rw [hadmitted e he]
  have hrejected : o'.rejected = o.rejected.filter (·.isMismatch) := by
    rw [ho.rejected_eq hdeclared hgs, filter_isMismatch, ho'.rejected_eq hdeclared' hgs]
    -- whether an email is one does not depend on the day
    rfl
  refine ⟨EntriesAgree.individuals (hwithin.symm.trans (hentries ▸ hwithin')), o, o',
    hr.trans ho.outcome, hr'.trans ho'.outcome, hsuccess, ?_, hrejected, fun id hid => ?_⟩
  · rw [ho.written, ho'.written]
    exact congrArg List.sum (List.map_congr_left fun e he => by rw [hadmitted e he])
  · rw [hrejected, List.mem_filter] at hid
    cases hid.2

/-- **Printed individuals come back.** Take any session over a roster, with any other collectors and
under any schedule, and the individuals of its report printed as a list. The list is accepted as a
roster, and every session over it in which the roster is read in time, again with any other
collectors, comes to a report. All its reports have the same people in the same order. -/
theorem printed_come_back {c c' : Collection} {path : String} {read' : ReadFile}
    (h : Configured settings archive es s)
    (hp : .primary { roster.primary read with collect := c } ∈ es)
    (hc : c.result = (roster.collect read).result) (hr : s.Reports today ids ms r)
    (htext : Individual.Lists r.individuals text) (h' : Configured settings' archive' es' s')
    (hp' : .primary { Roster.primary ⟨path, none⟩ read' with collect := c' } ∈ es')
    (hread : read' path = .ok text) (hc' : c'.result = (Roster.collect ⟨path, none⟩ read').result)
    (htime : c'.total < settings'.collectorTimeout.toNanos) (day : CivilDate) (ids' : IdSupply) :
    linesOfText? text = some (r.individuals.map Individual.line) ∧
      (∃ run, s'.run day ids' = .ok run) ∧
      ∀ ms' r', s'.Reports day ids' ms' r' → Returns r r' := by
  have hlines := linesOfText?_of_lists htext
  obtain ⟨t', -, hrun⟩ := h'.runs day ids'
  refine ⟨hlines, ⟨_, hrun⟩, fun ms' r' hr' => ?_⟩
  obtain ⟨t, hseal, hr⟩ := hr
  obtain ⟨t', hseal', hr'⟩ := hr'
  have hknows := (h.sealRegistry hseal).knows
  have hknows' := (h'.sealRegistry hseal').knows
  obtain ⟨gs, repeated, o, ho, hgs, hapart⟩ := exists_opens hknows hp rfl hc today ids
  have hwithin := within_report hknows hp rfl hr
  have hback : (r.individuals.map Individual.line).map individual = gs.map Entry.individual := by
    rw [lines_of_opens ho hwithin, List.map_map]
    exact List.map_congr_left fun e he => (hgs e he).individual_eq
  have hguests : guests ⟨path, none⟩ (r.individuals.map Individual.line) =
      r.individuals.map Individual.line := List.filter_true _
  have hresult := hc'.trans (result_collect (r := ⟨path, none⟩) hread hlines)
  rw [hguests, hback] at hresult
  obtain ⟨o', ho', hsuccess⟩ := opens_again hapart hknows' hp' rfl hresult htime day ids'
  exact returns_of_opens hgs (declared_of_knows hknows hp rfl) (declared_of_knows hknows' hp' rfl)
    ho ho' hsuccess hwithin (within_report hknows' hp' rfl hr') hr.primary_eq hr'.primary_eq

/-! ### The party once more -/

/-- It knows where one of the guests lives. -/
def clerk : Secondary :=
  ⟨"towns", [⟨"town", .hometown⟩], none, fun _ => .ready
    (.putObservation Session.knownId ⟨"towns", "town"⟩ ⟨.text "Oslo", .certain⟩ fun _ => .done)⟩

lemma total_collect (r : Roster) (read : ReadFile) : (r.collect read).total = 0 := by
  rcases r.collect_cases read with h | ⟨-, causes, h⟩ <;> rw [h] <;> rfl

lemma exists_session (settings : Settings) (archive : Option Archive) (c : Collection) :
    ∃ s, Configured settings archive [.primary ⟨space, declarations, none, c⟩] s := by
  obtain ⟨registry, hr⟩ : ∃ registry, Registry.empty.register space declarations = .ok registry :=
    ⟨_, rfl⟩
  set start : Session := { Session.ofSettings settings with archive }
  have hregister : start.registerPrimary ⟨space, declarations, none, c⟩ =
      .ok { start with registry, primary := some ⟨space, declarations, none, c⟩ } := by
    simp only [start, Session.registerPrimary, Session.declare, Session.ofSettings, hr]
    rfl
  exact ⟨_, .enrol (e := .primary _) .fresh hregister⟩

/-- Both guests come back, though one of three lines was dropped and one email is none. -/
theorem party_comes_back : ∃ (s s' : Session) (r r' : Report) (text : String)
    (ms : List (CivilDate × Move)),
    s.Reports ⟨2024, 1, 1, by decide⟩ (.fresh fun _ => Session.freshId)
      (Session.turns [0, 0, 0]) r ∧
    r.individuals.length = 2 ∧ r.primary.map (·.rejected) =
      some [.duplicateIndividual Session.knownId, .typeMismatch emailKey .email .text] ∧
    Individual.Lists r.individuals text ∧
    s'.Reports ⟨2025, 1, 1, by decide⟩ (.fresh fun _ => Session.knownId) ms r' ∧
    linesOfText? text = some (r.individuals.map Individual.line) ∧ Returns r r' := by
  have hlines : linesOfText? partyText = some partyLines := by decide +kernel
  have hread : partyFile party.path = .ok partyText := rfl
  have hsession : ∃ s, Configured .default none
      [.primary { party.primary partyFile with
        collect := .pause 5 false (.individuals (partyLines.map individual)) },
        .secondary clerk] s ∧ ∃ r : Report,
      s.Reports ⟨2024, 1, 1, by decide⟩ (.fresh fun _ => Session.freshId)
        (Session.turns [0, 0, 0]) r ∧
      r.individuals.length = 2 ∧ r.primary.map (·.rejected) =
        some [.duplicateIndividual Session.knownId, .typeMismatch emailKey .email .text] :=
    ⟨_, .enrol (.enrol .fresh rfl) rfl, ⟨_, _, _⟩,
      ⟨_, rfl, .enriched _ rfl (.cons (b := ⟨_, _, _, _, 0⟩) ⟨rfl, rfl, rfl, rfl⟩ .nil)⟩, rfl, rfl⟩
  obtain ⟨s, hs, r, hr, htwo, hrejected⟩ := hsession
  set text := (Data.array (r.individuals.map Individual.data)).sorted.indentedAt 0 with htext
  have hlists : Individual.Lists r.individuals text := .sorted (.indented 0)
  obtain ⟨again, hagain⟩ : ∃ again : ReadFile, again "again.json" = .ok text :=
    ⟨fun _ => .ok text, rfl⟩
  obtain ⟨s', hs'⟩ := exists_session .default none (Roster.collect ⟨"again.json", none⟩ again)
  have htime : (Roster.collect ⟨"again.json", none⟩ again).total <
      Settings.default.collectorTimeout.toNanos := by
    rw [total_collect]
    decide
  obtain ⟨hback, ⟨run, hrun⟩, hreturns⟩ := printed_come_back hs List.mem_cons_self
    (result_collect hread hlines).symm hr hlists hs' List.mem_cons_self hagain
    rfl htime ⟨2025, 1, 1, by decide⟩ (.fresh fun _ => Session.knownId)
  obtain ⟨ms, hr'⟩ := Session.run_reports hrun
  exact ⟨s, s', r, run.report, text, _, hr, htwo, hrejected, hlists, hr', hback, hreturns _ _ hr'⟩

end Roster

end Dossier
