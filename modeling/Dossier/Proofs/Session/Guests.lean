import Mathlib
import Dossier.Proofs.Roster
import Dossier.Proofs.Session.Materialising

/-!
Guests of a roster. Those who attend the event come in, in the order of the lines and each
identifier once. Of everybody the names and the email of the line are known for certain, as far as
they are not blank; nothing is left out of it but an email that is none.
-/

namespace Dossier

namespace Roster

/-- What a roster states of somebody whose names and email are tidy. -/
inductive States (today : CivilDate) (p : Person) : Key → String → Prop where
  | firstName (h : p.firstName ≠ "") : States today p firstNameKey p.firstName
  | lastName (h : p.lastName ≠ "") : States today p lastNameKey p.lastName
  | email {e : String} (he : p.email = some e)
      (h : Category.email.accepts today (.text e) = true) : States today p emailKey e

/-- The error for an email that is none. -/
def misaddressed? (today : CivilDate) (p : Person) : Option StoreError :=
  p.email.bind fun e =>
    if Category.email.accepts today (.text e) then none
    else some (.typeMismatch emailKey .email .text)

/-- **A guest** comes as the line says, under the identifier of the line or else one of the `fresh`
ones, and what is known is what the roster states. -/
structure ComesAs (today : CivilDate) (fresh : List Uuid) (l : Line) (i : Individual) : Prop where
  firstName : i.firstName = Text.trim l.2.firstName
  lastName : i.lastName = Text.trim l.2.lastName
  email_iff : ∀ e, i.email = some e ↔ e ≠ "" ∧ l.2.email.map Text.trim = some e
  event : i.event = l.2.event
  seat : i.seat = l.2.seat
  known : ∀ id, l.1 = some id → i.id = some id
  new : l.1 = none → ∃ id ∈ fresh, i.id = some id
  holds_iff : ∀ k o, i.attributes.get? k = some o ↔
    ∃ v, States today i.toPerson k v ∧ o = ⟨.text v, .certain⟩

/-! ### What a roster states -/

structure Declared (r : Registry) : Prop where
  firstName : r.resolve firstNameKey = some .firstName
  lastName : r.resolve lastNameKey = some .lastName
  email : r.resolve emailKey = some .email

lemma email_tidy_iff {p : Person} {e : String} :
    (tidy p).email = some e ↔ e ≠ "" ∧ p.email.map Text.trim = some e := by
  simp [tidy, Option.filter_eq_some_iff, and_comm]

lemma mem_facts_iff {p : Person} {k : Key} {o : Observation} : (k, o) ∈ facts p ↔
    ∃ v, v ≠ "" ∧ o = ⟨.text v, .certain⟩ ∧ (k = firstNameKey ∧ v = p.firstName ∨
      k = lastNameKey ∧ v = p.lastName ∨ k = emailKey ∧ p.email = some v) := by
  simp only [facts, List.mem_map, List.mem_filter, List.mem_append, List.mem_cons,
    List.not_mem_nil, or_false, Option.mem_toList, Option.map_eq_some_iff, Prod.exists,
    Prod.mk.injEq, Bool.not_eq_true', String.isEmpty_eq_false_iff]
  constructor
  · rintro ⟨k, v, ⟨hstated, hne⟩, rfl, rfl⟩
    refine ⟨v, hne, rfl, ?_⟩
    rcases hstated with (h | h) | ⟨e, he, rfl, rfl⟩
    · exact .inl h
    · exact .inr (.inl h)
    · exact .inr (.inr ⟨rfl, he⟩)
  · rintro ⟨v, hne, rfl, h⟩
    refine ⟨k, v, ⟨?_, hne⟩, rfl, rfl⟩
    rcases h with h | h | ⟨rfl, he⟩
    · exact .inl (.inl h)
    · exact .inl (.inr h)
    · exact .inr ⟨v, he, rfl, rfl⟩

lemma nodup_facts (p : Person) : ((facts p).map (·.1)).Nodup := by
  have hkeys : [firstNameKey, lastNameKey, emailKey].Nodup := by decide
  refine hkeys.sublist ?_
  rw [facts, List.map_map]
  refine (List.filter_sublist.map _).trans ?_
  cases p.email with
  | none => exact List.sublist_append_left [firstNameKey, lastNameKey] [emailKey]
  | some e => exact .refl _

lemma get?_individual (l : Line) (k : Key) (o : Observation) :
    (individual l).attributes.get? k = some o ↔ (k, o) ∈ facts (tidy l.2) :=
  SortedMap.get?_ofList_eq_some_iff (nodup_facts _)

lemma accepts_trim {today : CivilDate} {s : String} (h : Text.trim s ≠ "") :
    Category.firstName.accepts today (.text (Text.trim s)) = true ∧
      Category.lastName.accepts today (.text (Text.trim s)) = true := by
  have hne : Text.trimChars (Text.trim s).toList ≠ [] := by
    rw [Text.trim, String.toList_ofList, Text.trimChars_trimChars]
    simpa [Text.trim] using h
  simp [Category.accepts, hne]

lemma fact_of_email {p : Person} {e : String} (he : (tidy p).email = some e) :
    (emailKey, ⟨.text e, .certain⟩) ∈ facts (tidy p) :=
  mem_facts_iff.mpr ⟨e, (email_tidy_iff.mp he).1, rfl, .inr (.inr ⟨rfl, he⟩)⟩

lemma misaddressed?_of_email {p : Person} {e : String} (he : p.email = some e)
    (today : CivilDate) : misaddressed? today p =
      if Category.email.accepts today (.text e) then none
      else some (.typeMismatch emailKey .email .text) := by
  rw [misaddressed?, he, Option.bind_some]

section Registered

variable {r : Registry} (hr : Declared r) (today : CivilDate) (l : Line)
include hr

lemma refusal?_fact {k : Key} {o : Observation} (h : (k, o) ∈ facts (tidy l.2)) :
    r.refusal? space today k o =
      if k = emailKey then misaddressed? today (tidy l.2) else none := by
  obtain ⟨v, hne, rfl, ⟨rfl, rfl⟩ | ⟨rfl, rfl⟩ | ⟨rfl, he⟩⟩ := mem_facts_iff.mp h
  · rw [if_neg (by decide)]
    exact (Registry.refusal?_of_resolve rfl hr.firstName).trans (if_pos (accepts_trim hne).1)
  · rw [if_neg (by decide)]
    exact (Registry.refusal?_of_resolve rfl hr.lastName).trans (if_pos (accepts_trim hne).2)
  · rw [if_pos rfl, misaddressed?_of_email he]
    exact Registry.refusal?_of_resolve rfl hr.email

lemma refusals_individual : r.refusals space today (individual l).attributes =
    (misaddressed? today (tidy l.2)).toList := by
  have hfact : ∀ {k o}, (individual l).attributes.get? k = some o → r.refusal? space today k o =
      if k = emailKey then misaddressed? today (tidy l.2) else none := fun h =>
    refusal?_fact hr today l ((get?_individual l _ _).mp h)
  have honly := SortedMap.filterMap_of_key (k := emailKey) (individual l).attributes.nodup_keys
    fun a ha hne => (hfact ((SortedMap.mem_toList_iff _).mp ha)).trans (if_neg hne)
  refine honly.trans (congrArg Option.toList ?_)
  show ((individual l).attributes.get? emailKey).bind _ = _
  cases hget : (individual l).attributes.get? emailKey with
  | some o => exact (hfact hget).trans (if_pos rfl)
  | none =>
    cases he : (tidy l.2).email with
    | none =>
      rw [misaddressed?, he]
      rfl
    | some e =>
      rw [(get?_individual l _ _).mpr (fact_of_email he)] at hget
      cases hget

lemma get?_admitted (k : Key) (o : Observation) :
    (r.admitted space today (individual l).attributes).get? k = some o ↔
      ∃ v, States today (tidy l.2) k v ∧ o = ⟨.text v, .certain⟩ := by
  rw [Registry.admitted, SortedMap.get?_filter_eq_some_iff, get?_individual,
    ← Registry.refusal?_eq_none_iff]
  constructor
  · rintro ⟨hfact, hnone⟩
    rw [refusal?_fact hr today l hfact] at hnone
    obtain ⟨v, hne, rfl, ⟨rfl, rfl⟩ | ⟨rfl, rfl⟩ | ⟨rfl, he⟩⟩ := mem_facts_iff.mp hfact
    · exact ⟨_, .firstName hne, rfl⟩
    · exact ⟨_, .lastName hne, rfl⟩
    · rw [if_pos rfl, misaddressed?_of_email he] at hnone
      exact ⟨v, .email he (by simpa using hnone), rfl⟩
  · rintro ⟨v, hstates, rfl⟩
    cases hstates with
    | firstName hne =>
      have hfact := mem_facts_iff.mpr ⟨_, hne, rfl, .inl ⟨rfl, rfl⟩⟩
      exact ⟨hfact, (refusal?_fact hr today l hfact).trans (if_neg (by decide))⟩
    | lastName hne =>
      have hfact := mem_facts_iff.mpr ⟨_, hne, rfl, .inr (.inl ⟨rfl, rfl⟩)⟩
      exact ⟨hfact, (refusal?_fact hr today l hfact).trans (if_neg (by decide))⟩
    | email he haccepts =>
      refine ⟨fact_of_email he, ?_⟩
      rw [refusal?_fact hr today l (fact_of_email he), if_pos rfl, misaddressed?_of_email he,
        if_pos haccepts]

end Registered

/-! ### Who comes in -/

open Session (newcomers Fresh Materialised CameToNothing Configured)

def guests (r : Roster) (ls : List Line) : List Line := ls.filter fun l => l.2.attends r.event

/-- **What becomes of the guests**, before anybody else writes. Of those with the same identifier
the first comes in, and the others are listed; then come the emails that are none. -/
structure Hosted (s : Session) (today : CivilDate) (ids : IdSupply) (guests : List Line)
    (elapsed : ℕ) : Prop where
  individuals : List.Forall₂
    (ComesAs today (ids.upcoming (newcomers (guests.map individual))))
    (firsts (·.1) [] guests) (s.opening today ids).store.individuals
  apart : ((s.opening today ids).store.individuals.map (·.id)).Nodup
  outcome : (s.opening today ids).outcome = some ⟨space, .success,
    ((s.opening today ids).store.individuals.map (·.attributes.size)).sum,
    (repeats (·.1) [] guests).map .duplicateIndividual ++
      (s.opening today ids).store.individuals.filterMap fun i =>
        misaddressed? today i.toPerson,
    elapsed⟩
  reported : ∀ ms report, s.Reports today ids ms report →
    report.primary = (s.opening today ids).outcome

variable {settings : Settings} {archive : Option Archive} {es : List Enrolment} {s : Session}
  {r : Roster} {read : ReadFile} {c : Collection} {text : String} {ls : List Line}

lemma comesAs_of_takenIn {registry : Registry} (hr : Declared registry) {today : CivilDate}
    {fresh : List Uuid} {l : Line} {i : Individual}
    (h : Session.TakenIn registry space today fresh (individual l) i) :
    ComesAs today fresh l i := by
  have hperson : i.toPerson = tidy l.2 := h.person
  refine ⟨congrArg Person.firstName hperson, congrArg Person.lastName hperson, fun e => ?_,
    ?_, ?_, h.known, h.new, fun k o => ?_⟩
  · rw [show i.email = (tidy l.2).email from congrArg Person.email hperson]
    exact email_tidy_iff
  · exact (congrArg Person.event hperson : i.event = (tidy l.2).event)
  · exact (congrArg Person.seat hperson : i.seat = (tidy l.2).seat)
  · rw [h.attributes, get?_admitted hr, hperson]

lemma entries_declarations : Registry.entries (space, declarations) =
    [(firstNameKey, .firstName), (lastNameKey, .lastName), (emailKey, .email)] := by
  decide +kernel

lemma hosted {p : Primary} {gs : List Line} {today : CivilDate} {ids : IdSupply}
    (hcall : (Enrolment.primary p).call = (space, declarations))
    (h : Materialised s p space today ids (gs.map individual)) :
    Hosted s today ids gs p.collect.total := by
  have hr : Declared s.registry := by
    have hdeclared := h.declared
    rw [hcall, entries_declarations] at hdeclared
    exact ⟨(hdeclared _ _ rfl).mpr (by simp), (hdeclared _ _ rfl).mpr (by simp),
      (hdeclared _ _ rfl).mpr (by simp)⟩
  have hfirsts : firsts (·.id) [] (gs.map individual) = (firsts (·.1) [] gs).map individual :=
    firsts_map individual [] gs
  have hrepeats : repeats (·.id) [] (gs.map individual) = repeats (·.1) [] gs :=
    repeats_map individual [] gs
  have htaken := h.individuals
  have houtcome := h.outcome
  -- from here on line by line: `htaken` pairs each line that counts with who came in for it
  rw [hfirsts, List.forall₂_map_left_iff] at htaken
  rw [hfirsts, hrepeats, List.map_map, List.flatMap_map] at houtcome
  refine ⟨htaken.imp fun l i => comesAs_of_takenIn hr, h.apart, ?_, h.reported⟩
  generalize (s.opening today ids).store.individuals = is at htaken ⊢
  have hwritten : (firsts (·.1) [] gs).map ((fun i =>
      (s.registry.admitted space today i.attributes).size) ∘ individual) =
        is.map (·.attributes.size) := by
    rw [← List.forall₂_eq_eq_eq, List.forall₂_map_left_iff, List.forall₂_map_right_iff]
    refine htaken.imp fun l i hli => ?_
    rw [Function.comp_apply, hli.attributes]
  have hrefused : (firsts (·.1) [] gs).flatMap (fun l =>
      s.registry.refusals space today (individual l).attributes) =
        is.filterMap fun i => misaddressed? today i.toPerson := by
    have hmap : (firsts (·.1) [] gs).map (fun l =>
        s.registry.refusals space today (individual l).attributes) =
          is.map fun i => (misaddressed? today i.toPerson).toList := by
      rw [← List.forall₂_eq_eq_eq, List.forall₂_map_left_iff, List.forall₂_map_right_iff]
      refine htaken.imp fun l i hli => ?_
      rw [refusals_individual hr, show i.toPerson = tidy l.2 from hli.person]
    rw [List.filterMap_eq_flatMap_toList]
    exact congrArg List.flatten hmap
  rw [houtcome, hwritten, hrefused]

lemma cameToNothing {p : Primary} (h : Session.Knows settings archive es s) (hp : .primary p ∈ es)
    (hspace : p.space = space) {failure : CollectorFailure}
    (hy : p.collect.yield (p.timeout.getD settings.collectorTimeout) archive = .error failure)
    (today : CivilDate) (ids : IdSupply) : CameToNothing s p space today ids failure := by
  have hs := h.primary_mem.mpr hp
  have hnormal := isNormal_of_normalNamespace (h.normal hp)
  have hrunning : Session.runningNamespace p.space = space := by
    have hn : normalNamespace space = .ok space := normal_space
    simp only [Session.runningNamespace, hspace, hn]
  obtain ⟨hnone, houtcome⟩ := Session.opening_of_error h hs hy today ids
  refine ⟨by rw [houtcome, hrunning, h.settings], congrArg (List.map Entry.individual) hnone,
    fun ms report hr => ?_⟩
  exact ⟨Session.primary_of_reports hnormal hs hr, Session.reports_of_nobody hnormal hs hnone hr⟩

lemma result_collect (hread : read r.path = .ok text) (hlines : linesOfText? text = some ls) :
    (r.collect read).result = .ok ((r.guests ls).map individual) := by
  simp only [collect, hread, individuals?, hlines]
  rfl

/-- **The guests of a roster come in**, however long its collection `c` takes, if it is through in
time; unless there is an archive that cannot store the newcomers among them, for then the session
comes to nothing. -/
theorem guests_come_in (h : Configured settings archive es s)
    (hp : .primary { r.primary read with collect := c } ∈ es)
    (hread : read r.path = .ok text) (hlines : linesOfText? text = some ls)
    (hc : c.result = (r.collect read).result)
    (htime : c.total < settings.collectorTimeout.toNanos) (today : CivilDate) {ids : IdSupply}
    (hfresh : Fresh ids ((r.guests ls).map individual)) :
    match archive.bind (·.refusal? (newcomers ((r.guests ls).map individual))) with
    | none => Hosted s today ids (r.guests ls) c.total
    | some e => CameToNothing s { r.primary read with collect := c } space today ids
        (.persistence e.message) := by
  have hknows := h.knows
  have hn : normalNamespace space = .ok space := normal_space
  have hresult := hc.trans (result_collect hread hlines)
  cases hrefusal : archive.bind (·.refusal? (newcomers ((r.guests ls).map individual))) with
  | none =>
    have hyield : c.yield settings.collectorTimeout archive =
        .ok ((r.guests ls).map individual) := by
      simp only [Collection.yield, if_neg (not_le.mpr htime), hresult, hrefusal]
    exact hosted rfl (Session.materialised hknows hp hn hyield hfresh)
  | some e =>
    have hyield : c.yield settings.collectorTimeout archive =
        .error (.persistence e.message) := by
      simp only [Collection.yield, if_neg (not_le.mpr htime), hresult, hrefusal]
    exact cameToNothing hknows hp rfl hyield today ids

/-! ### A roster with somebody in it twice -/

def party : Roster := ⟨"party.json", none⟩

/-- The first line has an email that is none, the second has no last name, and the third has the
identifier of the first. -/
def partyText : String :=
  "[[\"44444444-4444-4444-4444-444444444444\", \" Ann\", \"Lee\", \"ann\"]," ++
    " [null, \"Bob\", \" \", \" bob@party.org\"]," ++
    " [\"44444444-4444-4444-4444-444444444444\", \"Ann\", \"Li\"]]"

def partyFile : ReadFile := fun _ => .ok partyText

def partyLines : List Line :=
  [(some Session.knownId, ⟨" Ann", "Lee", some "ann", none, none⟩),
    (none, ⟨"Bob", " ", some " bob@party.org", none, none⟩),
    (some Session.knownId, ⟨"Ann", "Li", none, none, none⟩)]

/-- Two of them come in, with two facts each. -/
theorem party_comes_in :
    ∃ (s : Session) (o : Outcome),
      (s.opening ⟨2024, 1, 1, by decide⟩ (.fresh fun _ => Session.freshId)).outcome = some o ∧
        o.written = 4 ∧ o.rejected =
          [.duplicateIndividual Session.knownId, .typeMismatch emailKey .email .text] ∧
        Hosted s ⟨2024, 1, 1, by decide⟩ (.fresh fun _ => Session.freshId) partyLines 5000000 := by
  have hlines : linesOfText? partyText = some partyLines := by decide +kernel
  have hread : partyFile party.path = .ok partyText := rfl
  have hsession : ∃ s, Configured .default none
      [.primary { party.primary partyFile with
        collect := .pause 5 false (.individuals (partyLines.map individual)) }] s ∧ ∃ o,
      (s.opening ⟨2024, 1, 1, by decide⟩ (.fresh fun _ => Session.freshId)).outcome = some o ∧
        o.written = 4 ∧ o.rejected =
          [.duplicateIndividual Session.knownId, .typeMismatch emailKey .email .text] :=
    ⟨_, .enrol .fresh rfl, _, rfl, rfl, rfl⟩
  obtain ⟨s, hs, o, ho, hwritten, hrejected⟩ := hsession
  exact ⟨s, o, ho, hwritten, hrejected, guests_come_in hs List.mem_cons_self hread hlines
    (result_collect hread hlines).symm (by decide) ⟨2024, 1, 1, by decide⟩ ⟨by decide, by decide⟩⟩

end Roster

end Dossier
