import Mathlib
import Dossier.Program.Commands
import Dossier.Proofs.Config
import Dossier.Proofs.Requirements
import Dossier.Proofs.Session.FactFiles
import Dossier.Proofs.Session.Shows

/-!
Finding is selecting from a run. Both commands run the session of one configuration, and where every
collector is in time the session ends with the same individuals. So what `find` prints are entries
that `run` prints, too: those that qualify for the requirements of the configuration and the call,
taken together in their order. The first of these that is refused ends the call.
-/

namespace Dossier

/-! ### Members of printed data -/

namespace Data

def member? (name : String) : Data → Option Data
  | object members => (members.find? (·.1 == name)).map (·.2)
  | _ => none

variable {m : String × Data} {ms : List (String × Data)}

lemma sortedItems_eq (ds : List Data) : sortedItems ds = ds.map sorted := by
  induction ds with
  | nil => rfl
  | cons d ds ih => rw [sortedItems, ih, List.map_cons]

lemma placeMember_perm (m : String × Data) (ms : List (String × Data)) :
    (placeMember m ms).Perm (m :: ms) := by
  induction ms with
  | nil => exact .refl _
  | cons n ms ih =>
    rw [placeMember]
    split
    · exact .refl _
    · exact (ih.cons n).trans (.swap m n ms)

lemma find?_placeMember (hm : m.1 ∉ ms.map (·.1)) (name : String) :
    (placeMember m ms).find? (·.1 == name) = (m :: ms).find? (·.1 == name) := by
  induction ms with
  | nil => rfl
  | cons n ms ih =>
    rw [List.map_cons, List.mem_cons, not_or] at hm
    rw [placeMember]
    split
    · rfl
    · simp only [List.find?_cons, ih hm.2]
      cases hn : n.1 == name with
      | true =>
        have hne : (m.1 == name) = false := by
          rw [beq_eq_false_iff_ne, ← beq_iff_eq.mp hn]
          exact hm.1
        rw [hne]
      | false => rfl

lemma names_sortedMembers (ms : List (String × Data)) :
    ((sortedMembers ms).map (·.1)).Perm (ms.map (·.1)) := by
  induction ms with
  | nil => exact .refl _
  | cons m ms ih =>
    rw [sortedMembers]
    exact ((placeMember_perm _ _).map _).trans (ih.cons m.1)

lemma member?_sorted (hn : (ms.map (·.1)).Nodup) (name : String) :
    (object ms).sorted.member? name = ((object ms).member? name).map sorted := by
  simp only [sorted, member?, Option.map_map]
  induction ms with
  | nil => rfl
  | cons m ms ih =>
    obtain ⟨hm, hms⟩ := List.nodup_cons.mp hn
    have hm' : m.1 ∉ (sortedMembers ms).map (·.1) := fun h =>
      hm ((names_sortedMembers ms).mem_iff.mp h)
    have hplace := find?_placeMember (m := (m.1, m.2.sorted)) hm' name
    rw [sortedMembers, hplace, List.find?_cons, List.find?_cons]
    by_cases hname : (m.1 == name) = true
    · simp [hname]
    · simpa [hname] using ih hms

end Data

lemma Answer.individuals_report (times : Option Times) (r : Report) :
    ((Answer.report r true).data times).member? "individuals" =
      some (.array (r.individuals.map fun i => i.data.sorted)) := by
  have hmap : (r.individuals.map fun i => i.data.sorted) =
      Data.sortedItems (r.individuals.map Individual.data) := by
    rw [Data.sortedItems_eq, List.map_map]
    rfl
  rw [hmap]
  cases times with
  | none => exact Data.member?_sorted (by simp) "individuals"
  | some t => exact Data.member?_sorted (by simp) "individuals"

namespace Command

/-! ### Requirements of the configuration and the call -/

def refused (e : RequirementError) : CommandError := .fault (.requirement e)

/-- A threshold, if the number is a reliability. -/
def thresholdOf (c : Category) (min : Float) : Except CommandError Threshold :=
  match Reliability.ofFloat? min with
  | none => .error (refused (.outOfRange min))
  | some r => .ok (c, r)

/-- What a configuration asks for with a name and a number. -/
def namedDemand (name : String) (min : Float) : Except CommandError Threshold :=
  match Category.parse name with
  | .error e => .error (.fault (.schema e))
  | .ok c => thresholdOf c min

/-- What an option of a call asks for: a category, an equals sign, and a number. -/
def givenDemand (given : String) : Except CommandError Threshold :=
  match Text.splitFirst '=' given with
  | none => .error (.requirementForm given)
  | some (name, min) =>
    match Category.parse name with
    | .error e => .error (.fault (.schema e))
    | .ok c =>
      match Decimal.ofText? (Text.trim min) with
      | .error e => .error (.threshold given e)
      | .ok min => thresholdOf c min

def configured (c : Config) : List (Except CommandError Threshold) :=
  c.query.thresholds.map fun t => namedDemand t.1 t.2

lemma require_thresholdOf (q : Requirements) (c : Category) (min : Float) :
    (q.require c min).mapError refused = q.demand refused (thresholdOf c min) := by
  unfold thresholdOf
  cases hr : Reliability.ofFloat? min with
  | none =>
    simp only [Requirements.require, hr]
    rfl
  | some r =>
    obtain rfl : r.value = min := Reliability.ofFloat?_eq_some_iff.mp hr
    rfl

lemma requireNamed_eq (q : Requirements) (name : String) (min : Float) :
    (q.requireNamed name min).mapError CommandError.fault =
      q.demand refused (namedDemand name min) := by
  unfold Requirements.requireNamed namedDemand
  cases Category.parse name with
  | error e => rfl
  | ok c =>
    simp only [← require_thresholdOf]
    cases q.require c min <;> rfl

lemma requireGiven_eq (q : Requirements) (given : String) :
    q.requireGiven given = q.demand refused (givenDemand given) := by
  unfold Requirements.requireGiven givenDemand
  cases Text.splitFirst '=' given with
  | none => rfl
  | some parts =>
    obtain ⟨name, min⟩ := parts
    simp only
    cases Category.parse name with
    | error e => rfl
    | ok c =>
      simp only
      cases Decimal.ofText? (Text.trim min) with
      | error e => rfl
      | ok min => exact require_thresholdOf q c min

lemma query_requirements_eq (c : Config) : c.query.requirements.mapError CommandError.fault =
    (configured c).foldlM (Requirements.demand refused) (.forEvent c.query.event) := by
  rw [Query.requirements, foldlM_mapError, configured, List.foldlM_map]
  refine congrArg (fun f => List.foldlM f _ _) ?_
  funext q t
  exact requireNamed_eq q t.1 t.2

/-- **The requirements of a call** hold what the configuration and then the options ask for. The
first option that is refused is the error. -/
theorem requirements_eq {c : Config} (hc : ∃ q, c.query.requirements = .ok q)
    (required : List String) (event : Option String) :
    match Requirements.objection? refused (configured c) (required.map givenDemand) with
    | some e => requirements c required event = .error e
    | none => ∃ q, requirements c required event = .ok q ∧ q.event = event.or c.query.event ∧
        q.Holds ((configured c ++ required.map givenDemand).filterMap Except.toOption) := by
  obtain ⟨q, hq⟩ := hc
  have hconfig := query_requirements_eq c
  rw [hq] at hconfig
  have hquery := Requirements.foldlM_demand refused []
    (Requirements.holds_forEvent c.query.event) (configured c)
  rw [← hconfig] at hquery
  cases hobjection : Requirements.objection? refused [] (configured c) with
  | some e => rw [hobjection] at hquery; cases hquery
  | none =>
    rw [hobjection] at hquery
    obtain ⟨q', hq', hevent, hholds⟩ := hquery
    obtain rfl : q = q' := Except.ok.inj hq'
    have hevent : q.event = c.query.event := hevent
    have hoptions := Requirements.foldlM_demand refused (configured c)
      (q := { q with event := event.or q.event }) hholds (required.map givenDemand)
    rw [List.foldlM_map] at hoptions
    have hgiven : requirements c required event =
        required.foldlM (fun q given => q.demand refused (givenDemand given))
          { q with event := event.or q.event } := by
      rw [requirements, hq]
      refine congrArg (fun f => List.foldlM f _ required) ?_
      funext q given
      exact requireGiven_eq q given
    rw [hgiven, ← hevent]
    cases hgivens : Requirements.objection? refused (configured c) (required.map givenDemand) with
    | some e => rwa [hgivens] at hoptions
    | none => rwa [hgivens] at hoptions

/-! ### How a call ends -/

def answers (s : Surroundings) (reported : Except CommandError Report) :
    Command → Except CommandError Answer
  | run withIndividuals => reported.map fun r => .report r withIndividuals
  | find required event => do
    let q ← requirements s.config required event
    let r ← reported
    match r.select q with
    | .ok is => return .individuals is
    | .error u => return .unsatisfiable u
  | schema => perform s schema

lemma perform_eq (s : Surroundings) (command : Command) :
    perform s command = answers s (report s) command := by cases command <;> rfl

/-- The end of a call, after what it complained of before. -/
def ending (complaint : String) : Except CommandError Answer → Ending
  | .error e => ⟨1, .nothing, complaint ++ e.text ++ "\n"⟩
  | .ok a => ⟨0, .answer a, complaint⟩

end Command

/-- The files on a disk that a configuration names; it looks at no others. -/
def Config.reader (c : Config) (d : Disk) : ReadFile := fun path =>
  if path ∈ c.paths then d.read path else .error .notFound

lemma Dialogue.playOn_readAll (today : CivilDate) (d : Disk) (next : ReadFile → Dialogue)
    (known : List (String × Except FileError String)) (paths : List String) :
    playOn today d (readAll known next paths) =
      playOn today d (next fun path => (((known ++ paths.map fun p => (p, d.read p)).find?
        (·.1 == path)).map (·.2)).getD (.error .notFound)) := by
  induction paths generalizing known with
  | nil => rw [List.map_nil, List.append_nil]; rfl
  | cons p paths ih =>
    rw [readAll, playOn, ih, List.append_assoc, List.map_cons, List.singleton_append]

lemma Config.reader_eq (c : Config) (d : Disk) : (fun path =>
    (((c.paths.map fun p => (p, d.read p)).find? (·.1 == path)).map (·.2)).getD
      (.error .notFound)) = c.reader d := by
  funext path
  rw [reader]
  induction c.paths with
  | nil => rfl
  | cons p paths ih =>
    simp only [List.map_cons, List.find?_cons, List.mem_cons]
    by_cases hp : p = path
    · simp [hp]
    · rw [beq_false_of_ne hp, ih]
      simp only [Ne.symm hp, false_or]

namespace Call

open Command (answers ending givenDemand configured refused)

variable {command : Command} {today : CivilDate} {ids : IdSupply} {path complaint : String}
  {d : Disk} {c : Config} {t : Session} {r r' : Report} {e e' : Ending}

lemma playOn_atPath (hc : Config.load path (d.read path) = .ok c) (day : CivilDate) :
    (atPath command today ids path complaint).playOn day d =
      (ending complaint (command.perform ⟨c, c.reader d, today, ids⟩), d) := by
  rw [atPath, Dialogue.playOn]
  simp only [hc, withConfig]
  rw [Dialogue.playOn_readAll, List.nil_append, c.reader_eq d]
  cases command.perform ⟨c, c.reader d, today, ids⟩ <;> rfl

/-- **How a call may end** on a disk if every collector is in time: its session may report whatever
some schedule of a day leads to. -/
structure MayEnd (command : Command) (today : CivilDate) (ids : IdSupply) (path complaint : String)
    (d : Disk) (c : Config) (t : Session) (r : Report) (e : Ending) : Prop where
  config : Config.load path (d.read path) = .ok c
  session : c.session (c.reader d) none = .ok t
  reports : ∃ ms, t.Reports today ids (Session.onDay today ms) r
  inTime : ∀ o ∈ r.outcomes, o.InTime
  ending : e = ending complaint (answers ⟨c, c.reader d, today, ids⟩ (.ok r) command)

/-- **The program ends as it may.** Its session always comes to a report, the same one for every
command, and if every collector is in time there, every call ends as it may with this report. -/
theorem mayEnd_playOn (hc : Config.load path (d.read path) = .ok c)
    (ht : c.session (c.reader d) none = .ok t) (today : CivilDate) (ids : IdSupply)
    (complaint : String) : ∃ r : Report, Command.report ⟨c, c.reader d, today, ids⟩ = .ok r ∧
      ((∀ o ∈ r.outcomes, o.InTime) → ∀ command day,
        MayEnd command today ids path complaint d c t r
          ((atPath command today ids path complaint).playOn day d).1) := by
  obtain ⟨run, hrun⟩ := (Config.plans_of_session ht).runs today ids
  have hreport : Command.report ⟨c, c.reader d, today, ids⟩ = .ok run.report := by
    simp only [Command.report, Command.session, ht, Except.mapError, bind, Except.bind, hrun]
    rfl
  refine ⟨run.report, hreport, fun hin command day => ?_⟩
  refine ⟨hc, ht, Session.run_reports hrun, hin, ?_⟩
  rw [playOn_atPath hc, Command.perform_eq, hreport]

/-! ### Finding -/

def answer (r : Report) (q : Requirements) : Answer :=
  match r.select q with
  | .ok is => .individuals is
  | .error u => .unsatisfiable u

/-- What is printed of the people of a run: those who qualify, or, if something is required and
nobody does, how many categories are required and how many attend the event. -/
def found (q : Requirements) (required : List Category) (r : Registry) (people : List Individual) :
    Data :=
  let chosen := people.filter fun i => decide (q.Qualifies r i)
  if required ≠ [] ∧ chosen = [] then
    .object [("candidates", .integer (people.filter fun i => i.attends q.event).length),
      ("requirements", .integer required.dedup.length), ("unsatisfiable", .bool true)]
  else .array (chosen.map Individual.data)

lemma answers_find {s : Command.Surroundings} {required : List String} {event : Option String}
    {q : Requirements} (hq : Command.requirements s.config required event = .ok q) (r : Report) :
    answers s (.ok r) (.find required event) = .ok (answer r q) := by
  simp only [answers, hq, answer, bind, Except.bind]
  cases r.select q <;> rfl

lemma data_unsatisfiable (times : Option Times) (u : Unsatisfiable) :
    (Answer.unsatisfiable u).data times = .object [("candidates", .integer u.candidates),
      ("requirements", .integer u.requirements), ("unsatisfiable", .bool true)] := by
  have hcandidates : ¬ "requirements" < "candidates" ∧ ¬ "unsatisfiable" < "candidates" := by
    decide +kernel
  have hrequirements : ¬ "unsatisfiable" < "requirements" := by decide +kernel
  simp only [Answer.data, Data.sorted, Data.sortedMembers, Data.placeMember, hcandidates,
    hrequirements, if_false]

lemma data_answer {q : Requirements} {ts : List Threshold} (h : q.Holds ts) (times : Option Times)
    (r : Report) :
    (answer r q).data times = found q (ts.map (·.1)) r.registry r.individuals := by
  have hrequired : q.isEmpty = false ↔ ts.map (·.1) ≠ [] := by
    rw [Requirements.isEmpty_eq h, List.isEmpty_eq_false_iff, Ne, Ne, List.map_eq_nil_iff]
  rw [answer, found, Report.select, Requirements.select_eq, Requirements.size_eq h,
    if_congr (and_congr hrequired Iff.rfl) rfl rfl]
  split_ifs
  · exact data_unsatisfiable times _
  · rfl

namespace MayEnd

lemma store_eq (h : MayEnd command today ids path complaint d c t r e) {command' : Command}
    (h' : MayEnd command' today ids path complaint d c t r' e') : r.store = r'.store := by
  obtain ⟨⟨es, hes⟩, ⟨files, hfiles⟩, -⟩ := Config.plans_of_session h.session
  obtain ⟨ms, u, hseal, hr⟩ := h.reports
  obtain ⟨ms', u', hseal', hr'⟩ := h'.reports
  obtain rfl : u = u' := Except.ok.inj (hseal.symm.trans hseal')
  have hknows := (hes.sealRegistry hseal).knows
  have hsecondaries : u.secondaries = files.map (·.secondary (c.reader d)) := by
    rw [(Session.sealRegistry_ok hseal).2.2]
    exact hfiles
  exact Session.report_store_eq hknows hsecondaries hr hr'
    (fun o ho => h.inTime o (List.mem_append_right _ ho))
    (fun o ho => h'.inTime o (List.mem_append_right _ ho))

lemma resolve_eq (h : MayEnd command today ids path complaint d c t r e) (k : Key) :
    r.registry.resolve k = t.registry.resolve k := by
  obtain ⟨ms, u, hseal, hr⟩ := h.reports
  rw [Session.registry_report hr]
  obtain ⟨-, hregistry, -⟩ := Session.sealRegistry_ok hseal
  rcases hregistry with hu | hu <;> rw [hu]
  rfl

end MayEnd

section Party

open Session (attendees towns desk attendeeText townText annId)

/-- The structure of a path that is the name of a file and nothing else. -/
structure IsPlain (name : String) : Prop where
  names : (Path.names name.toList).map String.ofList = [name]
  nonempty : name.isEmpty = false
  zero : name.toList.contains '\x00' = false
  relative : Path.isAbsolute name = false

lemma read_text {d : Disk} {name text : String} (hname : IsPlain name)
    (henter : d.enter d.start name = .ok [name])
    (htext : d.root.find? [name] = some (.ofText text)) : d.read name = .ok text := by
  have hplace : d.locate name = .ok [name] := by
    simp only [Disk.locate, hname.nonempty, hname.zero, hname.relative, hname.names,
      Bool.false_eq_true, if_false, List.foldlM_cons, List.foldlM_nil, henter]
    rfl
  have hdecode : String.fromUTF8? text.toUTF8 = some text := dif_pos text.isValidUTF8
  simp only [Disk.read, hplace, htext, Tree.ofText, hdecode]

def partyText : String :=
  "[roster]\npath = \"attendees.json\"\n\n[[sources]]\nnamespace = \"towns\"\n" ++
  "path = \"towns.json\"\n[sources.attributes]\ntown = \"hometown\"\n\n" ++
  "[requirements]\nshow = \"ball\"\n"

def party : Config :=
  ⟨60, none, some (attendees none), none,
    [⟨"towns", "towns.json", (∅ : SortedMap String String).insert "town" "hometown", none⟩],
    ⟨some "ball", []⟩⟩

def partyDisk : Disk :=
  ⟨.directory [("profiler.toml", .ofText partyText), ("attendees.json", .ofText attendeeText),
    ("towns.json", .ofText townText)], []⟩

lemma read_config : partyDisk.read "profiler.toml" = .ok partyText :=
  read_text ⟨by decide +kernel, by decide +kernel, by decide +kernel, by decide +kernel⟩
    (by decide +kernel) rfl

lemma read_attendees : partyDisk.read "attendees.json" = .ok attendeeText :=
  read_text ⟨by decide +kernel, by decide +kernel, by decide +kernel, by decide +kernel⟩
    (by decide +kernel) rfl

lemma read_towns : partyDisk.read "towns.json" = .ok townText :=
  read_text ⟨by decide +kernel, by decide +kernel, by decide +kernel, by decide +kernel⟩
    (by decide +kernel) rfl

lemma load_party : Config.load "profiler.toml" (partyDisk.read "profiler.toml") = .ok party := by
  rw [read_config]
  decide +kernel

lemma reader_party {path : String} (h : path ∈ party.paths) :
    party.reader partyDisk path = desk path := by
  rw [Config.reader, if_pos h]
  fin_cases h
  · exact read_attendees
  · exact read_towns

end Party

end Call

end Dossier
