import Mathlib
import Dossier.Config.Reading
import Dossier.Config.Plan
import Dossier.Proofs.Session.Enrolment

/-!
What comes of a configuration: a session whose secondary collectors add the files of its sources,
and requirements that nothing is wrong with.
-/

namespace Dossier

section Folds

variable {α β ε δ : Type} {f : β → α → Except ε β}

/-- What every step of a fold keeps, the fold keeps. It may depend on the elements before. -/
lemma foldlM_inv (P : List α → β → Prop) (earlier : List α) {as : List α}
    (hstep : ∀ earlier b, ∀ a ∈ as, ∀ b', P earlier b → f b a = .ok b' → P (earlier ++ [a]) b')
    {b b' : β} (hb : P earlier b) (h : as.foldlM f b = .ok b') :
    P (earlier ++ as) b' := by
  induction as generalizing earlier b with
  | nil =>
    cases h
    simpa using hb
  | cons a as ih =>
    rw [List.foldlM_cons] at h
    cases ha : f b a with
    | error e => rw [ha] at h; cases h
    | ok c =>
      rw [ha] at h
      have htail := ih _ (fun earlier b x hx => hstep earlier b x (List.mem_cons_of_mem _ hx))
        (hstep earlier b a List.mem_cons_self c hb ha) h
      rwa [List.append_assoc] at htail

lemma foldlM_mapError (g : ε → δ) (as : List α) (b : β) :
    (as.foldlM f b).mapError g = as.foldlM (fun b a => (f b a).mapError g) b := by
  induction as generalizing b with
  | nil => rfl
  | cons a as ih =>
    rw [List.foldlM_cons, List.foldlM_cons]
    cases f b a with
    | error e => rfl
    | ok c => exact ih c

lemma mapError_eq_ok {x : Except ε α} {g : ε → δ} {a : α} (h : x.mapError g = .ok a) :
    x = .ok a := by
  cases x with
  | error e => cases h
  | ok b => exact congrArg Except.ok (Except.ok.inj h)

lemma forM_eq_ok {g : α → Except ε Unit} {as : List α} (h : as.forM g = .ok ()) :
    ∀ a ∈ as, g a = .ok () := by
  induction as with
  | nil => simp
  | cons a as ih =>
    have h : (g a >>= fun _ => as.forM g) = .ok () := h
    cases ha : g a with
    | error e => rw [ha] at h; cases h
    | ok u =>
      rw [ha] at h
      exact List.forall_mem_cons.mpr ⟨ha, ih h⟩

lemma forall₂_of_mapM {g : α → Except ε δ} {as : List α} {ds : List δ} (h : as.mapM g = .ok ds) :
    List.Forall₂ (fun a d => g a = .ok d) as ds := by
  induction as generalizing ds with
  | nil => cases h; exact .nil
  | cons a as ih =>
    rw [List.mapM_cons] at h
    cases ha : g a with
    | error e => rw [ha] at h; cases h
    | ok d =>
      cases has : as.mapM g with
      | error e => rw [ha, has] at h; cases h
      | ok ds' =>
        rw [ha, has] at h
        obtain rfl : d :: ds' = ds := Except.ok.inj h
        exact .cons ha (ih has)

lemma map_eq_of_mapM {g : α → Except ε δ} {as : List α} {ds : List δ} (h : as.mapM g = .ok ds) :
    as.map g = ds.map .ok := by
  rw [← List.forall₂_eq_eq_eq, List.forall₂_map_left_iff, List.forall₂_map_right_iff]
  exact forall₂_of_mapM h

/-- **A fold comes to the end**, or up to the first element that is refused. What holds of the state
may depend on the elements before, and so may the reasons of a refusal. -/
theorem foldlM_answers {P : List α → β → Prop} {Q : List α → α → ε → Prop} {as : List α}
    (hstep : ∀ earlier b, ∀ a ∈ as, P earlier b →
      (∃ b', f b a = .ok b' ∧ P (earlier ++ [a]) b') ∨ ∃ e, f b a = .error e ∧ Q earlier a e)
    {earlier : List α} {b : β} (hb : P earlier b) :
    (∃ b', as.foldlM f b = .ok b' ∧ P (earlier ++ as) b') ∨
      ∃ before a after e, as = before ++ a :: after ∧ (∃ b', P (earlier ++ before) b') ∧
        as.foldlM f b = .error e ∧ Q (earlier ++ before) a e := by
  induction as generalizing earlier b with
  | nil => exact .inl ⟨b, rfl, by simpa using hb⟩
  | cons a as ih =>
    rw [List.foldlM_cons]
    rcases hstep earlier b a List.mem_cons_self hb with ⟨b', ha, hb'⟩ | ⟨e, ha, he⟩
    · have htail := ih (fun earlier b x hx => hstep earlier b x (List.mem_cons_of_mem _ hx)) hb'
      simp only [List.append_assoc, List.singleton_append] at htail
      rw [ha]
      rcases htail with hend | ⟨before, x, after, e, has, hbefore, he, hx⟩
      · exact .inl hend
      · exact .inr ⟨a :: before, x, after, e, by rw [has, List.cons_append], hbefore, he, hx⟩
    · rw [ha]
      exact .inr ⟨[], a, as, e, rfl, ⟨b, by simpa using hb⟩, rfl, by simpa using he⟩

end Folds

deriving instance DecidableEq for Query, Config

lemma Archive.normal_space : IsNormal Archive.space := rfl

/-- The collector that a session has for a source. -/
def Source.Gives (read : ReadFile) (s : Source) (d : Secondary) : Prop :=
  ∃ ds, s.declarations = .ok ds ∧
    d = FactFile.secondary ⟨s.space, s.path, ds, s.timeoutSecs.map Span.ofSecs⟩ read

lemma Source.exists_files {read : ReadFile} {ss : List Source} {cs : List Secondary}
    (h : List.Forall₂ (Source.Gives read) ss cs) :
    ∃ files : List FactFile, cs = files.map (·.secondary read) := by
  induction h with
  | nil => exact ⟨[], rfl⟩
  | cons hgives _ ih =>
    obtain ⟨ds, -, rfl⟩ := hgives
    obtain ⟨files, rfl⟩ := ih
    exact ⟨_ :: files, rfl⟩

namespace Config

variable {c : Config} {read : ReadFile} {archive : Option Archive} {t : Session}

structure Plans (c : Config) (read : ReadFile) (s : Session) : Prop where
  configured : ∃ es, Session.Configured c.settings none es s
  files : ∃ files : List FactFile, s.secondaries = files.map (·.secondary read)
  stage : s.stage = .configuring

/-- A session in the making. The primary collector, if there is one, has no budget of its own, and
each of the sources in `earlier` has its collector. -/
structure Staffed (c : Config) (read : ReadFile) (archive : Option Archive) (earlier : List Source)
    (s : Session) : Prop where
  configured : ∃ es, Session.Configured c.settings archive es s
  stage : s.stage = .configuring
  primary : ∀ p, s.primary = some p → p.timeout = none
  secondaries : List.Forall₂ (Source.Gives read) earlier s.secondaries

lemma Staffed.registerPrimary {earlier : List Source} {s s' : Session} {p : Primary}
    (h : Staffed c read archive earlier s) (hp : p.timeout = none)
    (hs : s.registerPrimary p = .ok s') : Staffed c read archive earlier s' := by
  obtain ⟨es, hes⟩ := h.configured
  refine ⟨⟨_, hes.enrol (e := .primary p) hs⟩, ?_, ?_, ?_⟩
  all_goals obtain ⟨-, registry, -, rfl⟩ := Session.registerPrimary_ok hs
  · exact h.stage
  · rintro _ ⟨⟩
    exact hp
  · exact h.secondaries

lemma Staffed.register {earlier : List Source} {source : Source} {s s' : Session}
    (h : Staffed c read archive earlier s) (hs : Source.register read s source = .ok s') :
    Staffed c read archive (earlier ++ [source]) s' := by
  obtain ⟨es, hes⟩ := h.configured
  unfold Source.register at hs
  split at hs
  · cases hs
  · next ds hds =>
    have hregister := mapError_eq_ok hs
    refine ⟨⟨_, hes.enrol (e := .secondary _) hregister⟩, ?_, ?_, ?_⟩
    all_goals obtain ⟨registry, -, rfl⟩ := Session.registerSecondary_ok hregister
    · exact h.stage
    · exact h.primary
    · exact List.rel_append h.secondaries (.cons ⟨ds, hds, rfl⟩ .nil)

lemma timeout_of_primaries {ps : List Primary} (h : c.primaries read archive = .ok ps) :
    ∀ p ∈ ps, p.timeout = none := by
  have hroster : ∀ p ∈ (c.roster.map fun r => r.primary read).toList, p.timeout = none := by
    cases c.roster <;> simp [Roster.primary]
  unfold primaries at h
  split at h
  · obtain rfl := Except.ok.inj h
    exact hroster
  · obtain rfl := Except.ok.inj h
    exact List.forall_mem_append.mpr ⟨hroster, List.forall_mem_singleton.mpr rfl⟩
  · cases h

/-- **The session of a configuration** has a collector for each of the sources, in their order. -/
theorem staffed_of_session (h : c.session read archive = .ok t) :
    Staffed c read archive c.sources t := by
  unfold session at h
  cases hp : c.primaries read archive with
  | error e => rw [hp] at h; cases h
  | ok ps =>
    have hstart : Staffed c read archive [] { Session.ofSettings c.settings with archive } :=
      ⟨⟨[], .fresh⟩, rfl, fun _ hnone => (by cases hnone), .nil⟩
    rw [hp] at h
    cases hfirst : (ps.foldlM Session.registerPrimary
        { Session.ofSettings c.settings with archive }).mapError Fault.schema with
    | error e => simp [bind, Except.bind, hfirst] at h
    | ok s =>
      simp only [bind, Except.bind, hfirst] at h
      have hs : Staffed c read archive [] s :=
        foldlM_inv (fun _ => Staffed c read archive []) []
          (fun _ s p hp' s' hs => hs.registerPrimary (timeout_of_primaries hp p hp'))
          hstart (mapError_eq_ok hfirst)
      exact foldlM_inv (Staffed c read archive) [] (fun _ s source _ s' hs => hs.register) hs h

/-- **A planned session** is configured, its secondary collectors add files, and it has not run. -/
theorem plans_of_session (h : c.session read none = .ok t) : Plans c read t := by
  have hstaffed := staffed_of_session h
  exact ⟨hstaffed.configured, Source.exists_files hstaffed.secondaries, hstaffed.stage⟩

lemma Plans.runs (h : Plans c read t) (today : CivilDate) (ids : IdSupply) :
    ∃ run, t.run today ids = .ok run := by
  simp only [Session.run, Session.sealRegistry, h.stage]
  exact ⟨_, rfl⟩

/-- **A configuration that makes sense**, as far as that shows without its files. -/
structure Sensible (c : Config) : Prop where
  timeout : c.timeoutSecs ≠ 0
  onePrimary : c.roster = none ∨ c.stored = none
  concurrency : c.maxConcurrency ≠ some 0
  attributes : ∀ s ∈ c.sources, s.attributes.isEmpty = false
  declarations : ∀ s ∈ c.sources, ∃ ds, s.declarations = .ok ds
  requirements : ∃ q, c.query.requirements = .ok q

lemma source_of_check {s : Source} (h : s.check = .ok ()) :
    s.attributes.isEmpty = false ∧ ∃ ds, s.declarations = .ok ds := by
  simp only [Source.check] at h
  split at h
  · cases h
  · next hsome =>
    split at h
    · cases h
    · next ds hds => exact ⟨by simpa using hsome, ds, hds⟩

lemma sensible_of_check (h : c.check = .ok ()) : c.Sensible := by
  simp only [check] at h
  split at h
  · cases h
  next htimeout =>
  split at h
  · cases h
  next hprimary =>
  split at h
  · cases h
  next hconcurrency =>
  cases hsources : c.sources.forM Source.check with
  | error e => rw [hsources] at h; cases h
  | ok u =>
    rw [hsources] at h
    have hall := forM_eq_ok hsources
    refine ⟨by simpa using htimeout, ?_, by simpa using hconcurrency,
      fun s hs => (source_of_check (hall s hs)).1, fun s hs => (source_of_check (hall s hs)).2, ?_⟩
    · cases hroster : c.roster <;> cases hstored : c.stored <;> simp_all
    · cases hq : c.query.requirements with
      | ok q => exact ⟨q, rfl⟩
      | error e => rw [hq] at h; cases h

/-- What is read from a text makes sense. -/
theorem sensible_of_ofText {s : String} (h : ofText s = .ok c) : c.Sensible := by
  unfold ofText at h
  split at h
  · cases h
  · next c' _ =>
    cases hcheck : c'.check with
    | error e => rw [hcheck] at h; cases h
    | ok u =>
      rw [hcheck] at h
      obtain rfl : c' = c := Except.ok.inj h
      exact sensible_of_check hcheck

lemma requirements_of_load {path : String} {content : Except FileError String}
    (h : Config.load path content = .ok c) : ∃ q, c.query.requirements = .ok q := by
  unfold Config.load at h
  split at h
  · cases h
  · next text =>
    cases hread : ofText text with
    | error e => rw [hread] at h; cases h
    | ok c' =>
      rw [hread] at h
      obtain rfl : ((Path.parent? path).map c'.relativeTo).getD c' = c := Except.ok.inj h
      have hquery : (((Path.parent? path).map c'.relativeTo).getD c').query = c'.query := by
        cases Path.parent? path <;> rfl
      rw [hquery]
      exact (sensible_of_ofText hread).requirements

end Config

end Dossier
