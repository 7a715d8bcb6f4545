import Mathlib
import Dossier.Proofs.Session.Isolation
import Dossier.Proofs.Session.Outcomes
import Dossier.Proofs.Store.Narrowing

/-!
Sessions whose secondary collectors add files of facts. A collector that comes to its end has put
every fact of its file about somebody, one after the other, on the store as it opened. So if one
session opens with fewer individuals than another, and every fact is about the same individual in
both or about somebody who is missing in the first, then the first also ends with fewer individuals,
and of them it holds what the second holds.
-/

namespace Dossier

def Fact.call (id : Uuid) (f : Fact) : WriterCall := .put id f.localName f.value f.reliability

/-- The calls that put the facts for which an individual is found. -/
def Fact.calls (subject? : Fact → Option Uuid) (fs : List Fact) : List WriterCall :=
  fs.filterMap fun f => (subject? f).map fun id => f.call id

/-- The facts of a file. One that cannot be read has none. -/
def FactFile.facts (f : FactFile) (read : ReadFile) : List Fact :=
  match read f.path with
  | .error _ => []
  | .ok s => (Fact.listOfText? s).getD []

lemma FactFile.secondary_congr {f : FactFile} {read read' : ReadFile}
    (h : read f.path = read' f.path) : f.secondary read = f.secondary read' := by
  have hwork : f.work read = f.work read' := by
    funext is
    simp only [work, h]
  simp only [secondary, hwork]

/-- The collector did not run out of its budget. -/
def Outcome.InTime (o : Outcome) : Prop := ∀ budget, o.status ≠ .failed (.timeout budget)

lemma Outcome.inTime_of_success {os : List Outcome} {n : ℕ}
    (h : os.map (·.status) = List.replicate n .success) : ∀ o ∈ os, o.InTime := by
  intro o ho budget htimeout
  have hmem := List.mem_map_of_mem (f := Outcome.status) ho
  rw [h, htimeout] at hmem
  cases List.eq_of_mem_replicate hmem

/-! ### A file that is put to its end -/

namespace Task

variable {t : Task} {st : Store} {today : CivilDate} {days : List CivilDate}

lemma acts_putFacts {fs : List (Uuid × Fact)} (hrest : t.rest = some (.putFacts fs))
    (hstatus : t.status = none) (hdays : ∀ d ∈ days, d = today)
    (hend : (t.acts st days).1.status.isSome = true) :
    (t.acts st days).2 =
      (Session.performAll today t.writer st (fs.map fun f => f.2.call f.1)).2 := by
  induction days generalizing t st fs with
  | nil => simp [acts, hstatus] at hend
  | cons d days ih =>
    obtain rfl := hdays d List.mem_cons_self
    have hdays' : ∀ d' ∈ days, d' = d := fun d' hd' => hdays d' (List.mem_cons_of_mem d hd')
    cases fs with
    | nil =>
      have hact : t.act d st = (t.finish .success, st) := by
        simp only [act, hrest, Activity.putFacts]
      rw [acts_cons, hact, acts_of_over rfl]
      rfl
    | cons f fs =>
      obtain ⟨id, f⟩ := f
      have hact : t.act d st =
          t.answered (t.writer.perform st d (f.call id)) fun _ => .putFacts fs := by
        simp only [act, hrest, Activity.putFacts]
        rfl
      rw [acts_cons, hact] at hend ⊢
      exact ih rfl hstatus hdays' hend

/-- **A file that is put to its end** has put all its facts. -/
lemma acts_factFile {f : FactFile} {read : ReadFile} {is : List Individual}
    (hrest : t.rest = some (f.work read is)) (hstatus : t.status = none)
    (hdays : ∀ d ∈ days, d = today) (hend : (t.acts st days).1.status.isSome = true) :
    (t.acts st days).2 = (Session.performAll today t.writer st
      (Fact.calls (·.subject? is) (f.facts read))).2 := by
  cases days with
  | nil => simp [acts, hstatus] at hend
  | cons d days =>
    obtain rfl := hdays d List.mem_cons_self
    have hdays' : ∀ d' ∈ days, d' = d := fun d' hd' => hdays d' (List.mem_cons_of_mem d hd')
    have hfail : ∀ causes, t.rest = some (.fail causes) → (t.acts st (d :: days)).2 = st := by
      intro causes h
      rw [acts_cons, act, h, acts_of_over rfl]
    cases hread : read f.path with
    | error e =>
      simp only [FactFile.work, hread] at hrest
      simp only [hfail _ hrest, FactFile.facts, hread]
      rfl
    | ok s =>
      cases hfacts : Fact.listOfText? s with
      | none =>
        simp only [FactFile.work, hread, hfacts] at hrest
        simp only [hfail _ hrest, FactFile.facts, hread, hfacts]
        rfl
      | some facts =>
        simp only [FactFile.work, hread, hfacts] at hrest
        obtain ⟨t', ht', hact⟩ : ∃ t' : Task, t' = { t with
            isReady := true
            rest := some (.putFacts (facts.filterMap fun fact =>
              (fact.subject? is).map fun id => (id, fact))) } ∧ t.act d st = (t', st) :=
          ⟨_, rfl, by simp only [act, hrest]⟩
        rw [acts_cons, hact] at hend ⊢
        rw [acts_putFacts (by rw [ht']) (by rw [ht', hstatus]) hdays' hend, ht']
        simp only [FactFile.facts, hread, hfacts, Option.getD_some, Fact.calls, List.map_filterMap,
          Option.map_map, Function.comp_def]

end Task

namespace Session

/-! ### Facts on a narrowed store -/

variable {p : Person → Bool} {st full : Store} {today : CivilDate}

lemma isClosed_put (w : Writer) (s : Store) (today : CivilDate) (id : Uuid) (f : Fact) :
    (w.perform s today (f.call id)).writer.isClosed = w.isClosed := by
  simp only [Fact.call, Writer.perform, Writer.put]
  split
  · rfl
  · split
    · rfl
    · split
      · rfl
      · generalize s.put today id _ _ = answer
        cases answer <;> rfl

lemma id_of_request? {w : Writer} {id : Uuid} {f : Fact} {a : Write}
    (h : w.request? (f.call id) = some (.ok a)) : a.id = id := by
  simp only [Fact.call, Writer.request?] at h
  split at h <;> cases h
  rfl

/-- Every fact is about the same individual for both, or about somebody who is not in the narrowed
store. -/
def SubjectsAgree (st : Store) (subject? full? : Fact → Option Uuid) : Prop :=
  ∀ f, subject? f = full? f ∨ subject? f = none ∧ ∀ id, full? f = some id → id ∉ st.ids

lemma performAll_narrows {subject? full? : Fact → Option Uuid} {w v : Writer}
    (h : Store.Narrows p st full) (hsubjects : SubjectsAgree st subject? full?)
    (hspace : w.space = v.space) (hopen : w.isClosed = v.isClosed) (today : CivilDate)
    (fs : List Fact) :
    Store.Narrows p (performAll today w st (Fact.calls subject? fs)).2
      (performAll today v full (Fact.calls full? fs)).2 := by
  induction fs generalizing w v st full with
  | nil => exact h
  | cons f fs ih =>
    rcases hsubjects f with heq | ⟨hnone, hout⟩
    · -- the fact is put into both stores, or into neither
      cases hf : full? f with
      | none =>
        rw [hf] at heq
        simpa only [Fact.calls, List.filterMap_cons, heq, hf, Option.map_none] using
          ih h hsubjects hspace hopen
      | some id =>
        rw [hf] at heq
        have hsubjects' : SubjectsAgree (w.perform st today (f.call id)).store subject? full? := by
          rw [SubjectsAgree, ids_perform]
          exact hsubjects
        have hspace' : (w.perform st today (f.call id)).writer.space =
            (v.perform full today (f.call id)).writer.space := by
          rw [Writer.space_perform, Writer.space_perform, hspace]
        have hopen' : (w.perform st today (f.call id)).writer.isClosed =
            (v.perform full today (f.call id)).writer.isClosed := by
          rw [isClosed_put, isClosed_put, hopen]
        simpa only [Fact.calls, List.filterMap_cons, heq, hf, Option.map_some, performAll] using
          ih (h.perform hspace hopen today (f.call id)) hsubjects' hspace' hopen'
    · cases hf : full? f with
      | none =>
        simpa only [Fact.calls, List.filterMap_cons, hnone, hf, Option.map_none] using
          ih h hsubjects hspace hopen
      | some id =>
        have hfull : Store.Narrows p st (v.perform full today (f.call id)).store :=
          h.perform_out today fun a ha => id_of_request? ha ▸ hout id hf
        have hspace' : w.space = (v.perform full today (f.call id)).writer.space := by
          rw [Writer.space_perform, hspace]
        have hopen' : w.isClosed = (v.perform full today (f.call id)).writer.isClosed := by
          rw [isClosed_put, hopen]
        simpa only [Fact.calls, List.filterMap_cons, hnone, hf, Option.map_none, Option.map_some,
          performAll] using ih hfull hsubjects hspace' hopen'

/-! ### Reports -/

variable {settings settings' : Settings} {archive archive' : Option Archive}
  {es es' : List Enrolment} {s s' : Session} {ids ids' : IdSupply} {files : List FactFile}
  {read : ReadFile} {ms ms' : List Move} {r r' : Report} {i : ℕ} {f : FactFile}

def onDay (today : CivilDate) (ms : List Move) : List (CivilDate × Move) :=
  ms.map fun m => (today, m)

lemma callDays_onDay (i : ℕ) (today : CivilDate) (ms : List Move) :
    ∀ d ∈ Crew.callDays i (onDay today ms), d = today := by
  intro d hd
  obtain ⟨m, hm, hday⟩ := List.mem_filterMap.mp hd
  obtain ⟨m', -, rfl⟩ := List.mem_map.mp hm
  cases m' with
  | act j =>
    simp only at hday
    split at hday <;> simp_all
  | expire j => cases hday

lemma length_secondaries {days : List (CivilDate × Move)} (hr : s.MayReport today ids days r) :
    r.secondaries.length = s.secondaries.length := by
  cases hr with
  | skipped _ => simp
  | enriched _ _ hsettles =>
    rw [← hsettles.length_eq, ← (s.worksIn_schedule _ days).length_eq]

/-- **What a file leaves behind** in its namespace is what its facts come to, put one after the
other into the store as it opened. -/
lemma report_factFile (h : Knows settings archive es s)
    (hs : s.secondaries = files.map (·.secondary read)) (hi : files[i]? = some f)
    (hempty : (s.opening today ids).store.isEmpty = false)
    (hr : s.MayReport today ids (onDay today ms) r) (hin : ∀ o ∈ r.secondaries, o.InTime) :
    Store.Agree (Within (runningNamespace f.space)) r.store
      (performAll today (.ofNamespace (runningNamespace f.space)) (s.opening today ids).store
        (Fact.calls (·.subject? (s.opening today ids).store.individuals) (f.facts read))).2 := by
  have hc : s.secondaries[i]? = some (f.secondary read) := by
    rw [hs, List.getElem?_map, hi, Option.map_some]
  have hn : normalNamespace (f.secondary read).space = .ok (runningNamespace f.space) :=
    h.normal_secondary (List.mem_of_getElem? hc)
  obtain ⟨o, ho⟩ : ∃ o, r.secondaries[i]? = some o := by
    obtain ⟨hlt, -⟩ := List.getElem?_eq_some_iff.mp hc
    exact ⟨_, List.getElem?_eq_getElem ((length_secondaries hr).symm ▸ hlt)⟩
  obtain ⟨hsettles, hstore⟩ := report_alone h hc hn (fun is => f.private_work read is _)
    (.refl _ _) hempty hr ho (hin o (List.mem_of_getElem? ho))
  have hput := Task.acts_factFile (t := s.starting (f.secondary read) (s.opening today ids).store)
    rfl rfl (callDays_onDay i today ms) (by rw [hsettles.status]; rfl)
  rwa [hput] at hstore

lemma report_unowned (h : Knows settings archive es s) {days : List (CivilDate × Move)}
    (hr : s.MayReport today ids days r) :
    Store.Agree (fun k => ∀ c ∈ s.secondaries, runningNamespace c.space ≠ k.space)
      (s.opening today ids).store r.store := by
  cases hr with
  | skipped _ => exact .refl _ _
  | enriched _ _ _ =>
    refine ((crew_apart h _).agree_schedule days).mono fun k hk i hi => ?_
    rw [spaceAt?_crew h] at hi
    obtain ⟨c, hc, hspace⟩ := Option.map_eq_some_iff.mp hi
    exact hk c (List.mem_of_getElem? hc) hspace

/-- **A report is narrowed as its opening was**, if the same files are added and their facts are
about the same individuals. -/
theorem report_narrows (h : Knows settings archive es s) (h' : Knows settings' archive' es' s')
    (hs : s.secondaries = files.map (·.secondary read))
    (hs' : s'.secondaries = files.map (·.secondary read))
    (hopening : Store.Narrows p (s.opening today ids).store (s'.opening today ids').store)
    (hsubjects : SubjectsAgree (s.opening today ids).store
      (·.subject? (s.opening today ids).store.individuals)
      (·.subject? (s'.opening today ids').store.individuals))
    (hr : s.MayReport today ids (onDay today ms) r)
    (hr' : s'.MayReport today ids' (onDay today ms') r')
    (hin : ∀ o ∈ r.secondaries, o.InTime) (hin' : ∀ o ∈ r'.secondaries, o.InTime) :
    Store.Narrows p r.store r'.store := by
  have hregistry : ∀ k, r.store.registry.resolve k = r'.store.registry.resolve k := by
    intro k
    have hk := hopening.registry k
    rw [registry_opening, registry_opening] at hk
    show r.registry.resolve k = r'.registry.resolve k
    rw [registry_report hr, registry_report hr', hk]
  have hunowned := (report_unowned h hr).entries
  have hunowned' := (report_unowned h' hr').entries.filter p
  rw [hs] at hunowned
  rw [hs', ← hopening.entries] at hunowned'
  refine ⟨hregistry, ?_⟩
  cases hempty : (s.opening today ids).store.isEmpty with
  | true =>
    -- nobody is there, and nobody who passes the test is there in the other session
    rw [Store.isEmpty, List.isEmpty_iff] at hempty
    rw [hempty] at hunowned hunowned'
    rw [List.forall₂_nil_left_iff.mp hunowned, List.forall₂_nil_left_iff.mp hunowned']
  | false =>
    have hempty' : (s'.opening today ids').store.isEmpty = false := by
      rw [Store.isEmpty, List.isEmpty_eq_false_iff] at hempty ⊢
      intro hnone
      rw [hopening.entries, hnone] at hempty
      exact hempty rfl
    refine EntriesAgree.eq_of_cover fun k => ?_
    by_cases hk : ∃ f ∈ files, runningNamespace f.space = k.space
    · -- the namespace of a file holds what the facts of the file come to
      obtain ⟨f, hf, hspace⟩ := hk
      obtain ⟨i, hi⟩ := List.mem_iff_getElem?.mp hf
      have hfile := (report_factFile h hs hi hempty hr hin).entries
      have hfile' := (report_factFile h' hs' hi hempty' hr' hin').entries
      have hperformed := performAll_narrows (w := .ofNamespace (runningNamespace f.space))
        hopening hsubjects rfl rfl today (f.facts read)
      rw [hperformed.entries] at hfile
      exact ⟨_, hspace.symm, hfile.trans (hfile'.filter p).symm⟩
    · refine ⟨_, fun c hc hspace => hk ?_, hunowned.symm.trans hunowned'⟩
      obtain ⟨f, hf, rfl⟩ := List.mem_map.mp hc
      exact ⟨f, hf, hspace⟩

/-- **The order does not matter**: once every file is put in time, on one day, a session ends with
the same store whatever happened in between. -/
theorem report_store_eq (h : Knows settings archive es s)
    (hs : s.secondaries = files.map (·.secondary read))
    (hr : s.MayReport today ids (onDay today ms) r)
    (hr' : s.MayReport today ids (onDay today ms') r') (hin : ∀ o ∈ r.secondaries, o.InTime)
    (hin' : ∀ o ∈ r'.secondaries, o.InTime) : r.store = r'.store := by
  have hopening : Store.Narrows (fun _ => true) (s.opening today ids).store
      (s.opening today ids).store := ⟨fun _ => rfl, (List.filter_true _).symm⟩
  have hnarrows := report_narrows h h hs hs hopening (fun _ => .inl rfl) hr hr' hin hin'
  have hentries : r.store.entries = r'.store.entries := by
    rw [hnarrows.entries, List.filter_true]
  have hregistry : r.store.registry = r'.store.registry :=
    (registry_report hr).trans (registry_report hr').symm
  exact congrArg₂ Store.mk hregistry hentries

end Session

end Dossier
