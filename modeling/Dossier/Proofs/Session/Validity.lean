import Dossier.Proofs.Session.Enrolment
import Dossier.Proofs.Session.Opening
import Dossier.Proofs.Session.Reports
import Dossier.Proofs.Store.Validity
import Dossier.Proofs.Task

/-!
Reports hold nothing invalid. A session reaches its store through calls only: those that take the
individuals in, those that bring the primary's attributes, and those of the secondary collectors.
So whatever is reported was declared by a collector of the session, and fits.
-/

namespace Dossier

namespace Session

open Store (Reached)

/-- Each day is the same as the one before or a later one. -/
def Forward (days : List CivilDate) : Prop :=
  days.Pairwise fun day later => day.notAfter later = true

/-! ### The store of a session is reached by calls -/

variable {registry : Registry} {today : CivilDate} {ws : List (CivilDate × Write)} {st : Store}

lemma reached_opening (s : Session) (today : CivilDate) (ids : IdSupply) :
    ∃ ws, Reached s.registry today ws (s.opening today ids).store :=
  holds_opening (P := fun st => ∃ ws, Reached s.registry today ws st)
    (fun w _ call ⟨_, h⟩ => ⟨_, h.call w call⟩) (fun _ ids i ⟨ws, h⟩ => ⟨ws, h.add ids i⟩) s
    ⟨[], .start today⟩ ids

lemma reached_schedule {c : Crew} (h : Reached registry today ws c.store)
    (ms : List (CivilDate × Move)) (hms : Forward (today :: ms.map (·.1))) :
    ∃ day ws', (day ∈ today :: ms.map (·.1)) ∧ Reached registry day ws' (c.schedule ms).store := by
  induction ms generalizing c today ws with
  | nil => exact ⟨today, ws, List.mem_cons_self, h⟩
  | cons m ms ih =>
    obtain ⟨hfirst, hrest⟩ := List.pairwise_cons.mp hms
    have hlater : Reached registry m.1 ws c.store := h.later (hfirst m.1 List.mem_cons_self)
    have hstep : ∃ ws', Reached registry m.1 ws' (c.step m.1 m.2).store := by
      rcases c.store_step m.1 m.2 with hs | ⟨w, call, hs⟩
      · rw [hs]
        exact ⟨ws, hlater⟩
      · rw [hs]
        exact ⟨_, hlater.call w call⟩
    obtain ⟨ws', hstep⟩ := hstep
    obtain ⟨day, vs, hday, hreached⟩ := ih hstep hrest
    exact ⟨day, vs, List.mem_cons_of_mem _ hday, hreached⟩

lemma reached_report {s : Session} {today : CivilDate} {ids : IdSupply}
    {ms : List (CivilDate × Move)} {r : Report} (h : s.MayReport today ids ms r)
    (hms : Forward (today :: ms.map (·.1))) :
    ∃ day ws, (day ∈ today :: ms.map (·.1)) ∧ Reached s.registry day ws r.store := by
  obtain ⟨ws, hopen⟩ := s.reached_opening today ids
  cases h with
  | skipped _ => exact ⟨today, ws, List.mem_cons_self, hopen⟩
  | enriched ms _ _ =>
    exact reached_schedule (c := s.crew (s.opening today ids).store) hopen ms hms

/-- **Nothing invalid.** Stores that calls lead to are sound. So are those that keep order and
content apart: both stay in step, and are read like a store that calls lead to. And in every report
of a session each attribute is declared by one of the registered collectors, in the namespace of
that collector, and fits the category of its declaration, from the last day of the session on. -/
theorem nothing_invalid :
    (∀ registry today ws s, Reached registry today ws s → s.Sound registry today ws) ∧
      (∀ settings archive es s, Configured settings archive es s →
        ∀ today ids ms r, s.Reports today ids ms r → Forward (today :: ms.map (·.1)) →
          ∀ i ∈ r.individuals, ∀ k o, i.attributes.get? k = some o →
            ∃ e ∈ es, normalNamespace e.space = .ok k.space ∧
              ∃ c, Registry.IsDeclared k.space e.declarations k c ∧
                r.registry.resolve k = some c ∧
                ∀ day, (∀ d ∈ today :: ms.map (·.1), d.notAfter day = true) → o.Fits c day) ∧
      ∀ registry today l, Ledger.Reached registry today l → l.entries.InStep ∧
        ∃ ws s, Reached registry today ws s ∧ l.ReadsAs s := by
  refine ⟨fun _ _ _ _ h => h.sound, ?_, fun registry today l h => ?_⟩
  swap
  · obtain ⟨ws, s, ⟨hsound, rfl⟩, hs⟩ := h.keeps
    exact ⟨hsound.inStep, ws, _, hs, hsound.readsAs⟩
  intro settings archive es s hs today ids ms r hr hms i hi k o ho
  obtain ⟨s', hseal, hr⟩ := hr
  have hknows := (hs.sealRegistry hseal).knows
  obtain ⟨last, ws, hlast, hreached⟩ := reached_report hr hms
  have hb := hreached.backed
  obtain ⟨e, he, rfl⟩ := List.mem_map.mp hi
  obtain ⟨day, -, hday, c, hc, hfits⟩ := hb.held he ho
  obtain ⟨call, hcall, hn, hdecl⟩ := hknows.registry.isDeclared hc
  obtain ⟨e', he', rfl⟩ := List.mem_map.mp hcall
  refine ⟨e', he', hn, c, hdecl, ?_, fun d hd => ?_⟩
  · rw [← hb.registry] at hc
    exact hc
  · exact hfits.mono (CivilDate.notAfter_trans hday (hd last hlast))

/-! ### A primary collector that brings too much -/

def residentId : Uuid := ⟨List.replicate 32 ⟨1, by decide⟩, rfl⟩

/-- Of the two attributes that come with the individual, one was declared. -/
def census : Primary where
  space := "census"
  declarations := [⟨"town", .hometown⟩]
  timeout := none
  collect := .individuals [{ Person.named "Ann" "Lee" with
    id := some residentId
    attributes := ((∅ : SortedMap Key Observation).insert ⟨"census", "town"⟩
      ⟨.text "Oslo", .certain⟩).insert ⟨"fb", "age"⟩ ⟨.integer (-1), .certain⟩ }]

def supply : IdSupply := .fresh fun _ => residentId

/-- The town is in the report, and was declared; and a store that took a writer's call is sound, in
one structure or in two. -/
theorem census_valid :
    (∃ ws s, Reached .empty ⟨2024, 1, 1, by decide⟩ ws s ∧ s.ids ≠ [] ∧
      s.Sound .empty ⟨2024, 1, 1, by decide⟩ ws) ∧
    (∃ l, Ledger.Reached .empty ⟨2024, 1, 1, by decide⟩ l ∧ l.entries.order ≠ [] ∧
      l.entries.InStep) ∧
    ∃ (s : Session) (r : Report) (i : Individual),
      s.Reports ⟨2024, 1, 1, by decide⟩ supply [] r ∧ i ∈ r.individuals ∧
        i.attributes.get? ⟨"census", "town"⟩ = some ⟨.text "Oslo", .certain⟩ ∧
        ∃ c, Registry.IsDeclared "census" census.declarations ⟨"census", "town"⟩ c ∧
          Observation.Fits ⟨.text "Oslo", .certain⟩ c ⟨2024, 1, 1, by decide⟩ := by
  have hstore : ∃ ws s, Reached .empty ⟨2024, 1, 1, by decide⟩ ws s ∧ s.ids ≠ [] :=
    ⟨_, _, .call (.add (.start _) supply (.ofPerson (.named "Ann" "Lee") none)) (.ofNamespace "fb")
      (.putObservation residentId ⟨"fb", "age"⟩ ⟨.integer 40, .certain⟩), by decide⟩
  have hsession : ∃ s, Configured .default none [.primary census] s ∧
      ∃ (r : Report) (i : Individual), s.Reports ⟨2024, 1, 1, by decide⟩ supply [] r ∧
        i ∈ r.individuals ∧
        i.attributes.get? ⟨"census", "town"⟩ = some ⟨.text "Oslo", .certain⟩ :=
    ⟨_, .enrol .fresh rfl, ⟨_, _, _⟩, _, ⟨_, rfl, .enriched [] rfl .nil⟩, .head _, rfl⟩
  have hledger : ∃ l, Ledger.Reached .empty ⟨2024, 1, 1, by decide⟩ l ∧ l.entries.order ≠ [] :=
    ⟨_, .add (.start _) supply (.ofPerson (.named "Ann" "Lee") none), by
      simp [Ledger.addStep, Ledger.insert, Ledger.ofRegistry, Table.empty, Table.add]⟩
  obtain ⟨ws, st, hst, hne⟩ := hstore
  obtain ⟨l, hl, horder⟩ := hledger
  obtain ⟨s, hs, r, i, hr, hi, ho⟩ := hsession
  refine ⟨⟨ws, st, hst, hne, nothing_invalid.1 _ _ _ _ hst⟩,
    ⟨l, hl, horder, (nothing_invalid.2.2 _ _ _ hl).1⟩, s, r, i, hr, hi, ho, ?_⟩
  obtain ⟨e, he, -, c, hdecl, -, hfits⟩ :=
    nothing_invalid.2.1 _ _ _ s hs _ _ [] r hr (by simp [Forward]) i hi _ _ ho
  obtain rfl := List.mem_singleton.mp he
  exact ⟨c, hdecl, hfits _ (by simp [CivilDate.notAfter_refl])⟩

end Session

end Dossier
