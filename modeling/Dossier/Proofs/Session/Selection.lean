import Dossier.Proofs.Session.Validity
import Dossier.Proofs.Store.Categories

/-!
Queries to reports. The store of a report is reached by calls, on whatever days they are made; so it
and its snapshots tell the same of every category, and whom a query finds in the report can be read
from the store.
-/

namespace Dossier

namespace Session

open Store (Built)

variable {s : Session} {today : CivilDate} {ids : IdSupply} {ms : List (CivilDate × Move)}
  {r : Report}

lemma built_opening (s : Session) (today : CivilDate) (ids : IdSupply) :
    Built s.registry (s.opening today ids).store :=
  holds_opening (fun w _ call h => h.call w today call) (fun _ ids i h => h.add ids i) s .start ids

lemma built_report (h : s.Reports today ids ms r) : Built r.registry r.store := by
  obtain ⟨s', -, h⟩ := h
  have hopen := s'.built_opening today ids
  have hbuilt : Built s'.registry r.store := by
    cases h with
    | skipped _ => exact hopen
    | enriched ms _ _ =>
      exact Crew.holds_schedule (c := s'.crew (s'.opening today ids).store)
        (fun w _ today call h => h.call w today call) hopen ms
  rwa [Report.registry, hbuilt.filed.registry]

/-- **The store tells what the individuals tell.** In every store that calls lead to, everyone has a
snapshot that agrees with the store on all categories, and a query finds those whom the store shows
to meet its requirements. The store of every report is such a store. -/
theorem store_tells :
    (∀ registry s, Built registry s →
      (∀ id ∈ s.ids, ∃ i, s.snapshot? id = some i ∧ s.Views id i) ∧
        ∀ q : Requirements, q.select s.registry s.individuals = s.answer q) ∧
      ∀ s : Session, ∀ today ids ms r, s.Reports today ids ms r →
        Built r.registry r.store ∧ ∀ q, r.select q = r.store.answer q := by
  refine ⟨fun registry s hs => ⟨fun id hid => ?_, hs.filed.select_eq⟩,
    fun s today ids ms r hr => ?_⟩
  · obtain ⟨e, he⟩ := Option.isSome_iff_exists.mp (Store.contains_iff.mpr hid)
    refine ⟨e.individual, ?_, hs.filed.views he⟩
    rw [Store.snapshot?, he, Option.map_some]
  · have hbuilt := built_report hr
    exact ⟨hbuilt, hbuilt.filed.select_eq⟩

/-- Who is known to live somewhere for certain. -/
def settled : Requirements := ⟨none, (∅ : SortedMap Category Reliability).insert .hometown .certain⟩

/-- The census finds its resident by the town, from the individuals and from the store. -/
theorem census_tells :
    ∃ (s : Session) (r : Report), Configured .default none [.primary census] s ∧
      s.Reports ⟨2024, 1, 1, by decide⟩ supply [] r ∧
        (∃ i, r.store.snapshot? residentId = some i ∧ r.store.Views residentId i) ∧
        r.store.answer settled = .ok r.individuals ∧ r.individuals ≠ [] ∧
        r.select settled = .ok r.individuals := by
  have hsession : ∃ s, Configured .default none [.primary census] s ∧
      ∃ r : Report, s.Reports ⟨2024, 1, 1, by decide⟩ supply [] r ∧ residentId ∈ r.store.ids ∧
        r.store.answer settled = .ok r.individuals ∧ r.individuals ≠ [] :=
    ⟨_, .enrol .fresh rfl, ⟨_, _, _⟩, ⟨_, rfl, .enriched [] rfl .nil⟩, by decide +kernel,
      by decide +kernel, by decide +kernel⟩
  obtain ⟨s, hs, r, hr, hid, hanswer, hsome⟩ := hsession
  obtain ⟨hbuilt, hselect⟩ := store_tells.2 s _ _ [] r hr
  exact ⟨s, r, hs, hr, (store_tells.1 _ _ hbuilt).1 residentId hid, hanswer, hsome,
    (hselect settled).trans hanswer⟩

end Session

end Dossier
