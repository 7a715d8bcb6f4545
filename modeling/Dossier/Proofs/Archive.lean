import Dossier.Archive
import Mathlib.Data.List.Nodup
import Mathlib.Data.Option.Basic

/-!
What an archive that never fails holds. Everybody is in it under the identifier that they carry, and
nobody twice; who is stored under a new identifier comes in at the end, and the others stay as they
are.
-/

namespace Dossier.Archive

variable {people : List (Uuid × Individual)} {id : Uuid} {i : Individual} {a a' : Archive}
  {ids : IdSupply}

/-! ### Versions -/

lemma keep_of_new (h : id ∉ people.map (·.1)) (i : Individual) :
    keep people id i = people ++ [(id, i)] := by
  have hnone : (people.any fun p => p.1 == id) = false := by
    simp only [List.any_eq_false, beq_iff_eq]
    intro p hp hid
    exact h (List.mem_map.mpr ⟨p, hp, hid⟩)
  simp [keep, hnone]

lemma map_fst_keep (people : List (Uuid × Individual)) (id : Uuid) (i : Individual) :
    (keep people id i).map (·.1) =
      if id ∈ people.map (·.1) then people.map (·.1) else people.map (·.1) ++ [id] := by
  by_cases h : id ∈ people.map (·.1)
  · have hany : (people.any fun p => p.1 == id) = true := by
      obtain ⟨p, hp, rfl⟩ := List.mem_map.mp h
      exact List.any_eq_true.mpr ⟨p, hp, beq_self_eq_true p.1⟩
    rw [if_pos h, keep, if_pos hany, List.map_map]
    refine List.map_congr_left fun p _ => ?_
    simp only [Function.comp_apply]
    split
    · next hid => exact (beq_iff_eq.mp hid).symm
    · rfl
  · rw [if_neg h, keep_of_new h]
    simp

lemma mem_keep {p : Uuid × Individual} (h : p ∈ keep people id i) :
    p = (id, i) ∨ p ∈ people ∧ p.1 ≠ id := by
  unfold keep at h
  split at h
  · obtain ⟨q, hq, rfl⟩ := List.mem_map.mp h
    split
    · exact .inl rfl
    · next hne => exact .inr ⟨hq, by simpa using hne⟩
  · next hnone =>
    rcases List.mem_append.mp h with hp | hp
    · exact .inr ⟨hp, fun hid => hnone (List.any_eq_true.mpr ⟨p, hp, by simpa using hid⟩)⟩
    · exact .inl (List.mem_singleton.mp hp)

/-! ### Storing -/

lemma persist_of_lasting (h : a.failure = none) (ids : IdSupply) (i : Individual) :
    a.persist ids i =
      (.ok (⟨keep a.people (ids.complete i.id).1 { i with id := some (ids.complete i.id).1 }, none⟩,
        { i with id := some (ids.complete i.id).1 }), (ids.complete i.id).2) := by
  simp [persist, h]

inductive Kept : Archive → Prop where
  | empty : Kept .empty
  | persist {a a' : Archive} {ids : IdSupply} {i j : Individual} (h : Kept a)
      (hp : (a.persist ids i).1 = .ok (a', j)) : Kept a'

/-- Everybody is stored under their own identifier, and nobody twice. -/
structure Sound (a : Archive) : Prop where
  lasting : a.failure = none
  own : ∀ p ∈ a.people, p.2.id = some p.1
  apart : (a.people.map (·.1)).Nodup

lemma Sound.nodup_load (h : a.Sound) (f : Filter) : ((a.load f).map (·.id)).Nodup := by
  have hids : (a.people.map (·.2)).map (·.id) = (a.people.map (·.1)).map some := by
    rw [List.map_map, List.map_map]
    exact List.map_congr_left h.own
  have hnodup : ((a.people.map (·.2)).map (·.id)).Nodup :=
    hids ▸ h.apart.map (Option.some_injective Uuid)
  exact hnodup.sublist (List.filter_sublist.map _)

lemma Sound.keep (h : a.Sound) (hid : i.id = some id) :
    Sound ⟨Archive.keep a.people id i, none⟩ := by
  refine ⟨rfl, fun p hp => ?_, ?_⟩
  · rcases mem_keep hp with rfl | ⟨hp, -⟩
    · exact hid
    · exact h.own p hp
  · rw [map_fst_keep]
    split
    · exact h.apart
    · next hnew =>
      exact h.apart.append (List.nodup_singleton _) (List.disjoint_singleton.mpr hnew)

lemma Sound.persist (h : a.Sound) {j : Individual} (hp : (a.persist ids i).1 = .ok (a', j)) :
    a'.Sound := by
  rw [persist_of_lasting h.lasting] at hp
  obtain ⟨rfl, rfl⟩ := Prod.mk.inj (Except.ok.inj hp)
  exact h.keep rfl

theorem Kept.sound (h : a.Kept) : a.Sound := by
  induction h with
  | empty => exact ⟨rfl, fun _ hp => absurd hp List.not_mem_nil, List.nodup_nil⟩
  | persist _ hp ih => exact ih.persist hp

end Dossier.Archive
