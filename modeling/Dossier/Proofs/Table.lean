import Dossier.Uuid
import Mathlib.Data.List.Nodup
import Mathlib.Data.Option.Basic
import Mathlib.Tactic.Lemma
import Mathlib.Tactic.Linarith

/-!
Tables that keep the order of their identifiers apart from their content. Whatever is put in,
identifiers and content stay in step, so a table reads like one list of pairs: a newcomer comes in
at its end, and who is there already is replaced in place.
-/

namespace Dossier

instance : Hashable Uuid := ⟨fun u => hash (u.digits.map (·.val))⟩

structure Table (α : Type) where
  order : List Uuid
  content : Std.HashMap Uuid α

namespace Table

variable {α : Type} {t : Table α} {id : Uuid} {a : α}

def empty : Table α := ⟨[], ∅⟩

def add (t : Table α) (id : Uuid) (a : α) : Table α := ⟨t.order ++ [id], t.content.insert id a⟩

def replace (t : Table α) (id : Uuid) (a : α) : Table α :=
  { t with content := t.content.insert id a }

def put (t : Table α) (id : Uuid) (a : α) : Table α :=
  if t.content.contains id then t.replace id a else t.add id a

def list (t : Table α) : List (Uuid × α) :=
  t.order.filterMap fun id => (t.content[id]?).map fun a => (id, a)

/-- Every identifier stands in the order once, and just those with some content do. -/
structure InStep (t : Table α) : Prop where
  nodup : t.order.Nodup
  same : ∀ id, id ∈ t.order ↔ id ∈ t.content

lemma inStep_empty : (empty : Table α).InStep := ⟨List.nodup_nil, fun _ => by simp [empty]⟩

lemma InStep.contains_eq (h : t.InStep) (id : Uuid) :
    t.content.contains id = decide (id ∈ t.order) := by
  rw [Bool.eq_iff_iff, decide_eq_true_iff, h.same]
  exact Std.HashMap.mem_iff_contains.symm

lemma content_put (t : Table α) (id : Uuid) (a : α) :
    (t.put id a).content = t.content.insert id a := by
  unfold put
  split <;> rfl

lemma InStep.order_put (h : t.InStep) (id : Uuid) (a : α) :
    (t.put id a).order = if id ∈ t.order then t.order else t.order ++ [id] := by
  simp only [put, h.contains_eq, decide_eq_true_eq]
  split <;> rfl

/-- **Content and order stay in step.** -/
theorem InStep.put (h : t.InStep) (id : Uuid) (a : α) : (t.put id a).InStep := by
  have horder := h.order_put id a
  refine ⟨?_, fun id' => ?_⟩
  · rw [horder]
    split
    · exact h.nodup
    · next hnew =>
      exact h.nodup.append (List.nodup_singleton id) (List.disjoint_singleton.mpr hnew)
  · have hcontent : id' ∈ (t.put id a).content ↔ id = id' ∨ id' ∈ t.order := by
      simp [content_put, h.same]
    rw [horder, hcontent]
    by_cases hin : id ∈ t.order
    · rw [if_pos hin]
      exact ⟨.inr, fun hor => hor.elim (fun heq => heq ▸ hin) fun hmem => hmem⟩
    · rw [if_neg hin, List.mem_append, List.mem_singleton, eq_comm, or_comm]

/-! ### A table as a list -/

lemma mem_list {p : Uuid × α} : p ∈ t.list ↔ p.1 ∈ t.order ∧ t.content[p.1]? = some p.2 := by
  obtain ⟨id, a⟩ := p
  simp only [list, List.mem_filterMap, Option.map_eq_some_iff, Prod.mk.injEq]
  constructor
  · rintro ⟨id', hmem, a', ha, rfl, rfl⟩
    exact ⟨hmem, ha⟩
  · rintro ⟨hmem, ha⟩
    exact ⟨id, hmem, a, ha, rfl, rfl⟩

lemma InStep.map_fst_list (h : t.InStep) : t.list.map (·.1) = t.order := by
  rw [list, List.map_filterMap]
  have hsome : ∀ id ∈ t.order, ((t.content[id]?).map fun a => (id, a)).map (·.1) = some id := by
    intro id hid
    obtain ⟨a, ha⟩ := Option.isSome_iff_exists.mp
      (Std.HashMap.isSome_getElem?_iff_mem.mpr ((h.same id).mp hid))
    rw [ha]
    rfl
  rw [List.filterMap_congr hsome, List.filterMap_some]

lemma InStep.find?_list (h : t.InStep) (id : Uuid) :
    t.list.find? (·.1 == id) = (t.content[id]?).map fun a => (id, a) := by
  cases ha : t.content[id]? with
  | none =>
    rw [Option.map_none, List.find?_eq_none]
    rintro ⟨id', a⟩ hp hid
    obtain rfl : id' = id := by simpa using hid
    simp [(mem_list.mp hp).2] at ha
  | some a =>
    have hmem : (id, a) ∈ t.list :=
      mem_list.mpr ⟨(h.same id).mpr (Std.HashMap.mem_iff_isSome_getElem?.mpr (by simp [ha])), ha⟩
    have hfound : (t.list.find? (·.1 == id)).isSome = true :=
      List.find?_isSome.mpr ⟨(id, a), hmem, beq_self_eq_true id⟩
    obtain ⟨p, hp⟩ := Option.isSome_iff_exists.mp hfound
    obtain rfl : p.1 = id := by simpa using List.find?_some hp
    have hsame := (mem_list.mp (List.mem_of_find?_eq_some hp)).2
    rw [hp, Option.map_some, ← Option.some.inj (hsame.symm.trans ha)]

lemma InStep.any_list (h : t.InStep) (id : Uuid) :
    t.list.any (·.1 == id) = decide (id ∈ t.order) := by
  rw [Bool.eq_iff_iff, decide_eq_true_iff, ← h.map_fst_list]
  simp

/-- **A table reads like a list.** -/
theorem InStep.list_put (h : t.InStep) (id : Uuid) (a : α) :
    (t.put id a).list = if t.list.any (·.1 == id)
      then t.list.map fun p => if p.1 == id then (id, a) else p
      else t.list ++ [(id, a)] := by
  have hother : ∀ id' ≠ id, (t.put id a).content[id']? = t.content[id']? := fun id' hne => by
    simp [content_put, Std.HashMap.getElem?_insert, hne.symm]
  have hself : (t.put id a).content[id]? = some a := by simp [content_put]
  rw [h.any_list, list, h.order_put]
  by_cases hin : id ∈ t.order
  · simp only [hin, if_true, decide_true, list, List.map_filterMap]
    refine List.filterMap_congr fun id' hmem => ?_
    by_cases hid : id' = id
    · obtain ⟨a', ha'⟩ := Option.isSome_iff_exists.mp
        (Std.HashMap.isSome_getElem?_iff_mem.mpr ((h.same id').mp hmem))
      subst hid
      rw [hself, ha']
      simp
    · rw [hother id' hid]
      cases t.content[id']? <;> simp [hid]
  · simp only [hin, if_false, decide_false, List.filterMap_append]
    refine congrArg₂ (· ++ ·) (List.filterMap_congr fun id' hmem => ?_) ?_
    · rw [hother id' fun heq => hin (heq ▸ hmem)]
    · simp [hself]

end Table

end Dossier
