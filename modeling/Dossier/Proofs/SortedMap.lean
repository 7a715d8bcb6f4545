import Dossier.SortedMap
import Mathlib.Data.List.Nodup

/-!
Maps through their look-up. What a map holds is settled by `get?`: an insertion changes it at one
key, the list of a map holds exactly what it finds, and two maps that find the same are equal.
-/

namespace Dossier.SortedMap

variable {κ ν : Type} [Ord κ]

@[simp] lemma get?_empty (k : κ) : (∅ : SortedMap κ ν).get? k = none := rfl

/-! ### Lists of pairs -/

variable [Std.LawfulEqOrd κ]

lemma lookup_cons_self (k : κ) (v : ν) (es : List (κ × ν)) : lookup k ((k, v) :: es) = some v := by
  simp [lookup]

lemma lookup_cons_of_ne {k a : κ} (h : k ≠ a) (v : ν) (es : List (κ × ν)) :
    lookup k ((a, v) :: es) = lookup k es := by
  simp [lookup, h]

lemma lookup_place [DecidableEq κ] (k a : κ) (v : ν) (es : List (κ × ν)) :
    lookup a (place k v es) = if a = k then some v else lookup a es := by
  induction es with
  | nil => simp [place, lookup]
  | cons e es ih =>
    obtain ⟨b, w⟩ := e
    simp only [place]
    split
    next hlt => simp [lookup]
    next heq =>
      obtain rfl : k = b := Std.LawfulEqCmp.eq_of_compare heq
      by_cases h : a = k <;> simp [lookup, h]
    next hgt =>
      have hne : k ≠ b := by rintro rfl; simp at hgt
      by_cases h : a = b
      · subst h; simp [lookup, Ne.symm hne]
      · simpa [lookup, h] using ih

lemma mem_of_lookup {k : κ} {v : ν} {es : List (κ × ν)} (h : lookup k es = some v) :
    (k, v) ∈ es := by
  induction es with
  | nil => simp [lookup] at h
  | cons e es ih =>
    obtain ⟨a, w⟩ := e
    by_cases ha : k = a
    · subst ha
      rw [lookup_cons_self] at h
      cases h
      exact List.mem_cons_self
    · rw [lookup_cons_of_ne ha] at h
      exact List.mem_cons_of_mem _ (ih h)

lemma lookup_of_mem {k : κ} {v : ν} {es : List (κ × ν)} (hn : (es.map (·.1)).Nodup)
    (h : (k, v) ∈ es) : lookup k es = some v := by
  induction es with
  | nil => cases h
  | cons e es ih =>
    obtain ⟨a, w⟩ := e
    obtain ⟨ha, hn⟩ := List.nodup_cons.mp hn
    rcases List.mem_cons.mp h with he | he
    · cases he
      exact lookup_cons_self k v es
    · have hne : k ≠ a := by rintro rfl; exact ha (List.mem_map_of_mem (f := (·.1)) he)
      rw [lookup_cons_of_ne hne]
      exact ih hn he

lemma lookup_eq_none_iff {k : κ} {es : List (κ × ν)} :
    lookup k es = none ↔ k ∉ es.map (·.1) := by
  induction es with
  | nil => simp [lookup]
  | cons e es ih =>
    obtain ⟨a, w⟩ := e
    by_cases h : k = a
    · subst h; simp [lookup]
    · rw [lookup_cons_of_ne h, ih]; simp [h]

lemma lookup_append (k : κ) (es fs : List (κ × ν)) :
    lookup k (es ++ fs) = (lookup k es).or (lookup k fs) := by
  induction es with
  | nil => rfl
  | cons e es ih =>
    obtain ⟨a, w⟩ := e
    by_cases h : k = a
    · subst h; simp [lookup]
    · simpa [lookup, h] using ih

/-- Where only one key counts, the value under it is all that counts. -/
lemma filterMap_of_key {α : Type} {f : κ × ν → Option α} {k : κ}
    {es : List (κ × ν)} (hn : (es.map (·.1)).Nodup) (h : ∀ e ∈ es, e.1 ≠ k → f e = none) :
    es.filterMap f = ((lookup k es).bind fun v => f (k, v)).toList := by
  induction es with
  | nil => rfl
  | cons e es ih =>
    obtain ⟨a, w⟩ := e
    obtain ⟨hnew, hn⟩ := List.nodup_cons.mp hn
    obtain ⟨hhead, htail⟩ := List.forall_mem_cons.mp h
    by_cases ha : k = a
    · subst ha
      have hrest : es.filterMap f = [] := by
        refine List.filterMap_eq_nil_iff.mpr fun e he => htail e he fun hk => hnew ?_
        exact hk ▸ List.mem_map_of_mem (f := (·.1)) he
      rw [List.filterMap_cons, hrest, lookup_cons_self, Option.bind_some]
      cases f (k, w) <;> rfl
    · rw [List.filterMap_cons, hhead (Ne.symm ha), lookup_cons_of_ne ha]
      exact ih hn htail

/-! ### Maps -/

lemma nodup_keys (m : SortedMap κ ν) : m.keys.Nodup := by
  refine List.Pairwise.map _ (fun a b h => ?_) m.increasing
  intro hab
  rw [hab] at h
  simp at h

lemma mem_toList_iff (m : SortedMap κ ν) {k : κ} {v : ν} :
    (k, v) ∈ m.toList ↔ m.get? k = some v :=
  ⟨lookup_of_mem m.nodup_keys, mem_of_lookup⟩

lemma mem_keys_iff (m : SortedMap κ ν) {k : κ} : k ∈ m.keys ↔ ∃ v, m.get? k = some v := by
  simp [keys, ← mem_toList_iff, toList]

lemma get?_filter_eq_some_iff (m : SortedMap κ ν) (p : κ → ν → Bool) {k : κ} {v : ν} :
    (m.filter p).get? k = some v ↔ m.get? k = some v ∧ p k v = true := by
  rw [← mem_toList_iff, ← mem_toList_iff]
  exact List.mem_filter

variable [Std.TransOrd κ]

lemma get?_insert [DecidableEq κ] (m : SortedMap κ ν) (k a : κ) (v : ν) :
    (m.insert k v).get? a = if a = k then some v else m.get? a :=
  lookup_place k a v m.entries

lemma get?_insert_of_ne (m : SortedMap κ ν) {k a : κ} (h : a ≠ k) (v : ν) :
    (m.insert k v).get? a = m.get? a := by
  classical
  rw [get?_insert, if_neg h]

lemma get?_insertAll (m : SortedMap κ ν) (es : List (κ × ν)) (k : κ) :
    (m.insertAll es).get? k = (lookup k es.reverse).or (m.get? k) := by
  classical
  induction es generalizing m with
  | nil => rfl
  | cons e es ih =>
    have hstep : m.insertAll (e :: es) = (m.insert e.1 e.2).insertAll es := rfl
    rw [hstep, ih, List.reverse_cons, lookup_append, get?_insert]
    by_cases h : k = e.1
    · simp [h, lookup]
    · simp [h, lookup]

lemma get?_insertAll_eq_some_iff (m : SortedMap κ ν) {es : List (κ × ν)}
    (hn : (es.map (·.1)).Nodup) {k : κ} {v : ν} :
    (m.insertAll es).get? k = some v ↔
      (k, v) ∈ es ∨ k ∉ es.map (·.1) ∧ m.get? k = some v := by
  have hn' : (es.reverse.map (·.1)).Nodup := by
    rw [List.map_reverse]
    exact List.nodup_reverse.mpr hn
  have hfound : lookup k es.reverse = some v ↔ (k, v) ∈ es :=
    ⟨fun h => List.mem_reverse.mp (mem_of_lookup h),
      fun h => lookup_of_mem hn' (List.mem_reverse.mpr h)⟩
  rw [get?_insertAll, Option.or_eq_some_iff, lookup_eq_none_iff, hfound, List.map_reverse,
    List.mem_reverse]

lemma get?_ofList_eq_some_iff {es : List (κ × ν)} (hn : (es.map (·.1)).Nodup) {k : κ} {v : ν} :
    (ofList es).get? k = some v ↔ (k, v) ∈ es := by
  have hempty : (empty : SortedMap κ ν).get? k = none := rfl
  simp [ofList, get?_insertAll_eq_some_iff _ hn, hempty]

/-- **Extensionality**: maps that find the same under every key are equal. -/
theorem ext_get? {m n : SortedMap κ ν} (h : ∀ k, m.get? k = n.get? k) : m = n := by
  have hperm : m.entries.Perm n.entries := by
    have hm : m.entries.Nodup := List.Nodup.of_map _ m.nodup_keys
    have hn : n.entries.Nodup := List.Nodup.of_map _ n.nodup_keys
    refine (List.perm_ext_iff_of_nodup hm hn).mpr fun e => ?_
    rw [show e ∈ m.entries ↔ _ from m.mem_toList_iff, h, ← n.mem_toList_iff]
    rfl
  have hlist : m.entries = n.entries := by
    refine hperm.eq_of_pairwise (fun a b _ _ hab hba => ?_) m.increasing n.increasing
    exact absurd hba (Std.OrientedCmp.not_lt_of_lt hab)
  cases m; cases n; simp_all

end Dossier.SortedMap
