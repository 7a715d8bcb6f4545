import Mathlib
import Dossier.Key

/-!
Normal forms of namespaces. Whatever a namespace is normalised to is normal itself, so that no
later conversion changes it, and a key lies in the normal form of the namespace it was made for.
-/

namespace Dossier

open Text

lemma isBlank_of_isWordChar {c : Char} (h : isWordChar c = true) : isBlank c = false := by
  simp only [isWordChar, Char.isAlphanum, Char.isAlpha, Char.isUpper, Char.isLower, Char.isDigit,
    Bool.or_eq_true, Bool.and_eq_true, decide_eq_true_eq, ge_iff_le, UInt32.le_iff_toNat_le] at h
  change ((65 ≤ c.toNat ∧ c.toNat ≤ 90) ∨ (97 ≤ c.toNat ∧ c.toNat ≤ 122)) ∨
    (48 ≤ c.toNat ∧ c.toNat ≤ 57) at h
  simp only [isBlank, blankRanges, List.any_cons, List.any_nil, Bool.or_eq_false_iff,
    Bool.and_eq_false_iff, decide_eq_false_iff_not]
  refine ⟨?_, ?_, ?_, ?_, ?_, ?_, ?_, ?_, ?_, ?_, trivial⟩ <;> omega

lemma isWordChar_toLower {c : Char} (h : isWordChar c = true) : isWordChar c.toLower = true := by
  by_cases hu : c.isUpper = true
  · have hl : c.toLower.isLower = true := by simp [Char.isAlpha, hu]
    simp [isWordChar, Char.isAlphanum, Char.isAlpha, hl]
  · rwa [Char.toLower_eq_of_not_isUpper hu]

lemma trimStart_eq_self {cs : List Char} (h : ∀ c ∈ cs, isBlank c = false) :
    trimStart cs = cs := by
  cases cs with
  | nil => rfl
  | cons c cs => simp [trimStart, h c List.mem_cons_self]

lemma trimChars_eq_self {cs : List Char} (h : ∀ c ∈ cs, isBlank c = false) :
    trimChars cs = cs := by
  have hr : cs.reverse.dropWhile isBlank = cs.reverse :=
    trimStart_eq_self fun c hc => h c (List.mem_reverse.mp hc)
  rw [trimChars, trimStart_eq_self h, trimEnd, hr, List.reverse_reverse]

/-- A namespace that normalising leaves as it is. -/
def IsNormal (n : String) : Prop := normalNamespace n = .ok n

lemma normalNamespace_eq_ok {s n : String} (h : normalNamespace s = .ok n) :
    trimChars s.toList ≠ [] ∧ (∀ c ∈ trimChars s.toList, isWordChar c = true) ∧
      n = lower (String.ofList (trimChars s.toList)) := by
  simp only [normalNamespace] at h
  split at h
  · next ht =>
    simp only [Bool.and_eq_true, Bool.not_eq_true', List.isEmpty_eq_false_iff,
      List.all_eq_true] at ht
    exact ⟨ht.1, ht.2, (Except.ok.inj h).symm⟩
  · cases h

lemma isNormal_of_normalNamespace {s n : String} (h : normalNamespace s = .ok n) : IsNormal n := by
  obtain ⟨hne, hw, rfl⟩ := normalNamespace_eq_ok h
  set t := trimChars s.toList
  have hl : (lower (String.ofList t)).toList = t.map Char.toLower := by simp [lower]
  have hw' : ∀ c ∈ t.map Char.toLower, isWordChar c = true := by
    intro c hc
    obtain ⟨d, hd, rfl⟩ := List.mem_map.mp hc
    exact isWordChar_toLower (hw d hd)
  have ht : trimChars (t.map Char.toLower) = t.map Char.toLower :=
    trimChars_eq_self fun c hc => isBlank_of_isWordChar (hw' c hc)
  have hall : (t.map Char.toLower).all isWordChar = true := List.all_eq_true.mpr hw'
  have hemp : (t.map Char.toLower).isEmpty = false := by simpa using hne
  rw [IsNormal, normalNamespace, hl, ht, hall, hemp]
  simp [lower, Function.comp_def]

lemma IsNormal.lower_eq {n : String} (h : IsNormal n) : lower n = n := by
  obtain ⟨-, -, hn⟩ := normalNamespace_eq_ok h
  rw [hn]
  simp [lower, Function.comp_def]

/-! ### Lower case without trimming -/

lemma isBlank_toLower (c : Char) : isBlank c.toLower = isBlank c := by
  by_cases hu : c.isUpper = true
  · have hw : isWordChar c = true := by simp [isWordChar, Char.isAlphanum, Char.isAlpha, hu]
    rw [isBlank_of_isWordChar hw, isBlank_of_isWordChar (isWordChar_toLower hw)]
  · rw [Char.toLower_eq_of_not_isUpper hu]

lemma trimChars_map_toLower (cs : List Char) :
    trimChars (cs.map Char.toLower) = (trimChars cs).map Char.toLower := by
  have hblank : isBlank ∘ Char.toLower = isBlank := funext isBlank_toLower
  simp only [trimChars, trimStart, trimEnd, List.dropWhile_map, ← List.map_reverse, hblank]

lemma normalNamespace_lower {s n : String} (h : normalNamespace s = .ok n) :
    normalNamespace (lower s) = .ok n := by
  obtain ⟨hne, hw, rfl⟩ := normalNamespace_eq_ok h
  have ht : trimChars (lower s).toList = (trimChars s.toList).map Char.toLower := by
    rw [← trimChars_map_toLower, lower, String.toList_ofList]
  have hall : ((trimChars s.toList).map Char.toLower).all isWordChar = true := by
    rw [List.all_map]
    exact List.all_eq_true.mpr fun c hc => isWordChar_toLower (hw c hc)
  have hemp : ((trimChars s.toList).map Char.toLower).isEmpty = false := by simpa using hne
  rw [normalNamespace, ht, hall, hemp]
  simp [lower, Function.comp_def]

lemma trimChars_sublist (cs : List Char) : (trimChars cs).Sublist cs := by
  have hend : (trimChars cs).Sublist (trimStart cs) := by
    have h := (List.dropWhile_sublist isBlank (l := (trimStart cs).reverse)).reverse
    rwa [List.reverse_reverse] at h
  exact hend.trans (List.dropWhile_sublist isBlank)

/-- Lower case alone makes the normal form only where there is nothing to trim. -/
lemma lower_eq_iff_trim_eq {s n : String} (h : normalNamespace s = .ok n) :
    lower s = n ↔ trim s = s := by
  obtain ⟨-, -, rfl⟩ := normalNamespace_eq_ok h
  refine ⟨fun heq => ?_, fun heq => congrArg lower heq.symm⟩
  have hlength : (trimChars s.toList).length = s.toList.length := by
    have := congrArg String.length heq
    simpa [lower] using this.symm
  rw [trim, (trimChars_sublist s.toList).eq_of_length hlength, String.ofList_toList]

/-! ### Keys -/

lemma Key.normalNamespace_of_make {space localName : String} {k : Key}
    (h : Key.make space localName = .ok k) : normalNamespace space = .ok k.space := by
  simp only [Key.make] at h
  split at h
  · cases h
  · next n hn =>
    split at h
    · cases h; exact hn
    · cases h

lemma Key.localName_of_make {space localName : String} {k : Key}
    (h : Key.make space localName = .ok k) : k.localName = trim localName := by
  simp only [Key.make] at h
  split at h
  · cases h
  · split at h
    · cases h; rfl
    · cases h

lemma IsNormal.space_of_make {n localName : String} {k : Key} (hn : IsNormal n)
    (h : Key.make n localName = .ok k) : k.space = n :=
  Except.ok.inj ((Key.normalNamespace_of_make h).symm.trans hn)

end Dossier
