import Dossier.Proofs.Namespace

/-!
Written keys. A text is read as a key by a grammar of its own: a namespace, the first underscore, a
local name, with blanks around either of the two. Every key that can be made is written in one way,
and reading what was written gives the key back: no namespace holds an underscore, and nothing in a
key is blank or changes in lower case.
-/

namespace Dossier

open Text

lemma isWordChar_underscore : isWordChar '_' = false := by decide

lemma IsNormal.notMem_underscore {n : String} (h : IsNormal n) : '_' ∉ n.toList := by
  obtain ⟨-, hw, hn⟩ := normalNamespace_eq_ok h
  intro hmem
  rw [hn] at hmem
  simp only [Text.lower, String.toList_ofList, List.mem_map] at hmem
  obtain ⟨c, hc, hlower⟩ := hmem
  have hword := isWordChar_toLower (hw c hc)
  rw [hlower, isWordChar_underscore] at hword
  cases hword

/-! ### The first underscore -/

lemma splitFirst_eq_some_iff {sep : Char} {s a b : String} :
    splitFirst sep s = some (a, b) ↔
      s.toList = a.toList ++ sep :: b.toList ∧ sep ∉ a.toList := by
  unfold splitFirst
  rw [List.span_eq_takeWhile_dropWhile]
  constructor
  · intro h
    cases hd : s.toList.dropWhile (· != sep) with
    | nil => simp [hd] at h
    | cons c cs =>
      have hne : s.toList.dropWhile (· != sep) ≠ [] := by simp [hd]
      obtain rfl : c = sep := by simpa [hd] using List.head_dropWhile_not (· != sep) hne
      simp only [hd, Option.some.injEq, Prod.mk.injEq] at h
      obtain ⟨rfl, rfl⟩ := h
      refine ⟨?_, fun hmem => ?_⟩
      · rw [String.toList_ofList, String.toList_ofList, ← hd, List.takeWhile_append_dropWhile]
      · rw [String.toList_ofList] at hmem
        simpa using List.mem_takeWhile_imp hmem
  · rintro ⟨hs, hsep⟩
    have hall : ∀ c ∈ a.toList, (c != sep) = true := by
      intro c hc
      simpa using fun h : c = sep => hsep (h ▸ hc)
    rw [hs, List.takeWhile_append_of_pos hall, List.dropWhile_append_of_pos hall]
    simp

namespace Key

/-! ### The grammar -/

/-- A run of ASCII letters and digits. -/
def IsWord (cs : List Char) : Prop := cs ≠ [] ∧ ∀ c ∈ cs, c.isAlphanum = true

/-- A run of ASCII letters, digits and underscores that does not start with an underscore. -/
def IsIdentifier (cs : List Char) : Prop :=
  cs ≠ [] ∧ cs.head? ≠ some '_' ∧ ∀ c ∈ cs, c.isAlphanum = true ∨ c = '_'

/-- A text spells a key: its first underscore stands between a namespace and a local name, each of
them with blanks around it or none, the namespace in letters of either case. -/
def Spells (s : String) (k : Key) : Prop :=
  ∃ before after : String, s = before ++ "_" ++ after ∧ '_' ∉ before.toList ∧
    IsWord (trimChars before.toList) ∧ IsIdentifier (trimChars after.toList) ∧
    k = ⟨lower (trim before), trim after⟩

lemma isLocalName_iff {cs : List Char} : isLocalName cs = true ↔ IsIdentifier cs := by
  simp [isLocalName, IsIdentifier, isWordChar, and_assoc]

lemma normalNamespace_eq_ok_iff {s n : String} :
    normalNamespace s = .ok n ↔ IsWord (trimChars s.toList) ∧ n = lower (trim s) := by
  constructor
  · intro h
    obtain ⟨hne, hw, hn⟩ := normalNamespace_eq_ok h
    exact ⟨⟨hne, hw⟩, hn⟩
  · rintro ⟨⟨hne, hw⟩, rfl⟩
    have hall : (trimChars s.toList).all isWordChar = true := List.all_eq_true.mpr hw
    simp [normalNamespace, hall, hne, trim]

lemma make_eq_ok_iff {space localName : String} {k : Key} :
    make space localName = .ok k ↔ IsWord (trimChars space.toList) ∧
      IsIdentifier (trimChars localName.toList) ∧ k = ⟨lower (trim space), trim localName⟩ := by
  cases hn : normalNamespace space with
  | error e =>
    have hword : ¬ IsWord (trimChars space.toList) := by
      intro hw
      rw [normalNamespace_eq_ok_iff.mpr ⟨hw, rfl⟩] at hn
      cases hn
    simp [make, hn, hword]
  | ok n =>
    obtain ⟨hword, rfl⟩ := normalNamespace_eq_ok_iff.mp hn
    by_cases hl : isLocalName (trimChars localName.toList) = true
    · simp [make, hn, hl, hword, isLocalName_iff.mp hl, trim, eq_comm]
    · have hident : ¬ IsIdentifier (trimChars localName.toList) := fun h =>
        hl (isLocalName_iff.mpr h)
      simp [make, hn, hl, hident]

/-- **The grammar of written keys** is what the reader accepts. -/
theorem parse_eq_ok_iff {s : String} {k : Key} : parse s = .ok k ↔ Spells s k := by
  have hsplit : ∀ a b : String, splitFirst '_' s = some (a, b) ↔
      s = a ++ "_" ++ b ∧ '_' ∉ a.toList := by
    intro a b
    rw [splitFirst_eq_some_iff, String.ext_iff]
    simp
  constructor
  · intro h
    cases hs : splitFirst '_' s with
    | none => simp [parse, hs] at h
    | some parts =>
      obtain ⟨before, after⟩ := parts
      cases hk : make before after with
      | error e => simp [parse, hs, hk] at h
      | ok k' =>
        obtain rfl : k' = k := by simpa [parse, hs, hk] using h
        obtain ⟨heq, hfirst⟩ := (hsplit before after).mp hs
        exact ⟨before, after, heq, hfirst, make_eq_ok_iff.mp hk⟩
  · rintro ⟨before, after, heq, hfirst, hk⟩
    simp [parse, (hsplit before after).mpr ⟨heq, hfirst⟩, make_eq_ok_iff.mpr hk]

lemma parse_eq_error {s : String} (h : ∀ k, ¬ Spells s k) :
    parse s = .error (.malformedKey s) := by
  cases hp : parse s with
  | ok k => exact absurd (parse_eq_ok_iff.mp hp) (h k)
  | error e =>
    simp only [parse] at hp
    split at hp
    · exact hp.symm
    · split at hp
      · cases hp
      · exact hp.symm

/-! ### Written forms -/

/-- A key that can be made from a namespace and a local name. -/
def IsProper (k : Key) : Prop := ∃ space localName, make space localName = .ok k

lemma isProper_of_parse {s : String} {k : Key} (h : parse s = .ok k) : k.IsProper := by
  obtain ⟨before, after, -, -, hk⟩ := parse_eq_ok_iff.mp h
  exact ⟨before, after, make_eq_ok_iff.mpr hk⟩

lemma IsProper.isNormal {k : Key} (h : k.IsProper) : IsNormal k.space := by
  obtain ⟨space, localName, hk⟩ := h
  exact isNormal_of_normalNamespace (normalNamespace_of_make hk)

lemma IsIdentifier.trim_eq {l : String} (h : IsIdentifier (trimChars l.toList)) :
    trimChars (trim l).toList = trimChars l.toList := by
  rw [trim, String.toList_ofList]
  refine trimChars_eq_self fun c hc => ?_
  rcases h.2.2 c hc with hw | rfl
  · exact isBlank_of_isWordChar hw
  · decide

lemma IsProper.make_eq {k : Key} (h : k.IsProper) : make k.space k.localName = .ok k := by
  have hspace := normalNamespace_eq_ok_iff.mp h.isNormal
  obtain ⟨space, localName, hk⟩ := h
  obtain ⟨-, hident, rfl⟩ := make_eq_ok_iff.mp hk
  rw [make_eq_ok_iff, hident.trim_eq, ← hspace.2]
  refine ⟨hspace.1, hident, ?_⟩
  rw [Key.mk.injEq]
  exact ⟨rfl, congrArg String.ofList hident.trim_eq.symm⟩

/-- **Reading what was written** gives the key back. -/
theorem IsProper.parse_text {k : Key} (h : k.IsProper) : parse k.text = .ok k :=
  parse_eq_ok_iff.mpr
    ⟨k.space, k.localName, rfl, h.isNormal.notMem_underscore, make_eq_ok_iff.mp h.make_eq⟩

lemma space_eq_of_text_eq {k k' : Key} (hk : IsNormal k.space) (hk' : IsNormal k'.space)
    (h : k.text = k'.text) : k.space = k'.space := by
  have hparts : ∀ k : Key, IsNormal k.space →
      splitFirst '_' k.text = some (k.space, k.localName) := by
    intro k hk
    exact splitFirst_eq_some_iff.mpr ⟨by simp [text], hk.notMem_underscore⟩
  have hsame := (hparts k hk).symm.trans (h ▸ hparts k' hk')
  exact congrArg Prod.fst (Option.some.inj hsame)

structure Legible (s : String) : Prop where
  accepted : ∀ k, parse s = .ok k ↔ Spells s k
  refused : (∀ k, ¬ Spells s k) → parse s = .error (.malformedKey s)
  /-- What was read is written in a form that is read in the same way. -/
  rewritten : ∀ k, parse s = .ok k → parse k.text = .ok k
  normalised : ∀ n, normalNamespace s = .ok n → normalNamespace n = .ok n

/-- **Keys are read as they are written.** Of every text it is settled by the grammar whether it is
a key and which; a key that was made from a namespace and a local name is read back from its written
form, so that no two such keys are written alike. -/
theorem reads_written :
    (∀ s, Legible s) ∧
      (∀ space localName k, make space localName = .ok k → parse k.text = .ok k) ∧
      ∀ k k' : Key, k.IsProper → k'.IsProper → k.text = k'.text → k = k' := by
  refine ⟨fun s => ?_, fun space localName k h => ?_, fun k k' h h' htext => ?_⟩
  · exact ⟨fun k => parse_eq_ok_iff, parse_eq_error,
      fun k h => (isProper_of_parse h).parse_text, fun n => isNormal_of_normalNamespace⟩
  · exact IsProper.parse_text ⟨space, localName, h⟩
  · have hread := h.parse_text
    rw [htext, h'.parse_text] at hread
    exact (Except.ok.inj hread).symm

end Key

end Dossier
