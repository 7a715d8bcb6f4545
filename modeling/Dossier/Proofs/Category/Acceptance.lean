import Mathlib
import Dossier.Proofs.Category
import Dossier.Proofs.Namespace
import Dossier.Proofs.Pattern

/-!
What a category accepts. The rules for emails and phone numbers are patterns; here they are said
directly, of the characters that stand in the trimmed text, and the rules of the other categories
beside them. Blanks around a text make no difference, nor does the passing of days once a value is
accepted.
-/

namespace Dossier

namespace Text

/-! ### Trimming -/

lemma trimEnd_append_of_blank (cs : List Char) {after : List Char}
    (h : ∀ c ∈ after, isBlank c = true) : trimEnd (cs ++ after) = trimEnd cs := by
  have hrev : ∀ c ∈ after.reverse, isBlank c = true := fun c hc => h c (List.mem_reverse.mp hc)
  rw [trimEnd, List.reverse_append, List.dropWhile_append_of_pos hrev, trimEnd]

lemma trimChars_surrounded {before after : List Char} (hbefore : ∀ c ∈ before, isBlank c = true)
    (hafter : ∀ c ∈ after, isBlank c = true) (cs : List Char) :
    trimChars (before ++ cs ++ after) = trimChars cs := by
  rw [trimChars, trimStart, List.append_assoc, List.dropWhile_append_of_pos hbefore,
    List.dropWhile_append]
  split
  · next hnone =>
    -- there is nothing between the blanks
    have hcs : cs.dropWhile isBlank = [] := List.isEmpty_iff.mp hnone
    rw [trimChars, trimStart, hcs, List.dropWhile_eq_nil_iff.mpr hafter]
  · exact trimEnd_append_of_blank _ hafter

lemma trimChars_eq_nil_iff {cs : List Char} : trimChars cs = [] ↔ ∀ c ∈ cs, isBlank c = true := by
  constructor
  · intro h
    have hstart : ∀ c ∈ trimStart cs, isBlank c = true := by
      rw [trimChars, trimEnd, List.reverse_eq_nil_iff, List.dropWhile_eq_nil_iff] at h
      exact fun c hc => h c (List.mem_reverse.mpr hc)
    have hsplit := List.takeWhile_append_dropWhile (p := isBlank) (l := cs)
    intro c hc
    rw [← hsplit] at hc
    rcases List.mem_append.mp hc with hc | hc
    · exact List.mem_takeWhile_imp hc
    · exact hstart c hc
  · intro h
    rw [trimChars, trimStart, List.dropWhile_eq_nil_iff.mpr h]
    rfl

lemma toList_trim (s : String) : (trim s).toList = trimChars s.toList := String.toList_ofList

/-! ### Emails and phone numbers -/

open Pattern
open Category (addressChar dialChar emailPattern phonePattern)

/-- **An address**: no blanks, one at sign with something before it, and behind it a dot that is
neither the first character there nor the last. -/
structure IsAddress (cs : List Char) : Prop where
  noBlank : ∀ c ∈ cs, isBlank c = false
  oneAt : cs.count '@' = 1
  parts : ∃ user host, cs = user ++ '@' :: host ∧ user ≠ [] ∧
    ∃ before after, host = before ++ '.' :: after ∧ before ≠ [] ∧ after ≠ []

/-- **A phone number**: a plus sign or none, a digit, and at least five characters of numbers. -/
def IsPhoneNumber (cs : List Char) : Prop :=
  ∃ sign digit rest, cs = sign ++ digit :: rest ∧ (sign = [] ∨ sign = ['+']) ∧
    digit.isDigit = true ∧ 5 ≤ rest.length ∧
    ∀ c ∈ rest, c.isDigit = true ∨ c ∈ [' ', '(', ')', '-', '.']

lemma contains_addressChar {c : Char} :
    addressChar.contains c = true ↔ isBlank c = false ∧ c ≠ '@' := by
  simp [addressChar, CharClass.contains]

lemma contains_dialChar {c : Char} :
    dialChar.contains c = true ↔ c.isDigit = true ∨ c ∈ [' ', '(', ')', '-', '.'] := by
  simp [dialChar, CharClass.contains]

lemma forall_addressChar {cs : List Char} : (∀ c ∈ cs, addressChar.contains c = true) ↔
    (∀ c ∈ cs, isBlank c = false) ∧ cs.count '@' = 0 := by
  simp only [contains_addressChar, List.count_eq_zero, forall_and]
  refine and_congr_right fun _ => ⟨fun h hat => h _ hat rfl, fun h c hc hat => h (hat ▸ hc)⟩

lemma mem_emailPattern {cs : List Char} : cs ∈ emailPattern.language ↔
    ∃ user before after, cs = user ++ '@' :: (before ++ '.' :: after) ∧
      ∀ run ∈ [user, before, after], run ≠ [] ∧ ∀ c ∈ run, addressChar.contains c = true := by
  simp only [emailPattern, mem_seq, mem_char, mem_plus_one, List.forall_mem_cons,
    List.not_mem_nil, false_imp_iff, implies_true, and_true]
  constructor
  · rintro ⟨user, huser, _, ⟨_, rfl, _, ⟨before, hbefore, _, ⟨_, rfl, after, hafter, rfl⟩, rfl⟩,
      rfl⟩, rfl⟩
    exact ⟨user, before, after, rfl, huser, hbefore, hafter⟩
  · rintro ⟨user, before, after, rfl, huser, hbefore, hafter⟩
    exact ⟨user, huser, _, ⟨_, rfl, _, ⟨before, hbefore, _, ⟨_, rfl, after, hafter, rfl⟩, rfl⟩,
      rfl⟩, rfl⟩

lemma matchesAll_email {cs : List Char} :
    emailPattern.matchesAll cs = true ↔ IsAddress cs := by
  rw [matchesAll_iff, mem_emailPattern]
  constructor
  · rintro ⟨user, before, after, rfl, hruns⟩
    simp only [List.forall_mem_cons, List.not_mem_nil, false_imp_iff, implies_true, and_true,
      forall_addressChar] at hruns
    obtain ⟨⟨huser, hblank, hcount⟩, ⟨hbefore, hblank', hcount'⟩, hafter, hblank'', hcount''⟩ :=
      hruns
    refine ⟨?_, ?_, user, _, rfl, huser, before, after, rfl, hbefore, hafter⟩
    · simp only [List.forall_mem_append, List.forall_mem_cons]
      exact ⟨hblank, by decide, hblank', by decide, hblank''⟩
    · simp [List.count_append, hcount, hcount', hcount'']
  · rintro ⟨hblank, hcount, user, _, rfl, huser, before, after, rfl, hbefore, hafter⟩
    simp only [List.forall_mem_append, List.forall_mem_cons] at hblank
    simp only [List.count_append, List.count_cons, beq_self_eq_true, if_true] at hcount
    refine ⟨user, before, after, rfl, ?_⟩
    simp only [List.forall_mem_cons, List.not_mem_nil, false_imp_iff, implies_true, and_true,
      forall_addressChar]
    exact ⟨⟨huser, hblank.1, by omega⟩, ⟨hbefore, hblank.2.2.1, by omega⟩, hafter,
      hblank.2.2.2.2, by omega⟩

lemma matchesAll_phone {cs : List Char} :
    phonePattern.matchesAll cs = true ↔ IsPhoneNumber cs := by
  have hdigit : ∀ c, CharClass.contains ⟨false, true, false, []⟩ c = c.isDigit := by
    simp [CharClass.contains]
  rw [matchesAll_iff, phonePattern, mem_seq]
  simp only [mem_optional, mem_char, mem_seq_one, mem_atLeast_one, contains_dialChar, hdigit]
  constructor
  · rintro ⟨sign, hsign, _, ⟨digit, rest, rfl, hd, hlength, hrest⟩, rfl⟩
    exact ⟨sign, digit, rest, rfl, hsign.symm, hd, hlength, hrest⟩
  · rintro ⟨sign, digit, rest, rfl, hsign, hd, hlength, hrest⟩
    exact ⟨sign, hsign.symm, _, ⟨digit, rest, rfl, hd, hlength, hrest⟩, rfl⟩

end Text

/-! ### What is accepted -/

/-- Where a day stands among the days. -/
def CivilDate.place (d : CivilDate) : ℤ ×ₗ ℕ ×ₗ ℕ := toLex (d.year, toLex (d.month, d.day))

lemma CivilDate.notAfter_iff_place {a b : CivilDate} :
    a.notAfter b = true ↔ a.place ≤ b.place := by
  simp only [notAfter_iff, place, Prod.Lex.toLex_le_toLex]

/-- A text or web address with other characters around it; other values have no ends. -/
def Value.surrounded (before after : List Char) : Value → Value
  | text s => text (String.ofList (before ++ s.toList ++ after))
  | url s => url (String.ofList (before ++ s.toList ++ after))
  | v => v

namespace Category

open Text (trim isBlank IsAddress IsPhoneNumber)

/-- **What a category asks** of a value, on a day. -/
inductive Suits (today : CivilDate) : Category → Value → Prop where
  | name {c : Category} {s : String} (hc : c ∈ [firstName, lastName, hometown, employer])
      (h : ∃ ch ∈ s.toList, isBlank ch = false) : Suits today c (.text s)
  | email {s : String} (h : IsAddress (trim s).toList) : Suits today email (.text s)
  | phoneNumber {s : String} (h : IsPhoneNumber (trim s).toList) :
      Suits today phoneNumber (.text s)
  | profileUrl {s : String} (hscheme : "http://".toList <+: (trim s).toList ∨
      "https://".toList <+: (trim s).toList) (h : ∀ ch ∈ (trim s).toList, isBlank ch = false) :
      Suits today profileUrl (.url s)
  | birthDate {d : CivilDate} (h : d.place ≤ today.place) : Suits today birthDate (.date d)
  | age {n : Int64} (h : 0 ≤ n.toInt ∧ n.toInt ≤ 150) : Suits today age (.integer n)
  | photoReference (u : Uuid) : Suits today photoReference (.uuid u)

variable {today : CivilDate} {c : Category} {v : Value}

lemma Suits.kind (h : Suits today c v) : v.kind = c.representation := by
  cases h with
  | name hc =>
    simp only [List.mem_cons, List.not_mem_nil, or_false] at hc
    rcases hc with rfl | rfl | rfl | rfl <;> rfl
  | email | phoneNumber | profileUrl | birthDate | age | photoReference => rfl

lemma accepts_name (hc : c ∈ [firstName, lastName, hometown, employer]) {s : String} :
    c.accepts today (.text s) = true ↔ ∃ ch ∈ s.toList, isBlank ch = false := by
  have hnames : c.accepts today (.text s) = !(Text.trimChars s.toList).isEmpty := by
    simp only [List.mem_cons, List.not_mem_nil, or_false] at hc
    rcases hc with rfl | rfl | rfl | rfl <;> rfl
  simp [hnames, Text.trimChars_eq_nil_iff]

lemma accepts_email {s : String} :
    email.accepts today (.text s) = true ↔ IsAddress (trim s).toList := by
  rw [Text.toList_trim]
  exact Text.matchesAll_email

lemma accepts_phoneNumber {s : String} :
    phoneNumber.accepts today (.text s) = true ↔ IsPhoneNumber (trim s).toList := by
  rw [Text.toList_trim]
  exact Text.matchesAll_phone

lemma accepts_profileUrl {s : String} : profileUrl.accepts today (.url s) = true ↔
    ("http://".toList <+: (trim s).toList ∨ "https://".toList <+: (trim s).toList) ∧
      ∀ ch ∈ (trim s).toList, isBlank ch = false := by
  simp only [accepts, isWebAddress, startsWith, Text.toList_trim, Bool.and_eq_true,
    Bool.or_eq_true, List.isPrefixOf_iff_prefix, Bool.not_eq_true', List.any_eq_false,
    Bool.not_eq_true]
  rw [or_comm]

lemma accepts_birthDate {d : CivilDate} :
    birthDate.accepts today (.date d) = true ↔ d.place ≤ today.place :=
  CivilDate.notAfter_iff_place

lemma accepts_age {n : Int64} :
    age.accepts today (.integer n) = true ↔ 0 ≤ n.toInt ∧ n.toInt ≤ 150 := by
  have hzero : (0 : Int64).toInt = 0 := rfl
  have hmax : maxAge.toInt = 150 := rfl
  simp [accepts, Int64.le_iff_toInt_le, hzero, hmax]

lemma accepts_iff_suits : c.accepts today v = true ↔ c.Suits today v := by
  constructor
  · intro h
    -- values of another kind are refused by every category
    cases c with
    | firstName | lastName | hometown | employer =>
      cases v with
      | text s => exact .name (by simp) ((accepts_name (by simp)).mp h)
      | uuid | url | date | integer => cases h
    | email =>
      cases v with
      | text s => exact .email (accepts_email.mp h)
      | uuid | url | date | integer => cases h
    | phoneNumber =>
      cases v with
      | text s => exact .phoneNumber (accepts_phoneNumber.mp h)
      | uuid | url | date | integer => cases h
    | photoReference =>
      cases v with
      | uuid u => exact .photoReference u
      | text | url | date | integer => cases h
    | profileUrl =>
      cases v with
      | url s =>
        obtain ⟨hscheme, hblank⟩ := accepts_profileUrl.mp h
        exact .profileUrl hscheme hblank
      | text | uuid | date | integer => cases h
    | birthDate =>
      cases v with
      | date d => exact .birthDate (accepts_birthDate.mp h)
      | text | uuid | url | integer => cases h
    | age =>
      cases v with
      | integer n => exact .age (accepts_age.mp h)
      | text | uuid | url | date => cases h
  · intro h
    cases h with
    | name hc h => exact (accepts_name hc).mpr h
    | email h => exact accepts_email.mpr h
    | phoneNumber h => exact accepts_phoneNumber.mpr h
    | profileUrl hscheme h => exact accepts_profileUrl.mpr ⟨hscheme, h⟩
    | birthDate h => exact accepts_birthDate.mpr h
    | age h => exact accepts_age.mpr h
    | photoReference u => rfl

lemma accepts_surrounded {before after : List Char} (hbefore : ∀ ch ∈ before, isBlank ch = true)
    (hafter : ∀ ch ∈ after, isBlank ch = true) (today : CivilDate) (c : Category) (v : Value) :
    c.accepts today (v.surrounded before after) = c.accepts today v := by
  have htrim := Text.trimChars_surrounded hbefore hafter
  cases v with
  | text s => cases c <;> simp only [Value.surrounded, accepts, String.toList_ofList, htrim]
  | url s => cases c <;> simp only [Value.surrounded, accepts, String.toList_ofList, htrim]
  | uuid | date | integer => rfl

/-- **What is known of acceptance** on a day: the rule, that blanks at the ends of a text make no
difference to it, and that it lasts. -/
structure Acceptance (today : CivilDate) (c : Category) (v : Value) : Prop where
  accepts_iff : c.accepts today v = true ↔ v.kind = c.representation ∧ c.Suits today v
  blanks : ∀ before after, (∀ ch ∈ before, isBlank ch = true) → (∀ ch ∈ after, isBlank ch = true) →
    c.accepts today (v.surrounded before after) = c.accepts today v
  lasts : ∀ later : CivilDate, today.place ≤ later.place → c.accepts today v = true →
    c.accepts later v = true

/-- **A category accepts exactly** the values of its kind that suit it. -/
theorem accepts_exactly (today : CivilDate) (c : Category) (v : Value) : Acceptance today c v where
  accepts_iff := accepts_iff_suits.trans ⟨fun h => ⟨h.kind, h⟩, And.right⟩
  blanks _ _ hbefore hafter := accepts_surrounded hbefore hafter today c v
  lasts _ hlater h := accepts_later h (CivilDate.notAfter_iff_place.mpr hlater)

end Category

end Dossier
