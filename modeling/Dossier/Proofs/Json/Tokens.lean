import Mathlib
import Dossier.Json.Writing
import Dossier.Proofs.Decimal.Digits

/-!
Scanning what was written. Two things are said of a run of characters: that it closes, when the scan
stands between tokens behind it, and that it scans, when it does so once a number or word that is
still open has been ended. Quoted text, punctuation, numbers and words are shown to scan to the
tokens they were written for, and with them data as a whole.
-/

namespace Dossier.Json

/-! ### Where the scan stands -/

/-- The scan with an open number or word ended. -/
def Scan.settle (s : Scan) : Scan :=
  match s.mode with
  | .bare read => s.endBare read
  | _ => s

/-- Behind these characters the scan stands between tokens, with these tokens added. -/
def Closes (cs : List Char) (ts : List Token) : Prop :=
  ∀ before, cs.foldl Scan.step ⟨.between, before⟩ = ⟨.between, ts.reverse ++ before⟩

/-- As `Closes`, but the last token may still be open. -/
def Scans (cs : List Char) (ts : List Token) : Prop :=
  ∀ before, (cs.foldl Scan.step ⟨.between, before⟩).settle = ⟨.between, ts.reverse ++ before⟩

/-- A character that ends a number or word is read as if the scan had been between tokens. -/
lemma step_settled {s : Scan} {c : Char} {before : List Token} (hc : isBare c = false)
    (hs : s.settle = ⟨.between, before⟩) : s.step c = Scan.step ⟨.between, before⟩ c := by
  obtain ⟨mode, tokens⟩ := s
  cases mode with
  | bare read =>
    have hend : Scan.endBare ⟨.bare read, tokens⟩ read = ⟨.between, before⟩ := hs
    simp [Scan.step, hc, hend]
  | between | string | escape | hex | nowhere =>
    have hsame : _ = _ := hs
    rw [← hsame]
    rfl

lemma finish_settle (s : Scan) {before : List Token} (hs : s.settle = ⟨.between, before⟩) :
    s.finish = some before.reverse := by
  obtain ⟨mode, tokens⟩ := s
  cases mode with
  | bare read =>
    simp only [Scan.settle, Scan.endBare] at hs
    split at hs
    next t ht =>
      obtain rfl : t :: tokens = before := by simpa using hs
      simp [Scan.finish, ht]
    next => cases hs
  | between =>
    obtain rfl : tokens = before := by simpa [Scan.settle] using hs
    rfl
  | string | escape | hex | nowhere => cases hs

namespace Closes

variable {cs ds : List Char} {ts us : List Token}

lemma scans (h : Closes cs ts) : Scans cs ts := by
  intro before
  rw [h]
  rfl

lemma append (h : Closes cs ts) (h' : Closes ds us) : Closes (cs ++ ds) (ts ++ us) := by
  intro before
  rw [List.foldl_append, h, h', List.reverse_append, List.append_assoc]

lemma append_scans (h : Closes cs ts) (h' : Scans ds us) : Scans (cs ++ ds) (ts ++ us) := by
  intro before
  rw [List.foldl_append, h, h', List.reverse_append, List.append_assoc]

end Closes

lemma Scans.append_closes {cs ds : List Char} {c : Char} {ts us : List Token} (h : Scans cs ts)
    (hc : isBare c = false) (h' : Closes (c :: ds) us) : Closes (cs ++ c :: ds) (ts ++ us) := by
  intro before
  have hnext := step_settled hc (h before)
  have hrest := h' (ts.reverse ++ before)
  rw [List.foldl_cons] at hrest
  rw [List.foldl_append, List.foldl_cons, hnext, hrest, List.reverse_append, List.append_assoc]

lemma tokens?_of_scans {cs : List Char} {ts : List Token} (h : Scans cs ts) :
    tokens? cs = some ts := by
  rw [tokens?, finish_settle _ (h []), List.append_nil, List.reverse_reverse]

/-! ### Punctuation, numbers and words -/

lemma closes_punctuation {c : Char} {t : Token} (h : punctuation? c = some t) : Closes [c] [t] := by
  intro before
  have hc : isSpace c = false ∧ (c == '"') = false ∧ isBare c = false := by
    unfold punctuation? at h
    split at h <;> first | exact ⟨by decide, by decide, by decide⟩ | cases h
  simp [Scan.step, Scan.fresh, hc, h]

lemma isBare_not_special {c : Char} (h : isBare c = true) :
    isSpace c = false ∧ (c == '"') = false := by
  constructor
  · rw [Bool.eq_false_iff]
    intro hs
    simp only [isSpace, Bool.or_eq_true, beq_iff_eq] at hs
    rcases hs with ((rfl | rfl) | rfl) | rfl <;> exact absurd h (by decide)
  · rw [beq_eq_false_iff_ne]
    rintro rfl
    exact absurd h (by decide)

lemma closes_spaces {cs : List Char} (h : ∀ c ∈ cs, isSpace c = true) : Closes cs [] := by
  intro before
  induction cs with
  | nil => rfl
  | cons c cs ih =>
    have hstep : Scan.step ⟨.between, before⟩ c = ⟨.between, before⟩ := by
      simp [Scan.step, Scan.fresh, h c List.mem_cons_self]
    rw [List.foldl_cons, hstep]
    exact ih fun d hd => h d (List.mem_cons_of_mem c hd)

lemma Scans.append_spaced {cs spaces : List Char} {c : Char} {ts us : List Token} (h : Scans cs ts)
    (hspaces : ∀ c ∈ spaces, isSpace c = true) (hc : isBare c = false) (h' : Closes [c] us) :
    Closes (cs ++ (spaces ++ [c])) (ts ++ us) := by
  have hbehind := (closes_spaces hspaces).append h'
  cases spaces with
  | nil => exact h.append_closes hc hbehind
  | cons d ds =>
    have hd : isBare d = false := by
      rw [Bool.eq_false_iff]
      intro hbare
      have hspace := (isBare_not_special hbare).1
      rw [hspaces d List.mem_cons_self] at hspace
      cases hspace
    exact h.append_closes hd hbehind

lemma foldl_bare {cs : List Char} (h : ∀ c ∈ cs, isBare c = true) (read : List Char)
    (before : List Token) :
    cs.foldl Scan.step ⟨.bare read, before⟩ = ⟨.bare (cs.reverse ++ read), before⟩ := by
  induction cs generalizing read with
  | nil => rfl
  | cons c cs ih =>
    have hstep : Scan.step ⟨.bare read, before⟩ c = ⟨.bare (c :: read), before⟩ := by
      simp [Scan.step, h c List.mem_cons_self]
    rw [List.foldl_cons, hstep, ih fun d hd => h d (List.mem_cons_of_mem c hd)]
    simp

lemma scans_bare {cs : List Char} {t : Token} (hne : cs ≠ []) (h : ∀ c ∈ cs, isBare c = true)
    (ht : bare? cs = some t) : Scans cs [t] := by
  intro before
  obtain ⟨c, cs, rfl⟩ := List.exists_cons_of_ne_nil hne
  obtain ⟨hspace, hquote⟩ := isBare_not_special (h c List.mem_cons_self)
  have hfirst : Scan.step ⟨.between, before⟩ c = ⟨.bare [c], before⟩ := by
    simp [Scan.step, Scan.fresh, hspace, hquote, h c List.mem_cons_self]
  rw [List.foldl_cons, hfirst, foldl_bare fun d hd => h d (List.mem_cons_of_mem c hd)]
  simp [Scan.settle, Scan.endBare, ht]

lemma isBare_of_isDigit {c : Char} (h : c.isDigit = true) : isBare c = true := by
  simp [isBare, Char.isAlphanum, h]

/-! ### Quoted text -/

lemma hexDigit?_hexDigit {n : ℕ} (h : n < 16) : hexDigit? (Data.hexDigit n) = some n := by
  interval_cases n <;> decide

/-- The piece that a character of a quoted text is read as. -/
def pieceOf (c : Char) : Piece :=
  if c.toNat < 0x20 ∧ c ∉ ['\x08', '\x0c', '\n', '\r', '\t'] then .unit c.toNat else .char c

lemma foldl_unit {n : ℕ} (h : n < 0x20) (read : List Piece) (before : List Token) :
    ['\\', 'u', '0', '0', Data.hexDigit (n / 16), Data.hexDigit (n % 16)].foldl Scan.step
      ⟨.string read, before⟩ = ⟨.string (.unit n :: read), before⟩ := by
  have hzero : hexDigit? '0' = some 0 := by decide
  have hhigh := hexDigit?_hexDigit (show n / 16 < 16 by omega)
  have hlow := hexDigit?_hexDigit (Nat.mod_lt n (show 0 < 16 by omega))
  have hvalue : 16 * (n / 16) + n % 16 = n := Nat.div_add_mod n 16
  simp [Scan.step, hzero, hhigh, hlow, hvalue]

lemma foldl_escapeChar (c : Char) (read : List Piece) (before : List Token) :
    (Data.escapeChar c).foldl Scan.step ⟨.string read, before⟩ =
      ⟨.string (pieceOf c :: read), before⟩ := by
  by_cases hshort : c ∈ ['"', '\\', '\x08', '\x0c', '\n', '\r', '\t']
  · simp only [List.mem_cons, List.not_mem_nil, or_false] at hshort
    rcases hshort with rfl | rfl | rfl | rfl | rfl | rfl | rfl <;> rfl
  · simp only [List.mem_cons, List.not_mem_nil, or_false, not_or] at hshort
    by_cases hcontrol : c.toNat < 0x20
    · have hpiece : pieceOf c = .unit c.toNat := by simp [pieceOf, hcontrol, hshort]
      have htext : Data.escapeChar c =
          ['\\', 'u', '0', '0', Data.hexDigit (c.toNat / 16), Data.hexDigit (c.toNat % 16)] := by
        simp [Data.escapeChar, hcontrol, hshort]
      rw [hpiece, htext, foldl_unit hcontrol]
    · have hpiece : pieceOf c = .char c := by simp [pieceOf, hcontrol]
      simp [Data.escapeChar, Scan.step, hpiece, hcontrol, hshort]

lemma foldl_escaped (cs : List Char) (read : List Piece) (before : List Token) :
    (cs.flatMap Data.escapeChar).foldl Scan.step ⟨.string read, before⟩ =
      ⟨.string ((cs.map pieceOf).reverse ++ read), before⟩ := by
  induction cs generalizing read with
  | nil => rfl
  | cons c cs ih => simp [foldl_escapeChar, ih]

/-- Units that stand for control characters are never halves of other characters. -/
lemma assemble_map_pieceOf (cs : List Char) : assemble (cs.map pieceOf) = some cs := by
  induction cs with
  | nil => rfl
  | cons c cs ih =>
    by_cases hunit : c.toNat < 0x20 ∧ c ∉ ['\x08', '\x0c', '\n', '\r', '\t']
    · have hpiece : pieceOf c = .unit c.toNat := if_pos hunit
      have hsmall : ¬ 0xD800 ≤ c.toNat ∧ ¬ 0xDC00 ≤ c.toNat := by omega
      rw [List.map_cons, hpiece]
      -- a unit is looked at together with the piece behind it
      cases hcs : cs.map pieceOf with
      | nil =>
        rw [hcs] at ih
        obtain rfl : cs = [] := by simpa using hcs
        simp [assemble, hsmall]
      | cons p ps =>
        rw [hcs] at ih
        cases p <;> simp [assemble, hsmall] <;> simpa [assemble] using ih
    · have hpiece : pieceOf c = .char c := if_neg hunit
      rw [List.map_cons, hpiece, assemble, ih]
      rfl

lemma closes_quote (s : String) : Closes (Data.quote s).toList [.string (some s)] := by
  intro before
  have hopen : Scan.step ⟨.between, before⟩ '"' = ⟨.string [], before⟩ := rfl
  have htext : (Data.quote s).toList = '"' :: (s.toList.flatMap Data.escapeChar ++ ['"']) := by
    simp [Data.quote]
  rw [htext, List.foldl_cons, hopen, List.foldl_append, foldl_escaped, List.foldl_cons,
    List.foldl_nil]
  simp [Scan.step, Scan.endString, assemble_map_pieceOf]

/-! ### Numbers -/

lemma isBare_of_takeWhile {cs : List Char} (h : ∀ c ∈ cs.dropWhile Char.isDigit, isBare c = true) :
    ∀ c ∈ cs, isBare c = true := by
  intro c hc
  rw [← List.takeWhile_append_dropWhile (p := Char.isDigit) (l := cs)] at hc
  rcases List.mem_append.mp hc with hc | hc
  · exact isBare_of_isDigit (List.mem_takeWhile_imp hc)
  · exact h c hc

lemma isBare_of_exponentOf {cs : List Char} {negative : Bool} {e : ℤ}
    (h : Decimal.exponentOf negative cs = some e) : ∀ c ∈ cs, isBare c = true := by
  simp only [Decimal.exponentOf] at h
  split at h
  · cases h
  next hall =>
    simp only [Bool.or_eq_true, not_or, Bool.not_eq_true', Bool.not_eq_false] at hall
    exact fun c hc => isBare_of_isDigit (List.all_eq_true.mp hall.2 c hc)

lemma isBare_of_signedExponent {cs : List Char} {e : ℤ} (h : Decimal.signedExponent cs = some e) :
    ∀ c ∈ cs, isBare c = true := by
  unfold Decimal.signedExponent at h
  split at h
  · exact List.forall_mem_cons.mpr ⟨by decide, isBare_of_exponentOf h⟩
  · exact List.forall_mem_cons.mpr ⟨by decide, isBare_of_exponentOf h⟩
  · exact isBare_of_exponentOf h

lemma isBare_of_exponent {p : Decimal.Parts} {rest whole : List Char}
    {fraction : Option (List Char)}
    (h : (match rest with
      | [] => some (Decimal.Parts.mk whole fraction none)
      | e :: r =>
        if e == 'e' || e == 'E' then
          (Decimal.signedExponent r).map fun x => ⟨whole, fraction, some x⟩
        else none) = some p) : ∀ c ∈ rest, isBare c = true := by
  cases rest with
  | nil => simp
  | cons e r =>
    by_cases he : (e == 'e' || e == 'E') = true
    · simp only [he, if_true, Option.map_eq_some_iff] at h
      obtain ⟨x, hx, -⟩ := h
      have hmark : isBare e = true := by
        simp only [Bool.or_eq_true, beq_iff_eq] at he
        rcases he with rfl | rfl <;> decide
      exact List.forall_mem_cons.mpr ⟨hmark, isBare_of_signedExponent hx⟩
    · simp [he] at h

lemma isBare_of_ofChars? {cs : List Char} {p : Decimal.Parts}
    (h : Decimal.Parts.ofChars? cs = some p) : ∀ c ∈ cs, isBare c = true := by
  refine isBare_of_takeWhile ?_
  simp only [Decimal.Parts.ofChars?] at h
  cases hrest : cs.dropWhile Char.isDigit with
  | nil => simp
  | cons c r =>
    by_cases hpoint : c = '.'
    · subst hpoint
      simp only [hrest] at h
      exact List.forall_mem_cons.mpr ⟨by decide, isBare_of_takeWhile (isBare_of_exponent h)⟩
    · have hother : ∀ r', c :: r ≠ '.' :: r' := fun r' hr => hpoint (List.cons.inj hr).1
      simp only [hrest] at h
      exact isBare_of_exponent h

lemma bare?_of_number? {cs : List Char} {n : JsonNumber} (h : number? cs = some n) :
    bare? cs = some (.number n) := by
  have hword : ∀ w : String, number? w.toList = none → String.ofList cs ≠ w := by
    rintro w hw rfl
    rw [String.toList_ofList, h] at hw
    cases hw
  have hnull := hword "null" rfl
  have htrue := hword "true" rfl
  have hfalse := hword "false" rfl
  simp [bare?, h]

lemma scans_number {cs : List Char} {n : JsonNumber} (h : number? cs = some n) :
    Scans cs [.number n] := by
  have hbare : ∀ c ∈ cs, isBare c = true := by
    by_cases hsign : ∃ r, cs = '-' :: r
    · obtain ⟨r, rfl⟩ := hsign
      cases hp : Decimal.Parts.ofChars? r with
      | none => simp [number?, hp] at h
      | some p => exact List.forall_mem_cons.mpr ⟨by decide, isBare_of_ofChars? hp⟩
    · have hplain : ∀ r, cs ≠ '-' :: r := fun r hr => hsign ⟨r, hr⟩
      cases hp : Decimal.Parts.ofChars? cs with
      | none => simp [number?, hp] at h
      | some p => exact isBare_of_ofChars? hp
  refine scans_bare ?_ hbare (bare?_of_number? h)
  rintro rfl
  cases h

lemma toList_toString_int (i : ℤ) :
    (toString i).toList = Decimal.signText (i < 0) ++ (toString i.natAbs).toList := by
  cases i with
  | ofNat n => simp [Decimal.signText, toString, Int.repr]
  | negSucc n => simp [Decimal.signText, toString, Int.repr]

lemma number?_integer (i : ℤ) : number? (toString i).toList = some (.ofInt i) := by
  have hnone : ∀ cs ∈ (none : Option (List Char)), Decimal.AreDigits cs ∧ cs ≠ [] := by simp
  have h := number?_parts (Decimal.isWhole_toString i.natAbs) hnone none (i < 0)
  rw [toList_toString_int]
  simp only [Decimal.fractionText, Decimal.exponentText, List.append_nil] at h
  rw [h, Decimal.Parts.numeral]
  simp only [Option.getD_none, List.append_nil, Decimal.naturalOf_toString]
  rfl

end Dossier.Json
