import Dossier.Proofs.Json.Tree

/-!
Reading indented text. Line ends and indentation stand between tokens only, so the indented text of
data is scanned to the same tokens as the compact one, however deep it stands, and both are read as
the same tree.
-/

namespace Dossier.Data

open Json

/-- The texts as which data is printed: on one line without blanks, or indented from some depth. -/
inductive Prints (d : Data) : String → Prop where
  | compact : Prints d d.compact
  | indented (depth : ℕ) : Prints d (d.indentedAt depth)

lemma isSpace_indent (depth : ℕ) : ∀ c ∈ (indent depth).toList, isSpace c = true := by
  intro c hc
  rw [indent, String.toList_ofList] at hc
  rw [List.eq_of_mem_replicate hc]
  rfl

lemma scans_block (depth : ℕ) {first last : String} {f l : Char} {t u : Token}
    (hfirst : first.toList = [f]) (hlast : last.toList = [l]) (ht : punctuation? f = some t)
    (hu : punctuation? l = some u) (hbare : isBare l = false) {ss : List String}
    {tss : List (List Token)} (h : List.Forall₂ (fun s ts => Scans s.toList ts) ss tss) :
    Closes (block depth first last ss).toList (t :: (separate tss ++ [u])) := by
  have hline : ∀ depth, ∀ c ∈ '\n' :: (indent depth).toList, isSpace c = true :=
    fun depth => List.forall_mem_cons.mpr ⟨rfl, isSpace_indent depth⟩
  cases h with
  | nil =>
    have hempty : Closes [f, l] [t, u] :=
      (closes_punctuation ht : Closes [f] _).append (closes_punctuation hu : Closes [l] _)
    simpa [block, hfirst, hlast, separate] using hempty
  | cons hs hrest =>
    have hlines := scans_bracketed (",\n" ++ indent (depth + 1)) _ _ ht hu hbare (by simp)
      (hline (depth + 1)) (hline (depth + 1)) (hline depth) (.cons hs hrest)
    simpa [block, hfirst, hlast] using hlines

mutual

/-- Indented text is scanned to the tokens of the data. -/
theorem scans_indentedAt : ∀ (depth : ℕ) (d : Data), Scans (d.indentedAt depth).toList d.tokens
  | _, null => scans_compact null
  | _, bool b => scans_compact (bool b)
  | _, integer i => scans_compact (integer i)
  | _, real x => scans_compact (real x)
  | _, string s => scans_compact (string s)
  | depth, array items =>
    (scans_block depth rfl rfl rfl rfl (by decide) (scans_indentedItems (depth + 1) items)).scans
  | depth, object members =>
    (scans_block depth rfl rfl rfl rfl (by decide)
      (scans_indentedMembers (depth + 1) members)).scans

theorem scans_indentedItems : ∀ (depth : ℕ) (ds : List Data),
    List.Forall₂ (fun s ts => Scans s.toList ts) (indentedItems depth ds) (itemTokens ds)
  | _, [] => .nil
  | depth, d :: ds => .cons (scans_indentedAt depth d) (scans_indentedItems depth ds)

theorem scans_indentedMembers : ∀ (depth : ℕ) (ds : List (String × Data)),
    List.Forall₂ (fun s ts => Scans s.toList ts) (indentedMembers depth ds) (memberTokens ds)
  | _, [] => .nil
  | depth, (k, d) :: ds => by
    have hcolon : Closes [':', ' '] [Token.colon] :=
      (closes_punctuation rfl : Closes [':'] _).append (closes_spaces (by simp [isSpace]))
    have h := ((closes_quote k).append hcolon).append_scans (scans_indentedAt depth d)
    exact .cons (by simpa using h) (scans_indentedMembers depth ds)

end

/-- **Printed data is read as its tree**, on one line or indented. -/
theorem Prints.ofText? {d : Data} {s : String} (h : d.Prints s) : Json.ofText? s = some d.tree := by
  cases h with
  | compact => exact d.ofText?_compact
  | indented depth => exact ofText?_of_scans (scans_indentedAt depth d)

end Dossier.Data
