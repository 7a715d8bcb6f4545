import Mathlib
import Dossier.Uuid

/-!
Written identifiers. Of the four spellings that are read one is written, and it is read back.
-/

namespace Dossier.Uuid

lemma hexValue?_hexChar (d : Fin 16) : hexValue? (hexChar d) = some d := by
  revert d
  decide

lemma mapM_hexValue? (ds : List (Fin 16)) : (ds.map hexChar).mapM hexValue? = some ds := by
  induction ds with
  | nil => rfl
  | cons d ds ih => simp [hexValue?_hexChar, ih]

lemma unhyphenate?_groups {a b c d e : List Char} (ha : a.length = 8) (hb : b.length = 4)
    (hc : c.length = 4) (hd : d.length = 4) (he : e.length = 12) :
    unhyphenate? (a ++ '-' :: (b ++ '-' :: (c ++ '-' :: (d ++ '-' :: e)))) =
      some (a ++ b ++ c ++ d ++ e) := by
  simp (disch := omega) [unhyphenate?, List.drop_append, List.drop_eq_nil_of_le,
    ha, hb, hc, hd, he]

lemma unhyphenate?_hyphenate {cs : List Char} (h : cs.length = 32) :
    unhyphenate? (hyphenate cs) = some cs := by
  rw [hyphenate, unhyphenate?_groups (by simp [h]) (by simp [h]) (by simp [h]) (by simp [h])
    (by simp [h])]
  have hd : (cs.drop 16).take 4 ++ cs.drop 20 = cs.drop 16 := by
    simpa using List.take_append_drop 4 (cs.drop 16)
  have hc : (cs.drop 12).take 4 ++ cs.drop 16 = cs.drop 12 := by
    simpa using List.take_append_drop 4 (cs.drop 12)
  have hb : (cs.drop 8).take 4 ++ cs.drop 12 = cs.drop 8 := by
    simpa using List.take_append_drop 4 (cs.drop 8)
  rw [List.append_assoc, hd, List.append_assoc, hc, List.append_assoc, hb, List.take_append_drop]

/-- **An identifier is read back** from its text. -/
theorem ofText?_text (u : Uuid) : ofText? u.text = some u := by
  have hlength : (hyphenate (u.digits.map hexChar)).length = 36 := by
    simp [hyphenate, u.length_eq]
  have hbare : bareDigits? u.text.toList = some (u.digits.map hexChar) := by
    rw [text, String.toList_ofList]
    unfold bareDigits?
    rw [hlength, if_neg (by decide), if_pos (by decide)]
    exact unhyphenate?_hyphenate (by rw [List.length_map, u.length_eq])
  rw [ofText?, hbare, Option.bind_eq_bind, Option.bind_some, mapM_hexValue?]
  exact dif_pos u.length_eq

end Dossier.Uuid
