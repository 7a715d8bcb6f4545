import Mathlib
import Dossier.Json.Reading
import Dossier.Proofs.Decimal.Numerals
import Dossier.Proofs.Json.Tokens

/-!
Reading what was written. The compact text of data is scanned to the tokens of that data, and these
are read to its tree: nothing of the shape, the names, the texts and the integers is lost, and of a
double what stays is its numeral.
-/

namespace Dossier

open Json (Token Reader Frame Expect)

namespace Data

/-- The number that a double is written as; none if it is not finite. -/
def written? (x : Float) : Option JsonNumber := Json.number? (Decimal.dataText x).toList

def separate : List (List Token) → List Token
  | [] => []
  | [ts] => ts
  | ts :: us :: tss => ts ++ .comma :: separate (us :: tss)

mutual

def tokens : Data → List Token
  | null => [.null]
  | bool b => [.bool b]
  | integer i => [.number (.ofInt i)]
  | real x => [(written? x).elim .null .number]
  | string s => [.string (some s)]
  | array items => .beginArray :: (separate (itemTokens items) ++ [.endArray])
  | object members => .beginObject :: (separate (memberTokens members) ++ [.endObject])

def itemTokens : List Data → List (List Token)
  | [] => []
  | d :: ds => tokens d :: itemTokens ds

def memberTokens : List (String × Data) → List (List Token)
  | [] => []
  | (k, d) :: ds => (.string (some k) :: .colon :: tokens d) :: memberTokens ds

end

mutual

def tree : Data → Json
  | null => .null
  | bool b => .bool b
  | integer i => .number (.ofInt i)
  | real x => (written? x).elim .null .number
  | string s => .string (some s)
  | array items => .array (itemTrees items)
  | object members => .object (memberTrees members)

def itemTrees : List Data → List Json
  | [] => []
  | d :: ds => tree d :: itemTrees ds

def memberTrees : List (String × Data) → List (Option String × Json)
  | [] => []
  | (k, d) :: ds => (some k, tree d) :: memberTrees ds

end

lemma itemTrees_eq_map (ds : List Data) : itemTrees ds = ds.map tree := by
  induction ds with
  | nil => rfl
  | cons d ds ih => rw [itemTrees, ih, List.map_cons]

lemma memberTrees_eq_map (ds : List (String × Data)) :
    memberTrees ds = ds.map fun m => (some m.1, m.2.tree) := by
  induction ds with
  | nil => rfl
  | cons d ds ih => rw [memberTrees, ih, List.map_cons]

end Data

open Json

/-! ### Texts -/

lemma Data.scans_word {w : String} {t : Token} (hne : w.toList ≠ [])
    (h : w.toList.all isBare = true) (ht : bare? w.toList = some t) : Scans w.toList [t] :=
  scans_bare hne (List.all_eq_true.mp h) ht

namespace Data

lemma scans_real (x : Float) : Scans (Decimal.dataText x).toList (real x).tokens := by
  by_cases h : Decimal.isFinite x = true
  · obtain ⟨n, hn, -⟩ := Decimal.number?_dataText h
    have htokens : (real x).tokens = [.number ⟨n, false⟩] := by
      rw [tokens, written?, hn]
      rfl
    rw [htokens]
    exact scans_number hn
  · have htext := Decimal.dataText_of_not_finite (Bool.eq_false_iff.mpr h)
    have htokens : (real x).tokens = [.null] := by
      rw [tokens, written?, htext]
      rfl
    rw [htokens, htext]
    exact scans_word (by decide) (by decide) rfl

lemma scans_joinWith {sep : String} {blanks : List Char} (hsep : sep.toList = ',' :: blanks)
    (hblanks : ∀ c ∈ blanks, isSpace c = true) {ss : List String} {tss : List (List Token)}
    (h : List.Forall₂ (fun s ts => Scans s.toList ts) ss tss) (hne : ss ≠ []) :
    Scans (joinWith sep ss).toList (separate tss) := by
  induction h with
  | nil => exact absurd rfl hne
  | cons hs hrest ih =>
    cases hrest with
    | nil => exact hs
    | cons hs' hrest' =>
      have hcomma : Closes (',' :: blanks) [Token.comma] :=
        (closes_punctuation rfl : Closes [','] _).append (closes_spaces hblanks)
      have hbehind := (hs.append_closes (by decide) hcomma).append_scans (ih (by simp))
      simpa [joinWith, separate, hsep] using hbehind

/-- An array or an object: what stands between its marks and the blanks there, or nothing. -/
lemma scans_bracketed (sep : String) (before after : List Char) {between : List Char}
    {first last : Char} {t u : Token} {ss : List String} {tss : List (List Token)}
    (hfirst : punctuation? first = some t) (hlast : punctuation? last = some u)
    (hbare : isBare last = false) (hsep : sep.toList = ',' :: between)
    (hbefore : ∀ c ∈ before, isSpace c = true) (hbetween : ∀ c ∈ between, isSpace c = true)
    (hafter : ∀ c ∈ after, isSpace c = true)
    (h : List.Forall₂ (fun s ts => Scans s.toList ts) ss tss) :
    Closes (first :: (before ++ ((joinWith sep ss).toList ++ (after ++ [last]))))
      (t :: (separate tss ++ [u])) := by
  have hopen : Closes (first :: before) [t] :=
    (closes_punctuation hfirst : Closes [first] _).append (closes_spaces hbefore)
  have hclose : Closes [last] [u] := closes_punctuation hlast
  by_cases hne : ss = []
  · subst hne
    cases h
    exact hopen.append ((closes_spaces hafter).append hclose)
  · exact hopen.append ((scans_joinWith hsep hbetween h hne).append_spaced hafter hbare hclose)

mutual

/-- The text of data is scanned to its tokens. -/
theorem scans_compact : ∀ d : Data, Scans d.compact.toList d.tokens
  | null => scans_word (by decide) (by decide) rfl
  | bool true => scans_word (by decide) (by decide) rfl
  | bool false => scans_word (by decide) (by decide) rfl
  | integer i => scans_number (number?_integer i)
  | real x => scans_real x
  | string s => (closes_quote s).scans
  | array items => by
    have h : Closes ('[' :: ((joinWith "," (compactItems items)).toList ++ [']'])) _ :=
      scans_bracketed "," [] [] rfl rfl (by decide) rfl (by simp) (by simp)
        (by simp) (scans_items items)
    simpa [compact, tokens] using h.scans
  | object members => by
    have h : Closes ('\x7b' :: ((joinWith "," (compactMembers members)).toList ++ ['\x7d'])) _ :=
      scans_bracketed "," [] [] rfl rfl (by decide) rfl (by simp) (by simp)
        (by simp) (scans_members members)
    simpa [compact, tokens] using h.scans

theorem scans_items : ∀ ds : List Data,
    List.Forall₂ (fun s ts => Scans s.toList ts) (compactItems ds) (itemTokens ds)
  | [] => .nil
  | d :: ds => .cons (scans_compact d) (scans_items ds)

theorem scans_members : ∀ ds : List (String × Data),
    List.Forall₂ (fun s ts => Scans s.toList ts) (compactMembers ds) (memberTokens ds)
  | [] => .nil
  | (k, d) :: ds => by
    have hcolon : Closes [':'] [Token.colon] := closes_punctuation rfl
    have h := ((closes_quote k).append hcolon).append_scans (scans_compact d)
    exact .cons (by simpa using h) (scans_members ds)

end

end Data

/-! ### Trees -/

namespace Json.Reader

lemma run_cons (r : Reader) (t : Token) (ts : List Token) :
    r.run (t :: ts) = (r.step t).bind (·.run ts) := by
  rw [run]
  cases r.step t <;> rfl

lemma step_start {e : Expect} (he : e = .value ∨ e = .item) (fs : List Frame) {t : Token}
    (ht : t ≠ .endArray) : step ⟨fs, e⟩ t = start fs t := by
  rcases he with rfl | rfl
  · rfl
  · cases t <;> first | rfl | exact absurd rfl ht

lemma run_member {e : Expect} (he : e = .name ∨ e = .firstName) (fs : List Frame)
    (members : List (Option String × Json)) (name : Option String) (ts : List Token) :
    run ⟨.object members :: fs, e⟩ (.string name :: .colon :: ts) =
      run ⟨.member members name :: fs, .value⟩ ts := by
  rcases he with rfl | rfl <;> simp [run_cons, step, named]

end Json.Reader

namespace Data

open Json.Reader

mutual

/-- **The tokens of data** are read to its tree, wherever a value may stand. -/
theorem run_tokens : ∀ (d : Data) {e : Expect} (fs : List Frame) (ts : List Token),
    e = .value ∨ e = .item →
      Reader.run ⟨fs, e⟩ (d.tokens ++ ts) = (take fs d.tree).bind (·.run ts)
  | null, _, fs, ts, he => by
    rw [tokens, List.singleton_append, run_cons, step_start he fs (by simp)]
    rfl
  | bool b, _, fs, ts, he => by
    rw [tokens, List.singleton_append, run_cons, step_start he fs (by simp)]
    rfl
  | integer i, _, fs, ts, he => by
    rw [tokens, List.singleton_append, run_cons, step_start he fs (by simp)]
    rfl
  | real x, _, fs, ts, he => by
    rw [tokens, tree, List.singleton_append, run_cons]
    cases written? x with
    | none => rw [step_start he fs (by simp)]; rfl
    | some n => rw [step_start he fs (by simp)]; rfl
  | string s, _, fs, ts, he => by
    rw [tokens, List.singleton_append, run_cons, step_start he fs (by simp)]
    rfl
  | array items, _, fs, ts, he => by
    rw [tokens, List.cons_append, run_cons, step_start he fs (by simp), List.append_assoc]
    cases items with
    | nil => exact run_cons ⟨.array [] :: fs, .item⟩ .endArray ts
    | cons d ds => exact run_items (d :: ds) fs [] ts (by simp) (.inr rfl)
  | object members, _, fs, ts, he => by
    rw [tokens, List.cons_append, run_cons, step_start he fs (by simp), List.append_assoc]
    cases members with
    | nil => exact run_cons ⟨.object [] :: fs, .firstName⟩ .endObject ts
    | cons d ds => exact run_members (d :: ds) fs [] ts (by simp) (.inr rfl)

theorem run_items : ∀ (ds : List Data) {e : Expect} (fs : List Frame) (items : List Json)
    (ts : List Token), ds ≠ [] → e = .value ∨ e = .item →
      Reader.run ⟨.array items :: fs, e⟩ (separate (itemTokens ds) ++ ([.endArray] ++ ts)) =
        (take fs (.array (items.reverse ++ itemTrees ds))).bind (·.run ts)
  | [], _, _, _, _, hne, _ => absurd rfl hne
  | [d], _, fs, items, ts, _, he => by
    rw [itemTokens, itemTokens, separate, run_tokens d _ _ he]
    simp [Reader.take, run_cons, Reader.step, itemTrees]
  | d :: d' :: ds, _, fs, items, ts, _, he => by
    have ih := run_items (d' :: ds) fs (d.tree :: items) ts (by simp) (.inl rfl)
    rw [itemTokens, itemTokens, separate, List.append_assoc, run_tokens d _ _ he]
    simpa [Reader.take, run_cons, Reader.step, itemTrees, itemTokens] using ih

theorem run_members : ∀ (ds : List (String × Data)) {e : Expect} (fs : List Frame)
    (members : List (Option String × Json)) (ts : List Token), ds ≠ [] →
      e = .name ∨ e = .firstName →
      Reader.run ⟨.object members :: fs, e⟩ (separate (memberTokens ds) ++ ([.endObject] ++ ts)) =
        (take fs (.object (members.reverse ++ memberTrees ds))).bind (·.run ts)
  | [], _, _, _, _, hne, _ => absurd rfl hne
  | [(k, d)], _, fs, members, ts, _, he => by
    rw [memberTokens, memberTokens, separate, List.cons_append, List.cons_append,
      run_member he, run_tokens d _ _ (.inl rfl)]
    simp [Reader.take, run_cons, Reader.step, memberTrees]
  | (k, d) :: d' :: ds, _, fs, members, ts, _, he => by
    have ih := run_members (d' :: ds) fs ((some k, d.tree) :: members) ts (by simp) (.inl rfl)
    rw [memberTokens, memberTokens, separate, List.append_assoc, List.cons_append, List.cons_append,
      run_member he, run_tokens d _ _ (.inl rfl)]
    simpa [Reader.take, run_cons, Reader.step, memberTrees, memberTokens] using ih

end

lemma ofText?_of_scans {s : String} {d : Data} (h : Scans s.toList d.tokens) :
    Json.ofText? s = some d.tree := by
  have hrun := run_tokens d [] [] (.inl rfl)
  rw [List.append_nil] at hrun
  rw [Json.ofText?, tokens?_of_scans h, Option.bind_some, Json.ofTokens?, hrun]
  rfl

/-- **Written data is read as its tree.** -/
theorem ofText?_compact (d : Data) : Json.ofText? d.compact = some d.tree :=
  ofText?_of_scans d.scans_compact

end Data

end Dossier
