import Mathlib
import Dossier.FactFile
import Dossier.Roster
import Dossier.Proofs.Namespace

/-!
Rosters line by line. In a roster where everybody has an identifier of their own and no two share an
email, identifiers and emails tell the lines apart, also after names and emails are tidied.
-/

namespace Dossier

namespace Text

/-! ### Trimming twice -/

lemma trimStart_eq_self_iff {cs : List Char} :
    trimStart cs = cs ↔ ∀ c ∈ cs.head?, isBlank c = false := by
  cases cs with
  | nil => simp [trimStart]
  | cons c cs => simp [trimStart, List.dropWhile_eq_self_iff]

lemma trimEnd_prefix (cs : List Char) : trimEnd cs <+: cs := cs.rdropWhile_prefix isBlank

lemma trimChars_trimChars (cs : List Char) : trimChars (trimChars cs) = trimChars cs := by
  have hstart : trimStart (trimChars cs) = trimChars cs := by
    have hcs : trimStart (trimStart cs) = trimStart cs := List.dropWhile_idempotent isBlank cs
    rw [trimStart_eq_self_iff] at hcs ⊢
    intro c hc
    obtain ⟨rest, hrest⟩ := trimEnd_prefix (trimStart cs)
    have hhead : (trimStart cs).head? = (trimChars cs).head?.or rest.head? := by
      rw [← List.head?_append, trimChars, hrest]
    refine hcs c ?_
    rw [hhead, Option.mem_def.mp hc, Option.some_or]
    rfl
  rw [trimChars, hstart]
  exact List.rdropWhile_idempotent _ _

lemma trim_trim (s : String) : trim (trim s) = trim s := by
  simp only [trim, String.toList_ofList, trimChars_trimChars]

lemma isEmpty_lower (s : String) : (lower s).isEmpty = s.isEmpty := by
  rw [Bool.eq_iff_iff, String.isEmpty_iff, String.isEmpty_iff, ← String.toList_eq_nil_iff,
    ← String.toList_eq_nil_iff, lower, String.toList_ofList, List.map_eq_nil_iff]

end Text

/-! ### Emails as they are compared -/

lemma Fact.addressForm_trim (email : String) :
    addressForm (Text.trim email) = addressForm email := by
  simp only [addressForm, Text.trim_trim]

/-- The form in which the email of a person is compared, if there is one. -/
def Person.address? (p : Person) : Option String := p.email.map Fact.addressForm

namespace Roster

lemma normal_space : IsNormal space := by
  rw [IsNormal]
  decide +kernel

lemma address?_tidy (p : Person) :
    (tidy p).address? = p.address?.filter fun a => !a.isEmpty := by
  cases hp : p.email with
  | none => simp [tidy, Person.address?, hp]
  | some email =>
    have hempty : (Fact.addressForm email).isEmpty = (Text.trim email).isEmpty :=
      Text.isEmpty_lower _
    simp only [tidy, Person.address?, hp, Option.map_some, Option.filter_some, hempty]
    split <;> simp [Fact.addressForm_trim]

/-! ### Lines that are told apart -/

/-- The lines of the roster. It has none if its file cannot be read. -/
def lines (r : Roster) (read : ReadFile) : List Line :=
  match read r.path with
  | .error _ => []
  | .ok s => (linesOfText? s).getD []

lemma collect_cases (r : Roster) (read : ReadFile) :
    r.collect read = .individuals
        (((r.lines read).filter fun l => l.2.attends r.event).map individual) ∨
      r.lines read = [] ∧ ∃ causes, r.collect read = .fail causes := by
  cases hread : read r.path with
  | error e =>
    simp only [lines, collect, hread]
    exact .inr ⟨trivial, _, rfl⟩
  | ok text =>
    cases hlines : linesOfText? text with
    | none =>
      simp only [lines, collect, individuals?, hread, hlines]
      exact .inr ⟨rfl, _, rfl⟩
    | some ls =>
      simp only [lines, collect, individuals?, hread, hlines]
      exact .inl rfl

lemma primary_congr {r : Roster} {read read' : ReadFile} (h : read r.path = read' r.path) :
    r.primary read = r.primary read' := by
  simp only [primary, collect, h]

/-- Every line has an identifier of its own, and no two lines have the same email, as far as it is
not blank. -/
structure Distinct (ls : List Line) : Prop where
  known : ∀ l ∈ ls, l.1.isSome = true
  ids : (ls.map (·.1)).Nodup
  addresses : ((ls.filterMap (·.2.address?)).filter fun a => !a.isEmpty).Nodup

variable {ls : List Line}

lemma Distinct.filter (h : Distinct ls) (q : Line → Bool) : Distinct (ls.filter q) := by
  have hsub : (ls.filter q).Sublist ls := List.filter_sublist
  exact ⟨fun l hl => h.known l (hsub.mem hl), h.ids.sublist (hsub.map _),
    h.addresses.sublist ((hsub.filterMap _).filter _)⟩

lemma Distinct.tidied (h : Distinct ls) : ls.Pairwise fun l m => ∀ a,
    (tidy l.2).address? = some a → (tidy m.2).address? ≠ some a := by
  have hall : (ls.filterMap fun l => (tidy l.2).address?).Nodup := by
    simpa only [address?_tidy, List.filter_filterMap] using h.addresses
  exact (List.pairwise_filterMap.mp hall).imp fun {l m} hlm a hl hm => hlm a hl a hm rfl

end Roster

end Dossier
