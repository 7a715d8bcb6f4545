/-!
Finite maps as lists of pairs in increasing order of their keys. The order is part of the type,
so a map is listed in one way only: two maps that hold the same pairs are equal.
-/

namespace Dossier

abbrev Increasing {κ ν : Type} [Ord κ] (es : List (κ × ν)) : Prop :=
  es.Pairwise fun a b => compare a.1 b.1 = .lt

structure SortedMap (κ ν : Type) [Ord κ] where
  entries : List (κ × ν)
  increasing : Increasing entries

namespace SortedMap

variable {κ ν : Type} [Ord κ]

instance [DecidableEq κ] [DecidableEq ν] : DecidableEq (SortedMap κ ν) := fun a b =>
  decidable_of_iff (a.entries = b.entries)
    ⟨fun h => by cases a; cases b; simp_all, fun h => h ▸ rfl⟩

def empty : SortedMap κ ν := ⟨[], .nil⟩

instance : EmptyCollection (SortedMap κ ν) := ⟨empty⟩

def toList (m : SortedMap κ ν) : List (κ × ν) := m.entries

def size (m : SortedMap κ ν) : Nat := m.entries.length

def isEmpty (m : SortedMap κ ν) : Bool := m.entries.isEmpty

def keys (m : SortedMap κ ν) : List κ := m.entries.map (·.1)

def lookup (k : κ) : List (κ × ν) → Option ν
  | [] => none
  | (a, v) :: es => if compare k a = .eq then some v else lookup k es

def get? (m : SortedMap κ ν) (k : κ) : Option ν := lookup k m.entries

def contains (m : SortedMap κ ν) (k : κ) : Bool := (m.get? k).isSome

/-- Puts a pair into its place; the value under an equal key gives way. -/
def place (k : κ) (v : ν) : List (κ × ν) → List (κ × ν)
  | [] => [(k, v)]
  | (a, w) :: es =>
    match compare k a with
    | .lt => (k, v) :: (a, w) :: es
    | .eq => (k, v) :: es
    | .gt => (a, w) :: place k v es

theorem mem_place {k : κ} {v : ν} {e : κ × ν} {es : List (κ × ν)} (h : e ∈ place k v es) :
    e = (k, v) ∨ e ∈ es := by
  induction es with
  | nil => simpa [place] using h
  | cons d es ih =>
    obtain ⟨a, w⟩ := d
    simp only [place] at h
    split at h
    · simpa using h
    · rcases List.mem_cons.1 h with h | h
      · exact .inl h
      · exact .inr (List.mem_cons_of_mem _ h)
    · rcases List.mem_cons.1 h with h | h
      · exact .inr (h ▸ List.mem_cons_self)
      · exact (ih h).imp_right (List.mem_cons_of_mem _)

variable [Std.TransOrd κ]

theorem increasing_place (k : κ) (v : ν) {es : List (κ × ν)} (h : Increasing es) :
    Increasing (place k v es) := by
  induction es with
  | nil => simp [place, Increasing]
  | cons d es ih =>
    obtain ⟨a, w⟩ := d
    obtain ⟨hd, ht⟩ := List.pairwise_cons.1 h
    simp only [place]
    split
    next hlt =>
      refine List.pairwise_cons.2 ⟨fun e he => ?_, h⟩
      rcases List.mem_cons.1 he with rfl | he
      · exact hlt
      · exact Std.TransCmp.lt_trans hlt (hd e he)
    next heq =>
      exact List.pairwise_cons.2 ⟨fun e he => Std.TransCmp.lt_of_eq_of_lt heq (hd e he), ht⟩
    next hgt =>
      refine List.pairwise_cons.2 ⟨fun e he => ?_, ih ht⟩
      rcases mem_place he with rfl | he
      · exact Std.OrientedCmp.lt_of_gt hgt
      · exact hd e he

def insert (m : SortedMap κ ν) (k : κ) (v : ν) : SortedMap κ ν :=
  ⟨place k v m.entries, increasing_place k v m.increasing⟩

def insertAll (m : SortedMap κ ν) (es : List (κ × ν)) : SortedMap κ ν :=
  es.foldl (fun m e => m.insert e.1 e.2) m

def ofList (es : List (κ × ν)) : SortedMap κ ν := empty.insertAll es

def filter (m : SortedMap κ ν) (p : κ → ν → Bool) : SortedMap κ ν :=
  ⟨m.entries.filter fun e => p e.1 e.2, m.increasing.filter _⟩

end SortedMap

end Dossier
