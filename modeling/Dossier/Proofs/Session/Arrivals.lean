import Dossier.Session
import Dossier.Proofs.Store.LastWrite
import Mathlib.Data.List.Forall2

/-!
Who is taken in. The individuals come in one after the other, each under the identifier that it has
or else under the next one of the supply; the first under an identifier is taken in, the later ones
are dropped. An archive that gives the identifiers out instead changes nothing of this, so long as
it does not fail. Where the supply is fresh, only those who had an identifier can be dropped.
-/

namespace Dossier

/-! ### First occurrences in a list -/

section Occurrences

variable {α β κ : Type} [DecidableEq κ]

/-- The elements of a list, each with all that stands before it. -/
def withEarlier (before : List α) : List α → List (List α × α)
  | [] => []
  | x :: xs => (before, x) :: withEarlier (before ++ [x]) xs

/-- The key of an element, if an earlier element has the same. -/
def repeated? (key : α → Option κ) (e : List α × α) : Option κ :=
  (key e.2).filter fun k => e.1.any (key · == some k)

/-- The elements whose key stands nowhere before them, and those that have none. -/
def firsts (key : α → Option κ) (before xs : List α) : List α :=
  ((withEarlier before xs).filter fun e => (repeated? key e).isNone).map (·.2)

/-- The keys of the other elements. -/
def repeats (key : α → Option κ) (before xs : List α) : List κ :=
  (withEarlier before xs).filterMap (repeated? key)

variable {key : α → Option κ} {before xs : List α}

lemma firsts_cons (x : α) : firsts key before (x :: xs) =
    if (repeated? key (before, x)).isNone then x :: firsts key (before ++ [x]) xs
    else firsts key (before ++ [x]) xs := by
  simp only [firsts, withEarlier, List.filter_cons]
  split <;> rfl

lemma repeats_cons (x : α) : repeats key before (x :: xs) =
    (repeated? key (before, x)).toList ++ repeats key (before ++ [x]) xs := by
  simp only [repeats, withEarlier, List.filterMap_cons]
  cases repeated? key (before, x) <;> rfl

lemma map_snd_withEarlier (before xs : List α) : (withEarlier before xs).map (·.2) = xs := by
  induction xs generalizing before with
  | nil => rfl
  | cons x xs ih => exact congrArg (x :: ·) (ih _)

lemma firsts_sublist (key : α → Option κ) (before xs : List α) :
    (firsts key before xs).Sublist xs := by
  induction xs generalizing before with
  | nil => exact .slnil
  | cons x xs ih =>
    rw [firsts_cons]
    split
    · exact (ih _).cons_cons x
    · exact (ih _).cons x

lemma repeated?_map (f : β → α) (e : List β × β) :
    repeated? key (e.1.map f, f e.2) = repeated? (key ∘ f) e := by
  simp only [repeated?, List.any_map]
  rfl

lemma withEarlier_map (f : β → α) (before xs : List β) :
    withEarlier (before.map f) (xs.map f) =
      (withEarlier before xs).map fun e => (e.1.map f, f e.2) := by
  induction xs generalizing before with
  | nil => rfl
  | cons x xs ih => simpa [withEarlier] using ih (before ++ [x])

lemma firsts_map (f : β → α) (before xs : List β) :
    firsts key (before.map f) (xs.map f) = (firsts (key ∘ f) before xs).map f := by
  simp only [firsts, withEarlier_map, List.filter_map, List.map_map, Function.comp_def,
    repeated?_map]

lemma repeats_map (f : β → α) (before xs : List β) :
    repeats key (before.map f) (xs.map f) = repeats (key ∘ f) before xs := by
  simp only [repeats, withEarlier_map, List.filterMap_map, Function.comp_def, repeated?_map]

lemma repeated?_eq_some_iff {e : List α × α} {k : κ} :
    repeated? key e = some k ↔ key e.2 = some k ∧ ∃ a ∈ e.1, key a = some k := by
  simp [repeated?, Option.filter_eq_some_iff]

lemma pairwise_withEarlier {R : α → α → Prop} (h : (before ++ xs).Pairwise R) :
    ∀ e ∈ withEarlier before xs, ∀ a ∈ e.1, R a e.2 := by
  induction xs generalizing before with
  | nil => simp [withEarlier]
  | cons x xs ih =>
    intro e he a ha
    rcases List.mem_cons.mp he with rfl | he
    · exact (List.pairwise_append.mp h).2.2 a ha x List.mem_cons_self
    · exact ih (by simpa using h) e he a ha

/-- Two ways to take keys find the same repetitions, if they agree on which elements share one. -/
lemma occurrences_congr {key' : α → Option κ} (h : (before ++ xs).Pairwise fun a b => ∀ k,
      key a = some k ∧ key b = some k ↔ key' a = some k ∧ key' b = some k) :
    firsts key before xs = firsts key' before xs ∧
      repeats key before xs = repeats key' before xs := by
  have hsame : ∀ e ∈ withEarlier before xs, repeated? key e = repeated? key' e := by
    intro e he
    refine Option.ext fun k => ?_
    simp only [repeated?_eq_some_iff]
    constructor
    · rintro ⟨hx, a, ha, hk⟩
      obtain ⟨hk', hx'⟩ := (pairwise_withEarlier h e he a ha k).mp ⟨hk, hx⟩
      exact ⟨hx', a, ha, hk'⟩
    · rintro ⟨hx, a, ha, hk⟩
      obtain ⟨hk', hx'⟩ := (pairwise_withEarlier h e he a ha k).mpr ⟨hk, hx⟩
      exact ⟨hx', a, ha, hk'⟩
  refine ⟨?_, List.filterMap_congr hsame⟩
  unfold firsts
  rw [List.filter_congr fun e he => by rw [hsame e he]]

lemma repeated?_of_nodup (h : (xs.map key).Nodup) :
    ∀ e ∈ withEarlier [] xs, repeated? key e = none := by
  intro e he
  have hapart : ∀ a ∈ e.1, key a ≠ key e.2 :=
    pairwise_withEarlier (List.pairwise_append.mpr ⟨.nil, List.pairwise_map.mp h, by simp⟩) e he
  rw [Option.eq_none_iff_forall_ne_some]
  intro k hk
  obtain ⟨hx, a, ha, hak⟩ := repeated?_eq_some_iff.mp hk
  exact hapart a ha (hak.trans hx.symm)

lemma firsts_of_nodup (h : (xs.map key).Nodup) : firsts key [] xs = xs := by
  have hnone : ∀ e ∈ withEarlier [] xs, (repeated? key e).isNone = true := by
    intro e he
    rw [repeated?_of_nodup h e he]
    rfl
  rw [firsts, List.filter_eq_self.mpr hnone, map_snd_withEarlier]

lemma repeats_of_nodup (h : (xs.map key).Nodup) : repeats key [] xs = [] :=
  List.filterMap_eq_nil_iff.mpr (repeated?_of_nodup h)

end Occurrences

/-! ### The identifiers of the newcomers -/

/-- The next identifiers of a supply. -/
def IdSupply.upcoming (ids : IdSupply) (m : ℕ) : List Uuid :=
  (List.range m).map fun j => ids.name (ids.drawn + j)

lemma IdSupply.upcoming_succ (ids : IdSupply) (m : ℕ) :
    ids.upcoming (m + 1) = ids.draw.1 :: ids.draw.2.upcoming m := by
  simp only [upcoming, draw, List.range_succ_eq_map, List.map_cons, List.map_map, Nat.add_zero]
  refine congrArg _ (List.map_congr_left fun j _ => congrArg ids.name ?_)
  show ids.drawn + (j + 1) = ids.drawn + 1 + j
  omega

namespace Session

/-- How many individuals have no identifier yet. -/
def newcomers (is : List Individual) : ℕ := is.countP (·.id.isNone)

/-- As long as it is needed, the supply repeats neither itself nor an identifier that somebody came
with. -/
structure Fresh (ids : IdSupply) (is : List Individual) : Prop where
  apart : (ids.upcoming (newcomers is)).Nodup
  unused : ∀ id ∈ ids.upcoming (newcomers is), ∀ i ∈ is, i.id ≠ some id

/-- The individuals, each with the entry as which it would be taken in. -/
def arrivals (ids : IdSupply) : List Individual → List (Individual × Entry)
  | [] => []
  | i :: is =>
    (i, ⟨(ids.complete i.id).1, i.toPerson, i.attributes⟩) :: arrivals (ids.complete i.id).2 is

structure Arrives (fresh : List Uuid) (i : Individual) (e : Entry) : Prop where
  person : e.person = i.toPerson
  attributes : e.attributes = i.attributes
  known : ∀ id, i.id = some id → e.id = id
  new : i.id = none → e.id ∈ fresh

variable {ids : IdSupply} {is : List Individual} {i : Individual}

lemma newcomers_cons_of_some {id : Uuid} (hi : i.id = some id) :
    newcomers (i :: is) = newcomers is := by simp [newcomers, hi]

lemma newcomers_cons_of_none (hi : i.id = none) : newcomers (i :: is) = newcomers is + 1 := by
  simp [newcomers, hi]

lemma arrivals_cons_of_some {id : Uuid} (hi : i.id = some id) (ids : IdSupply) :
    arrivals ids (i :: is) = (i, ⟨id, i.toPerson, i.attributes⟩) :: arrivals ids is := by
  simp [arrivals, hi, IdSupply.complete]

lemma arrivals_cons_of_none (hi : i.id = none) (ids : IdSupply) : arrivals ids (i :: is) =
    (i, ⟨ids.draw.1, i.toPerson, i.attributes⟩) :: arrivals ids.draw.2 is := by
  simp [arrivals, hi, IdSupply.complete]

lemma fst_arrivals (ids : IdSupply) (is : List Individual) : (arrivals ids is).map (·.1) = is := by
  induction is generalizing ids with
  | nil => rfl
  | cons i is ih => simp [arrivals, ih]

lemma arrives (ids : IdSupply) (is : List Individual) :
    ∀ p ∈ arrivals ids is, Arrives (ids.upcoming (newcomers is)) p.1 p.2 := by
  induction is generalizing ids with
  | nil => simp [arrivals]
  | cons i is ih =>
    intro p hp
    cases hi : i.id with
    | some id =>
      rw [arrivals_cons_of_some hi] at hp
      rw [newcomers_cons_of_some hi]
      rcases List.mem_cons.mp hp with rfl | hp
      · exact ⟨rfl, rfl, fun id' hid => Option.some.inj (hi.symm.trans hid), by simp [hi]⟩
      · exact ih ids p hp
    | none =>
      rw [arrivals_cons_of_none hi] at hp
      rw [newcomers_cons_of_none hi, IdSupply.upcoming_succ]
      rcases List.mem_cons.mp hp with rfl | hp
      · exact ⟨rfl, rfl, by simp [hi], fun _ => List.mem_cons_self⟩
      · have h := ih ids.draw.2 p hp
        exact ⟨h.person, h.attributes, h.known, fun hnone => List.mem_cons_of_mem _ (h.new hnone)⟩

lemma Fresh.of_known (h : Fresh ids (i :: is)) {id : Uuid} (hi : i.id = some id) :
    Fresh ids is := by
  obtain ⟨hapart, hunused⟩ := h
  rw [newcomers_cons_of_some hi] at hapart hunused
  exact ⟨hapart, fun id hid j hj => hunused id hid j (List.mem_cons_of_mem _ hj)⟩

lemma Fresh.of_new (h : Fresh ids (i :: is)) (hi : i.id = none) :
    ids.draw.1 ∉ ids.draw.2.upcoming (newcomers is) ∧ (∀ j ∈ is, j.id ≠ some ids.draw.1) ∧
      Fresh ids.draw.2 is := by
  obtain ⟨hapart, hunused⟩ := h
  rw [newcomers_cons_of_none hi, IdSupply.upcoming_succ] at hapart hunused
  obtain ⟨hnew, hapart⟩ := List.nodup_cons.mp hapart
  exact ⟨hnew, fun j hj => hunused _ List.mem_cons_self j (List.mem_cons_of_mem _ hj), hapart,
    fun id hid j hj => hunused id (List.mem_cons_of_mem _ hid) j (List.mem_cons_of_mem _ hj)⟩

lemma arrivals_apart (hf : Fresh ids is) : (arrivals ids is).Pairwise fun a b => ∀ id,
    some a.2.id = some id ∧ some b.2.id = some id ↔ a.1.id = some id ∧ b.1.id = some id := by
  induction is generalizing ids with
  | nil => exact .nil
  | cons i is ih =>
    have hmem : ∀ {ids : IdSupply} {b : Individual × Entry}, b ∈ arrivals ids is → b.1 ∈ is :=
      fun {ids b} hb => fst_arrivals ids is ▸ List.mem_map_of_mem hb
    cases hi : i.id with
    | some id =>
      -- whoever is new afterwards gets an identifier that no individual came with
      rw [arrivals_cons_of_some hi]
      refine List.pairwise_cons.mpr ⟨fun b hb id' => ?_, ih (hf.of_known hi)⟩
      have harrives := arrives ids is b hb
      cases hb' : b.1.id with
      | some id₂ => simp [hi, harrives.known id₂ hb']
      | none =>
        have hnew := harrives.new hb'
        rw [← newcomers_cons_of_some hi] at hnew
        have hne : id ≠ b.2.id := fun h => hf.unused _ hnew i List.mem_cons_self (h ▸ hi)
        simp only [reduceCtorEq, and_false, iff_false, not_and, Option.some.injEq]
        rintro rfl
        exact hne.symm
    | none =>
      -- the identifier given out here is not given out again, and nobody came with it
      obtain ⟨hnew, hunused, hrest⟩ := hf.of_new hi
      rw [arrivals_cons_of_none hi]
      refine List.pairwise_cons.mpr ⟨fun b hb id' => ?_, ih hrest⟩
      have harrives := arrives ids.draw.2 is b hb
      have hne : b.2.id ≠ ids.draw.1 := by
        intro heq
        cases hb' : b.1.id with
        | some id₂ => exact hunused b.1 (hmem hb) (hb'.trans (by rw [← heq, harrives.known _ hb']))
        | none => exact hnew (heq ▸ harrives.new hb')
      simp only [hi, reduceCtorEq, false_and, iff_false, not_and, Option.some.injEq]
      rintro rfl
      exact hne

/-! ### Taking in -/

/-- The entries under which the individuals come in, of those with the same identifier the first. -/
def taken (ids : IdSupply) (is : List Individual) : List Entry :=
  firsts (fun e => some e.id) [] ((arrivals ids is).map (·.2))

def dropped (ids : IdSupply) (is : List Individual) : List Uuid :=
  repeats (fun e => some e.id) [] ((arrivals ids is).map (·.2))

lemma repeated?_entry (before : List Entry) (e : Entry) :
    repeated? (fun e => some e.id) (before, e) =
      if e.id ∈ before.map (·.id) then some e.id else none := by
  by_cases h : e.id ∈ before.map (·.id)
  · obtain ⟨a, ha, hid⟩ := List.mem_map.mp h
    rw [if_pos h]
    exact repeated?_eq_some_iff.mpr ⟨rfl, a, ha, congrArg some hid⟩
  · rw [if_neg h, Option.eq_none_iff_forall_ne_some]
    intro id hid
    obtain ⟨hid, a, ha, hsame⟩ := repeated?_eq_some_iff.mp hid
    exact h (List.mem_map.mpr ⟨a, ha, Option.some.inj (hsame.trans hid.symm)⟩)

lemma firsts_entry_apart (before es : List Entry) :
    ((firsts (fun e => some e.id) before es).map (·.id)).Nodup ∧
      ∀ e ∈ firsts (fun e => some e.id) before es, e.id ∉ before.map (·.id) := by
  induction es generalizing before with
  | nil => simp [firsts, withEarlier]
  | cons e es ih =>
    obtain ⟨hnodup, hnew⟩ := ih (before ++ [e])
    have hnew' : ∀ f ∈ firsts (fun e => some e.id) (before ++ [e]) es,
        f.id ∉ before.map (·.id) ∧ f.id ≠ e.id := by
      intro f hf
      simpa [not_or] using hnew f hf
    rw [firsts_cons, repeated?_entry]
    by_cases h : e.id ∈ before.map (·.id)
    · simp only [h, if_true]
      exact ⟨hnodup, fun f hf => (hnew' f hf).1⟩
    · simp only [h, if_false]
      refine ⟨List.nodup_cons.mpr ⟨fun hmem => ?_, hnodup⟩, fun f hf => ?_⟩
      · obtain ⟨f, hf, hid⟩ := List.mem_map.mp hmem
        exact (hnew' f hf).2 hid
      · rcases List.mem_cons.mp hf with rfl | hf
        · exact h
        · exact (hnew' f hf).1

lemma takeIn_cons (s : Store) (ids : IdSupply) (i : Individual) (is : List Individual) :
    let id := (ids.complete i.id).1
    let rest := (ids.complete i.id).2
    takeIn s ids (i :: is) = if id ∈ s.ids
      then
        let (s, ids, kept, dropped) := takeIn s rest is
        (s, ids, kept, .duplicateIndividual id :: dropped)
      else
        let (s, ids, kept, dropped) :=
          takeIn { s with entries := s.entries ++ [⟨id, i.toPerson, ∅⟩] } rest is
        (s, ids, (id, i.attributes) :: kept, dropped) := by
  simp only [takeIn, Store.add_eq]
  by_cases h : (ids.complete i.id).1 ∈ s.ids <;> simp [h]

/-- Taking in, after the entries `before` have come. -/
lemma takeIn_after {s : Store} {before : List Entry}
    (h : ∀ id, id ∈ s.ids ↔ id ∈ before.map (·.id)) (ids : IdSupply) (is : List Individual) :
    let es := (arrivals ids is).map (·.2)
    let kept := firsts (fun e => some e.id) before es
    (takeIn s ids is).1.entries = s.entries ++ kept.map (fun e => { e with attributes := ∅ }) ∧
      (takeIn s ids is).2.2.1 = kept.map (fun e => (e.id, e.attributes)) ∧
      (takeIn s ids is).2.2.2 =
        (repeats (fun e => some e.id) before es).map .duplicateIndividual := by
  induction is generalizing s ids before with
  | nil => simp [takeIn, arrivals, firsts, repeats, withEarlier]
  | cons i is ih =>
    simp only [arrivals, List.map_cons, firsts_cons, repeats_cons, repeated?_entry, ← h,
      takeIn_cons]
    set e : Entry := ⟨(ids.complete i.id).1, i.toPerson, i.attributes⟩
    by_cases hin : (ids.complete i.id).1 ∈ s.ids
    · -- who is dropped counts as come, too, but under an identifier that was there
      have hsame : ∀ id, id ∈ s.ids ↔ id ∈ (before ++ [e]).map (·.id) := by
        intro id
        simp only [List.map_append, List.mem_append, ← h, List.map_cons, List.map_nil,
          List.mem_singleton, iff_self_or]
        rintro rfl
        exact hin
      obtain ⟨hentries, hkept, hdropped⟩ := ih hsame (ids.complete i.id).2
      simp [hin, hentries, hkept, hdropped]
    · have hmore : ∀ id, id ∈ ({ s with
          entries := s.entries ++ [{ e with attributes := ∅ }] } : Store).ids ↔
            id ∈ (before ++ [e]).map (·.id) := by
        intro id
        have hold : id ∈ s.entries.map (·.id) ↔ id ∈ before.map (·.id) := h id
        simp only [Store.ids, List.map_append, List.mem_append, hold, List.map_cons, List.map_nil]
      obtain ⟨hentries, hkept, hdropped⟩ := ih hmore (ids.complete i.id).2
      simp [hin, e, hentries, hkept, hdropped]

/-- **Who is taken in**: the first under every identifier, at first without attributes. -/
theorem takeIn_eq (registry : Registry) (ids : IdSupply) (is : List Individual) :
    (takeIn (.ofRegistry registry) ids is).1.entries =
        (taken ids is).map (fun e => { e with attributes := ∅ }) ∧
      (takeIn (.ofRegistry registry) ids is).2.2.1 =
        (taken ids is).map (fun e => (e.id, e.attributes)) ∧
      (takeIn (.ofRegistry registry) ids is).2.2.2 =
        (dropped ids is).map .duplicateIndividual :=
  takeIn_after (fun id => by simp [Store.ids, Store.ofRegistry]) ids is

lemma nodup_taken (ids : IdSupply) (is : List Individual) : ((taken ids is).map (·.id)).Nodup :=
  (firsts_entry_apart [] _).1

/-- **From a fresh supply** whoever has no identifier yet is taken in, and those who have one are
dropped if somebody before them has the same. -/
theorem taken_of_fresh (hf : Fresh ids is) :
    List.Forall₂ (Arrives (ids.upcoming (newcomers is))) (firsts (·.id) [] is) (taken ids is) ∧
      dropped ids is = repeats (·.id) [] is := by
  obtain ⟨hfirsts, hsame⟩ : firsts (fun p => some p.2.id) [] (arrivals ids is) =
      firsts (fun p => p.1.id) [] (arrivals ids is) ∧
        repeats (fun p => some p.2.id) [] (arrivals ids is) =
          repeats (fun p => p.1.id) [] (arrivals ids is) := occurrences_congr (arrivals_apart hf)
  have hleft : firsts (·.id) [] ((arrivals ids is).map (·.1)) =
      (firsts (fun p => p.1.id) [] (arrivals ids is)).map (·.1) := firsts_map _ [] _
  have hright : taken ids is =
      (firsts (fun p => some p.2.id) [] (arrivals ids is)).map (·.2) := firsts_map _ [] _
  have hdropped : dropped ids is =
      repeats (fun p => some p.2.id) [] (arrivals ids is) := repeats_map _ [] _
  have hrepeats : repeats (·.id) [] ((arrivals ids is).map (·.1)) =
      repeats (fun p => p.1.id) [] (arrivals ids is) := repeats_map _ [] _
  rw [fst_arrivals] at hleft hrepeats
  refine ⟨?_, ?_⟩
  · rw [hleft, hright, hfirsts, List.forall₂_map_left_iff, List.forall₂_map_right_iff]
    exact List.forall₂_same.mpr fun p hp => arrives ids is p ((firsts_sublist _ [] _).mem hp)
  · rw [hdropped, hrepeats, hsame]

/-! ### The archive -/

end Session

namespace Archive

/-- The error with which an archive fails before it has stored `m` more individuals, if it does. -/
def refusal? (a : Archive) (m : ℕ) : Option ArchiveError :=
  a.failure.bind fun f => if m ≤ f.after then none else some f.error

lemma persist_of_none (a : Archive) (ids : IdSupply) {i : Individual} (hi : i.id = none) :
    (∃ e, a.persist ids i = (.error e, ids) ∧ ∀ m, a.refusal? (m + 1) = some e) ∨
      ∃ a', a.persist ids i = (.ok (a', { i with id := some ids.draw.1 }), ids.draw.2) ∧
        ∀ m, a'.refusal? m = a.refusal? (m + 1) := by
  obtain ⟨people, failure⟩ := a
  cases failure with
  | none => exact .inr ⟨_, by simp only [persist, hi, IdSupply.complete]; rfl, fun m => rfl⟩
  | some f =>
    obtain ⟨n, e⟩ := f
    cases n with
    | zero => exact .inl ⟨e, rfl, fun m => by simp [refusal?]⟩
    | succ n =>
      refine .inr ⟨_, by simp only [persist, hi, IdSupply.complete]; rfl, fun m => ?_⟩
      simp [refusal?]

end Archive

namespace Session

variable {is : List Individual}

lemma arrivals_individual (ids : IdSupply) (es : List Entry) :
    (arrivals ids (es.map (·.individual))).map (·.2) = es := by
  induction es with
  | nil => rfl
  | cons e es ih =>
    rw [List.map_cons, arrivals_cons_of_some rfl, List.map_cons, ih]
    rfl

/-- The entry as which an individual is taken in that comes with an identifier. -/
def arrival? (i : Individual) : Option Entry := i.id.map fun id => ⟨id, i.toPerson, i.attributes⟩

lemma arrivals_of_known (hknown : ∀ i ∈ is, i.id.isSome = true) (ids : IdSupply) :
    (arrivals ids is).map (·.2) = is.filterMap arrival? := by
  have his : (is.filterMap arrival?).map (·.individual) = is := by
    have hback : ∀ i ∈ is, (arrival? i).map (·.individual) = some i := by
      intro i hi
      obtain ⟨id, hid⟩ := Option.isSome_iff_exists.mp (hknown i hi)
      rw [arrival?, hid, Option.map_some, Option.map_some, Entry.individual, ← hid]
    rw [List.map_filterMap, List.filterMap_congr hback, List.filterMap_some]
  generalize is.filterMap arrival? = es at his
  rw [← his, arrivals_individual]

lemma nodup_of_known (hknown : ∀ i ∈ is, i.id.isSome = true) (hapart : (is.map (·.id)).Nodup) :
    ((is.filterMap arrival?).map fun e => some e.id).Nodup := by
  have hids : (is.filterMap arrival?).map (fun e => some e.id) = is.map (·.id) := by
    have hback : ∀ i ∈ is, (arrival? i).map (fun e => some e.id) = some i.id := by
      intro i hi
      obtain ⟨id, hid⟩ := Option.isSome_iff_exists.mp (hknown i hi)
      rw [arrival?, hid, Option.map_some, Option.map_some]
    rw [List.map_filterMap, List.filterMap_congr hback, ← List.filterMap_eq_map]
    rfl
  rwa [hids]

/-- **Where everybody comes with an identifier of their own**, everybody is taken in under it. -/
theorem taken_of_known (hknown : ∀ i ∈ is, i.id.isSome = true) (hapart : (is.map (·.id)).Nodup)
    (ids : IdSupply) : taken ids is = is.filterMap arrival? := by
  rw [taken, arrivals_of_known hknown]
  exact firsts_of_nodup (nodup_of_known hknown hapart)

lemma dropped_of_known (hknown : ∀ i ∈ is, i.id.isSome = true) (hapart : (is.map (·.id)).Nodup)
    (ids : IdSupply) : dropped ids is = [] := by
  rw [dropped, arrivals_of_known hknown]
  exact repeats_of_nodup (nodup_of_known hknown hapart)

/-- **What an archive makes of the individuals**: it puts the identifiers in under which they would
have come anyway, if it can store all newcomers. -/
theorem persistNew_eq (a : Archive) (ids : IdSupply) (is : List Individual) :
    (persistNew a ids is).1 = match a.refusal? (newcomers is) with
      | none => .ok ((arrivals ids is).map (·.2.individual))
      | some e => .error e := by
  induction is generalizing a ids with
  | nil =>
    have hnone : a.refusal? (newcomers []) = none := by
      simp [Archive.refusal?, newcomers]
    rw [hnone]
    rfl
  | cons i is ih =>
    cases hi : i.id with
    | some id =>
      have hsame : Entry.individual ⟨id, i.toPerson, i.attributes⟩ = i := by
        rw [Entry.individual, ← hi]
      simp only [persistNew, hi, newcomers_cons_of_some hi, arrivals_cons_of_some hi, ih,
        List.map_cons, hsame]
      split <;> rfl
    | none =>
      rw [newcomers_cons_of_none hi, arrivals_cons_of_none hi]
      rcases a.persist_of_none ids hi with ⟨e, he, hm⟩ | ⟨a', ha, hm⟩
      · simp only [persistNew, hi, he, hm]
      · simp only [persistNew, hi, ha, ih, hm]
        split <;> rfl

end Session

end Dossier
