import Mathlib
import Dossier.Proofs.Archive
import Dossier.Proofs.History
import Dossier.Proofs.Table

/-!
An archive by the versions that were stored in it. It shows of every identifier the latest version,
in the order in which the identifiers came in first, to whoever asks with a filter that this
version passes. Storing one version leaves the others alone, and storing again what is there
already changes nothing.
-/

namespace Dossier

/-- **Whom a filter wants**: those who attend the event asked for, and whose email is the one asked
for up to the case of ASCII letters. -/
structure Filter.Wants (f : Filter) (p : Person) : Prop where
  event : ∀ event, f.event = some event → p.event = some event
  email : ∀ email, f.email = some email → ∃ e, p.email = some e ∧ Text.lower e = Text.lower email

lemma Filter.matchesPerson_iff {f : Filter} {p : Person} :
    f.matchesPerson p = true ↔ f.Wants p := by
  have hwants : f.Wants p ↔ p.attends f.event = true ∧ ∀ wanted, f.email = some wanted →
      ∃ e, p.email = some e ∧ Text.lower e = Text.lower wanted := by
    rw [Person.attends_iff]
    exact ⟨fun h => ⟨h.event, h.email⟩, fun h => ⟨h.1, h.2⟩⟩
  rw [hwants, matchesPerson, Bool.and_eq_true]
  refine and_congr_right' ?_
  cases f.email <;> cases p.email <;> simp [Text.equalFold]

instance (f : Filter) (p : Person) : Decidable (f.Wants p) :=
  decidable_of_iff _ Filter.matchesPerson_iff

namespace Archive

variable {people : List (Uuid × Individual)} {id : Uuid} {i j : Individual} {a a' : Archive}
  {ids : IdSupply} {f : Filter}

/-! ### One version among others -/

lemma filter_keep (people : List (Uuid × Individual)) (id : Uuid) (i : Individual) :
    (keep people id i).filter (·.1 != id) = people.filter (·.1 != id) := by
  unfold keep
  split
  · have hsame : ∀ p ∈ people.filter (·.1 != id),
        (if p.1 == id then (id, i) else p) = p := by
      intro p hp
      have hne : p.1 ≠ id := by simpa using (List.mem_filter.mp hp).2
      simp [hne]
    have hpass : (fun p : Uuid × Individual => p.1 != id) ∘
        (fun p => if p.1 == id then (id, i) else p) = fun p => p.1 != id := by
      funext p
      by_cases hp : p.1 = id <;> simp [hp]
    rw [List.filter_map, hpass, List.map_congr_left hsame, List.map_id']
  · simp

lemma mem_keep_self (people : List (Uuid × Individual)) (id : Uuid) (i : Individual) :
    (id, i) ∈ keep people id i := by
  unfold keep
  split
  · next hany =>
    obtain ⟨p, hp, hid⟩ := List.any_eq_true.mp hany
    exact List.mem_map.mpr ⟨p, hp, by simp [hid]⟩
  · simp

lemma keep_of_mem (hapart : (people.map (·.1)).Nodup) (h : (id, i) ∈ people) :
    keep people id i = people := by
  have hany : (people.any fun p => p.1 == id) = true := List.any_eq_true.mpr ⟨_, h, by simp⟩
  have hsame : ∀ p ∈ people, (if p.1 == id then (id, i) else p) = p := by
    intro p hp
    by_cases hid : p.1 = id
    · have heq : p = (id, i) := List.inj_on_of_nodup_map hapart hp h hid
      simp [heq]
    · simp [hid]
  rw [keep, if_pos hany, List.map_congr_left hsame, List.map_id']

/-! ### Loading -/

lemma load_eq (a : Archive) (f : Filter) :
    a.load f = (a.people.map (·.2)).filter fun i => decide (f.Wants i.toPerson) := by
  refine List.filter_congr fun i _ => ?_
  rw [Bool.eq_iff_iff, Filter.matchesPerson_iff, decide_eq_true_iff]

lemma Sound.mem_of_load (h : a.Sound) (hj : j ∈ a.load f) :
    ∃ id, j.id = some id ∧ (id, j) ∈ a.people := by
  obtain ⟨⟨id, j⟩, hp, rfl⟩ := List.mem_map.mp (List.mem_filter.mp hj).1
  exact ⟨id, h.own _ hp, hp⟩

lemma Sound.load_others (h : a.Sound) (f : Filter) (id : Uuid) :
    (a.load f).filter (·.id != some id) =
      ((a.people.filter (·.1 != id)).map (·.2)).filter fun i =>
        decide (f.Wants i.toPerson) := by
  have hown : ∀ p ∈ a.people, (p.2.id != some id) = (p.1 != id) := by
    intro p hp
    rw [h.own p hp, Bool.eq_iff_iff]
    simp
  rw [load_eq, List.filter_comm, List.filter_map, ← List.filter_congr hown]
  rfl

/-! ### Calls and their answers -/

/-- Storing an individual; whoever has no identifier gets the next one of the supply. The answer is
the individual as it is stored. -/
def persistStep (s : Archive × IdSupply) (i : Individual) :
    (Archive × IdSupply) × Except ArchiveError Individual :=
  match s.1.persist s.2 i with
  | (.error e, ids) => ((s.1, ids), .error e)
  | (.ok (a, j), ids) => ((a, ids), .ok j)

/-- The versions that were stored, each with its identifier. -/
def versions (log : List (Individual × Except ArchiveError Individual)) :
    List (Uuid × Individual) :=
  (accepted log).filterMap fun e => e.2.id.map fun id => (id, e.2)

def latest? (vs : List (Uuid × Individual)) (id : Uuid) : Option Individual := vs.reverse.lookup id

/-- The identifiers, each where it occurs first. -/
def order (vs : List (Uuid × Individual)) : List Uuid := (vs.map (·.1)).eraseDups

lemma persistStep_of_lasting {s : Archive × IdSupply} (h : s.1.failure = none) (i : Individual) :
    let id := (s.2.complete i.id).1
    let j : Individual := { i with id := some id }
    persistStep s i = ((⟨keep s.1.people id j, none⟩, (s.2.complete i.id).2), .ok j) := by
  simp [persistStep, persist_of_lasting h]

variable {vs : List (Uuid × Individual)}

lemma latest?_concat (vs : List (Uuid × Individual)) (v : Uuid × Individual) (id : Uuid) :
    latest? (vs ++ [v]) id = if id = v.1 then some v.2 else latest? vs id := by
  obtain ⟨id', i⟩ := v
  simp only [latest?, List.reverse_append, List.reverse_singleton, List.singleton_append,
    List.lookup_cons]
  by_cases h : id = id'
  · simp [h]
  · have hne : (id == id') = false := beq_false_of_ne h
    rw [hne, if_neg h]

lemma order_concat (vs : List (Uuid × Individual)) (v : Uuid × Individual) :
    order (vs ++ [v]) = if v.1 ∈ order vs then order vs else order vs ++ [v.1] := by
  have hsingle : [v.1].eraseDups = [v.1] := by simp [List.eraseDups_cons]
  rw [order, List.map_append, List.map_singleton, List.eraseDups_append]
  simp only [order, List.mem_eraseDups]
  by_cases h : v.1 ∈ vs.map (·.1)
  · simp [List.removeAll, h]
  · simp [List.removeAll, h, hsingle]

/-! ### The invariant -/

/-- The archive holds of these versions the latest ones, in the order of their identifiers. -/
structure Tracks (vs : List (Uuid × Individual)) (a : Archive) : Prop where
  sound : a.Sound
  ids : a.people.map (·.1) = order vs
  latest : ∀ p ∈ a.people, latest? vs p.1 = some p.2

lemma tracks_empty : Tracks [] .empty :=
  ⟨Kept.empty.sound, rfl, fun _ hp => absurd hp List.not_mem_nil⟩

lemma Tracks.keep (h : Tracks vs a) (hid : j.id = some id) :
    Tracks (vs ++ [(id, j)]) ⟨Archive.keep a.people id j, none⟩ := by
  refine ⟨h.sound.keep hid, ?_, fun p hp => ?_⟩
  · rw [map_fst_keep, order_concat, h.ids]
  · rw [latest?_concat]
    rcases mem_keep hp with rfl | ⟨hp, hne⟩
    · exact if_pos rfl
    · rw [if_neg hne]
      exact h.latest p hp

/-- An individual is stored as this version: with all fields, under the identifier that they have
or under a new one. -/
structure StoredAs (i : Individual) (v : Uuid × Individual) : Prop where
  own : v.2.id = some v.1
  same : { v.2 with id := i.id } = i
  known : ∀ id, i.id = some id → v.1 = id

lemma storedAs_complete (ids : IdSupply) (i : Individual) :
    StoredAs i ((ids.complete i.id).1, { i with id := some (ids.complete i.id).1 }) :=
  ⟨rfl, rfl, fun id hi => by rw [hi, IdSupply.complete]⟩

structure Records (log : List (Individual × Except ArchiveError Individual)) (a : Archive) :
    Prop where
  tracks : Tracks (versions log) a
  stored : List.Forall₂ StoredAs (log.map (·.1)) (versions log)

lemma Records.step {log : List (Individual × Except ArchiveError Individual)}
    {s : Archive × IdSupply} (h : Records log s.1) (i : Individual) :
    Records (log ++ [(i, (persistStep s i).2)]) (persistStep s i).1.1 := by
  have hversions : ∀ (j : Individual) id, j.id = some id →
      versions (log ++ [(i, .ok j)]) = versions log ++ [(id, j)] := by
    intro j id hid
    simp [versions, accepted_append, hid]
  rw [persistStep_of_lasting h.tracks.sound.lasting]
  refine ⟨?_, ?_⟩
  · rw [hversions _ _ rfl]
    exact h.tracks.keep rfl
  · rw [hversions _ _ rfl, List.map_append]
    exact List.rel_append h.stored (.cons (storedAs_complete s.2 i) .nil)

lemma with_id (h : j.id = some id) : { j with id := some id } = j := by
  cases j
  simp_all

lemma Sound.persistStep_of_mem {s : Archive × IdSupply} (h : s.1.Sound)
    (hj : (id, j) ∈ s.1.people) : persistStep s j = (s, .ok j) := by
  have hid : j.id = some id := h.own _ hj
  have hcomplete : s.2.complete j.id = (id, s.2) := by
    rw [hid]
    rfl
  have harchive : (⟨s.1.people, none⟩ : Archive) = s.1 := by rw [← h.lasting]
  rw [persistStep_of_lasting h.lasting]
  simp only [hcomplete, with_id hid, keep_of_mem h.apart hj, harchive]

/-! ### What is loaded -/

/-- What can be loaded from an archive in which these versions were stored: the latest version of
every identifier, if the filter wants it, in the order in which the identifiers came in first.
Storing what was loaded, as it is, changes nothing. -/
structure Lists (vs : List (Uuid × Individual)) (s : Archive × IdSupply) : Prop where
  load : ∀ f, s.1.load f =
    ((order vs).filterMap (latest? vs)).filter fun i => decide (Filter.Wants f i.toPerson)
  once : ∀ f, ((s.1.load f).map (·.id)).Nodup
  size : s.1.size = (vs.map (·.1)).toFinset.card
  unchanged : ∀ f, ∀ j ∈ s.1.load f, persistStep s j = (s, .ok j)

lemma Tracks.lists {s : Archive × IdSupply} (h : Tracks vs s.1) : Lists vs s where
  load f := by
    have hlatest : s.1.people.map (·.2) = (order vs).filterMap (latest? vs) := by
      rw [← h.ids, List.filterMap_map, ← List.filterMap_eq_map]
      exact List.filterMap_congr fun p hp => (h.latest p hp).symm
    rw [load_eq, hlatest]
  once := h.sound.nodup_load
  size := by
    have hsame : (s.1.people.map (·.1)).toFinset = (vs.map (·.1)).toFinset := by
      ext id
      rw [List.mem_toFinset, List.mem_toFinset, h.ids, order, List.mem_eraseDups]
    rw [← hsame, List.toFinset_card_of_nodup h.sound.apart, List.length_map, Archive.size]
  unchanged f j hj := by
    obtain ⟨id, -, hmem⟩ := h.sound.mem_of_load hj
    exact h.sound.persistStep_of_mem hmem

/-! ### One call -/

/-- **What storing does.** Who has an identifier is stored as they are, and who has none under the
next one of the supply; then they come in at the end, so long as nobody has it. All others are
loaded as before, in the same order. Storing the individual again, as it is now, changes nothing. -/
structure Stores (s : Archive × IdSupply) (i : Individual) (s' : Archive × IdSupply)
    (answer : Except ArchiveError Individual) : Prop where
  known : ∀ id, i.id = some id → answer = .ok i ∧ s'.2 = s.2
  new : i.id = none → answer = .ok { i with id := some s.2.draw.1 } ∧ s'.2 = s.2.draw.2
  last : ∀ j, answer = .ok j → (∀ k ∈ s.1.load ⟨none, none⟩, k.id ≠ j.id) →
    ∀ f, s'.1.load f = s.1.load f ++ [j].filter fun i => decide (Filter.Wants f i.toPerson)
  others : ∀ j, answer = .ok j →
    ∀ f, (s'.1.load f).filter (·.id != j.id) = (s.1.load f).filter (·.id != j.id)
  again : ∀ j, answer = .ok j → persistStep s' j = (s', .ok j)

lemma mem_load_all (h : (id, j) ∈ a.people) : j ∈ a.load ⟨none, none⟩ :=
  List.mem_filter.mpr ⟨List.mem_map_of_mem (f := (·.2)) h, rfl⟩

lemma Tracks.stores {s : Archive × IdSupply} (h : Tracks vs s.1) (i : Individual) :
    Stores s i (persistStep s i).1 (persistStep s i).2 := by
  set id := (s.2.complete i.id).1
  set j : Individual := { i with id := some id }
  have hstep : persistStep s i = ((⟨Archive.keep s.1.people id j, none⟩, (s.2.complete i.id).2),
      .ok j) := persistStep_of_lasting h.sound.lasting i
  have hafter := (h.keep (j := j) rfl).sound
  rw [hstep]
  refine ⟨fun known hi => ?_, fun hi => ?_, ?_, ?_, ?_⟩
  · have hknown : id = known ∧ (s.2.complete i.id).2 = s.2 := by simp [id, hi, IdSupply.complete]
    have hsame : j = i := by rw [← with_id hi, ← hknown.1]
    exact ⟨congrArg Except.ok hsame, hknown.2⟩
  · have hdraw : id = s.2.draw.1 ∧ (s.2.complete i.id).2 = s.2.draw.2 := by
      simp [id, hi, IdSupply.complete]
    have hnew : j = { i with id := some s.2.draw.1 } := by rw [← hdraw.1]
    exact ⟨congrArg Except.ok hnew, hdraw.2⟩
  · rintro _ ⟨⟩ hnew f
    have hout : id ∉ s.1.people.map (·.1) := by
      intro hin
      obtain ⟨p, hp, hpid⟩ := List.mem_map.mp hin
      exact hnew p.2 (mem_load_all hp) ((h.sound.own p hp).trans (congrArg some hpid))
    rw [load_eq, load_eq, keep_of_new hout, List.map_append, List.filter_append]
    rfl
  · rintro _ ⟨⟩ f
    rw [hafter.load_others, h.sound.load_others, filter_keep]
  · rintro _ ⟨⟩
    exact Sound.persistStep_of_mem (s := (⟨_, none⟩, _)) hafter (mem_keep_self _ _ _)

/-! ### The same in two structures -/

/-- Storing an individual where the order of the identifiers is kept apart from the versions. -/
def persistApart (s : Table Individual × IdSupply) (i : Individual) :
    (Table Individual × IdSupply) × Except ArchiveError Individual :=
  let (id, ids) := s.2.complete i.id
  let i := { i with id := some id }
  ((s.1.put id i, ids), .ok i)

def loadApart (t : Table Individual) (f : Filter) : List Individual :=
  (t.order.filterMap (t.content[·]?)).filter fun i => f.matchesPerson i.toPerson

/-- An archive that never fails lists what the table does. -/
structure Keeps (t : Table Individual) (a : Archive) : Prop where
  inStep : t.InStep
  lasting : a.failure = none
  people : a.people = t.list

lemma Keeps.persist {t : Table Individual × IdSupply} {s : Archive × IdSupply}
    (h : Keeps t.1 s.1 ∧ t.2 = s.2) (i : Individual) :
    (persistApart t i).2 = (persistStep s i).2 ∧
      Keeps (persistApart t i).1.1 (persistStep s i).1.1 ∧
        (persistApart t i).1.2 = (persistStep s i).1.2 := by
  obtain ⟨hkeeps, hids⟩ := h
  rw [persistStep_of_lasting hkeeps.lasting, persistApart, hids]
  refine ⟨rfl, ⟨hkeeps.inStep.put _ _, rfl, ?_⟩, rfl⟩
  rw [hkeeps.inStep.list_put, ← hkeeps.people]
  rfl

lemma Keeps.loadApart_eq {t : Table Individual} (h : Keeps t a) (f : Filter) :
    loadApart t f = a.load f := by
  rw [loadApart, load, h.people, Table.list, List.map_filterMap]
  refine congrArg (List.filter _) (List.filterMap_congr fun id _ => ?_)
  rw [Option.map_map]
  exact Option.map_id'.symm

lemma Keeps.size_eq {t : Table Individual} (h : Keeps t a) : t.order.length = a.size := by
  rw [size, h.people, ← h.inStep.map_fst_list, List.length_map]

/-- **An archive is a map in the order of insertion.** Whatever individuals are stored, with
identifiers or without, each comes in as a version, and afterwards the archive lists the latest
versions; and whatever is stored next leaves the others as they are. If order and versions are kept
apart, they stay in step, with the same answers and the same to load. -/
theorem lists_latest (ids : IdSupply) (is : List Individual) :
    let run := history persistStep (.empty, ids) is
    List.Forall₂ StoredAs is (versions run.2) ∧ Lists (versions run.2) run.1 ∧
      (∀ i, Stores run.1 i (persistStep run.1 i).1 (persistStep run.1 i).2) ∧
      let apart := history persistApart (.empty, ids) is
      apart.2 = run.2 ∧ apart.1.1.InStep ∧ (∀ f, loadApart apart.1.1 f = run.1.1.load f) ∧
        apart.1.1.order.length = run.1.1.size := by
  intro run
  have hstart : Records [] (Archive.empty, ids).1 := ⟨tracks_empty, .nil⟩
  have hrecords : Records run.2 run.1.1 :=
    history_inv (fun (s : Archive × IdSupply) log => Records log s.1) hstart
      (fun _ _ i h => h.step i) is
  have hstored := hrecords.stored
  rw [map_fst_history] at hstored
  obtain ⟨hanswers, hkeeps, -⟩ := history_same
    (R := fun (t : Table Individual × IdSupply) (s : Archive × IdSupply) =>
      Keeps t.1 s.1 ∧ t.2 = s.2)
    (s := (.empty, ids)) (t := (.empty, ids)) (fun _ _ i h => Keeps.persist h i)
    ⟨⟨Table.inStep_empty, rfl, rfl⟩, rfl⟩ is
  exact ⟨hstored, hrecords.tracks.lists, hrecords.tracks.stores, hanswers, hkeeps.inStep,
    hkeeps.loadApart_eq, hkeeps.size_eq⟩

end Archive

end Dossier
