import Dossier.Session
import Dossier.Proofs.Store.LastWrite
import Dossier.Proofs.Writer.Request

/-!
The primary collector's part of a session, in two steps. What is gathered depends on the collector,
the archive and the supply of identifiers, not on the registry; only what the individuals bring
along is checked against it. So sessions that differ in their secondary collectors open alike.
-/

namespace Dossier.Session

/-! ### Gathering first -/

/-- What the primary collector came back with, after the archive has seen the newcomers. -/
structure Gathered where
  result : Except CollectorFailure (List Individual)
  elapsed : ℕ
  archive : Option Archive
  ids : IdSupply

def gather (archive : Option Archive) (budget : Span) (p : Primary) (ids : IdSupply) : Gathered :=
  match p.collect.settle budget 0, archive with
  | (.error failure, elapsed), archive => ⟨.error failure, elapsed, archive, ids⟩
  | (.ok is, elapsed), none => ⟨.ok is, elapsed, none, ids⟩
  | (.ok is, elapsed), some a =>
    match persistNew a ids is with
    | (.error e, a, ids) => ⟨.error (.persistence e.message), elapsed, some a, ids⟩
    | (.ok is, a, ids) => ⟨.ok is, elapsed, some a, ids⟩

/-- What becomes of it in a store. After a failure there are no individuals. -/
def Gathered.store (g : Gathered) (registry : Registry) (space : String) (today : CivilDate) :
    PrimaryRun :=
  match g.result with
  | .error failure =>
    ⟨⟨space, .failed failure, 0, [], g.elapsed⟩, .ofRegistry registry, g.archive, g.ids⟩
  | .ok is => materialise registry space today g.elapsed g.archive g.ids is

theorem runPrimary_eq (s : Session) (p : Primary) (today : CivilDate) (ids : IdSupply) :
    s.runPrimary p today ids =
      (gather s.archive (p.timeout.getD s.settings.collectorTimeout) p ids).store s.registry
        (runningNamespace p.space) today := by
  simp only [runPrimary, gather]
  generalize p.collect.settle (p.timeout.getD s.settings.collectorTimeout) 0 = collected
  obtain ⟨failure | is, elapsed⟩ := collected
  · rfl
  · rcases s.archive with _ | a
    · rfl
    · simp only
      rcases persistNew a ids is with ⟨e | is, a, ids⟩ <;> rfl

/-! ### Calls all the way

The store of an opening is reached by calls that take individuals in, and then by calls on the
writer of the primary collector. -/

section Calls

variable {P : Store → Prop} {st : Store}

lemma holds_takeIn (hadd : ∀ st ids i, P st → P (Store.addStep (st, ids) i).1.1) (h : P st)
    (ids : IdSupply) (is : List Individual) : P (takeIn st ids is).1 := by
  induction is generalizing st ids with
  | nil => exact h
  | cons i is ih =>
    have hafter := hadd st ids i h
    unfold Store.addStep at hafter
    unfold takeIn
    split at hafter
    · next e ids' he =>
      rw [he]
      exact ih hafter ids'
    · next id st' ids' he =>
      rw [he]
      exact ih hafter ids'

variable {today : CivilDate}
  (hcall : ∀ w st call, P st → P (Writer.perform w st today call).store)
include hcall

lemma holds_performAll (h : P st) (w : Writer) (calls : List WriterCall) :
    P (performAll today w st calls).2 := by
  induction calls generalizing st w with
  | nil => exact h
  | cons call calls ih => exact ih (hcall w st call h) _

/-- What every call keeps holds when the primary collector is through. -/
theorem holds_opening (hadd : ∀ st ids i, P st → P (Store.addStep (st, ids) i).1.1) (s : Session)
    (h : P (.ofRegistry s.registry)) (ids : IdSupply) : P (s.opening today ids).store := by
  unfold opening
  cases s.primary with
  | none => exact h
  | some p =>
    simp only [runPrimary_eq, Gathered.store]
    split
    · exact h
    · exact holds_performAll hcall (holds_takeIn hadd h _ _) _ _

end Calls

lemma registry_addStep (s : Store × IdSupply) (i : Individual) :
    (Store.addStep s i).1.1.registry = s.1.registry := by
  rw [Store.addStep_eq]
  split <;> rfl

lemma registry_opening (s : Session) (today : CivilDate) (ids : IdSupply) :
    (s.opening today ids).store.registry = s.registry :=
  holds_opening (P := fun st => st.registry = s.registry)
    (fun w st call h => (w.registry_perform st today call).trans h)
    (fun _ _ i h => (registry_addStep _ i).trans h) s rfl ids

/-! ### Individuals are taken in alike -/

variable {a b : Store}

lemma registry_takeIn (a : Store) (ids : IdSupply) (is : List Individual) :
    (takeIn a ids is).1.registry = a.registry :=
  holds_takeIn (P := fun st => st.registry = a.registry)
    (fun _ _ i h => (registry_addStep _ i).trans h) rfl ids is

lemma takeIn_same (h : a.entries = b.entries) (ids : IdSupply) (is : List Individual) :
    (takeIn a ids is).1.entries = (takeIn b ids is).1.entries ∧
      (takeIn a ids is).2 = (takeIn b ids is).2 := by
  induction is generalizing a b ids with
  | nil => exact ⟨h, rfl⟩
  | cons i is ih =>
    have hcontains : a.contains (ids.complete i.id).1 = b.contains (ids.complete i.id).1 := by
      simp only [Store.contains, Store.find?, h]
    simp only [takeIn, Store.add, Store.insert, hcontains]
    by_cases hc : b.contains (ids.complete i.id).1 = true
    · obtain ⟨hentries, hrest⟩ := ih h (ids.complete i.id).2
      simp [hc, hentries, hrest]
    · have hnew : a.entries ++ [⟨(ids.complete i.id).1, i.toPerson, ∅⟩] =
          b.entries ++ [⟨(ids.complete i.id).1, i.toPerson, ∅⟩] := by rw [h]
      obtain ⟨hentries, hrest⟩ := ih (a := ⟨a.registry, _⟩) (b := ⟨b.registry, _⟩) hnew
        (ids.complete i.id).2
      simp [hc, hentries, hrest]

/-! ### Attributes are checked alike -/

variable {w : Writer}

lemma performAll_frame (hn : IsNormal w.space) (today : CivilDate) (a : Store)
    (calls : List WriterCall) :
    Store.Agree (Beyond w.space) a (performAll today w a calls).2 := by
  induction calls generalizing w a with
  | nil => exact .refl _ a
  | cons call calls ih =>
    have hspace := w.space_perform a today call
    have hrest := ih (w := (w.perform a today call).writer) (hspace ▸ hn)
      (w.perform a today call).store
    rw [hspace] at hrest
    exact (Writer.perform_frame hn a today call).trans hrest

lemma performAll_same (hn : IsNormal w.space) (h : Store.Agree (Within w.space) a b)
    (today : CivilDate) (calls : List WriterCall) :
    (performAll today w a calls).1 = (performAll today w b calls).1 ∧
      Store.Agree (Within w.space) (performAll today w a calls).2
        (performAll today w b calls).2 := by
  induction calls generalizing w a b with
  | nil => exact ⟨rfl, h⟩
  | cons call calls ih =>
    obtain ⟨-, hw, hab⟩ := Writer.perform_same hn h today call
    have hspace := w.space_perform a today call
    rw [← hspace] at hab hn
    obtain ⟨hwriter, hstore⟩ := ih hn hab
    rw [hspace] at hstore
    simp only [performAll, ← hw]
    exact ⟨hwriter, hstore⟩

lemma performAll_entries (hn : IsNormal w.space) (h : a.entries = b.entries)
    (hr : ∀ k, Within w.space k → a.registry.resolve k = b.registry.resolve k)
    (today : CivilDate) (calls : List WriterCall) :
    (performAll today w a calls).1 = (performAll today w b calls).1 ∧
      (performAll today w a calls).2.entries = (performAll today w b calls).2.entries := by
  have hstart : Store.Agree (Within w.space) a b := ⟨hr, h ▸ .refl _ _⟩
  obtain ⟨hwriter, hwithin⟩ := performAll_same hn hstart today calls
  have hbeyond := (performAll_frame hn today a calls).entries.symm
  have hbeyond' := (performAll_frame hn today b calls).entries
  rw [← h] at hbeyond'
  refine ⟨hwriter, EntriesAgree.eq_of_cover fun k => ?_⟩
  by_cases hk : Within w.space k
  · exact ⟨_, hk, hwithin.entries⟩
  · exact ⟨_, hk, hbeyond.trans hbeyond'⟩

/-! ### Sessions open alike -/

variable {registry registry' : Registry} {n : String}

/-- The registry counts in the namespace of the primary collector only. -/
lemma materialise_same (hn : IsNormal n)
    (h : ∀ k, Within n k → registry.resolve k = registry'.resolve k) (today : CivilDate)
    (elapsed : ℕ) (archive : Option Archive) (ids : IdSupply) (is : List Individual) :
    let a := materialise registry n today elapsed archive ids is
    let b := materialise registry' n today elapsed archive ids is
    a.outcome = b.outcome ∧ a.store.entries = b.store.entries := by
  obtain ⟨hentries, hrest⟩ := takeIn_same (a := .ofRegistry registry)
    (b := .ofRegistry registry') rfl ids is
  have hreg := registry_takeIn (.ofRegistry registry) ids is
  have hreg' := registry_takeIn (.ofRegistry registry') ids is
  simp only [materialise]
  generalize takeIn (.ofRegistry registry) ids is = taken at *
  generalize takeIn (.ofRegistry registry') ids is = taken' at *
  obtain ⟨a, rest⟩ := taken
  obtain ⟨b, rest'⟩ := taken'
  obtain rfl : rest = rest' := hrest
  have hspace : (Writer.ofNamespace n).space = n := hn.lower_eq
  have hresolve : ∀ k, Within (Writer.ofNamespace n).space k →
      a.registry.resolve k = b.registry.resolve k := by
    intro k hk
    rw [hreg, hreg']
    rw [hspace] at hk
    exact h k hk
  obtain ⟨hwriter, hstore⟩ := performAll_entries (hspace.symm ▸ hn) hentries hresolve today
    (attributeCalls rest.2.1)
  exact ⟨by rw [hwriter], hstore⟩

/-- **Sessions open alike** if they have the same primary collector, of which their registries
know the same. -/
theorem opening_same {s s' : Session} {p : Primary} (hp : s.primary = some p)
    (hp' : s'.primary = some p) (ha : s.archive = s'.archive)
    (ht : s.settings.collectorTimeout = s'.settings.collectorTimeout)
    (hn : IsNormal (runningNamespace p.space))
    (h : ∀ k, Within (runningNamespace p.space) k → s.registry.resolve k = s'.registry.resolve k)
    (today : CivilDate) (ids : IdSupply) :
    (s.opening today ids).outcome = (s'.opening today ids).outcome ∧
      (s.opening today ids).store.entries = (s'.opening today ids).store.entries := by
  simp only [opening, hp, hp', runPrimary_eq, ha, ht]
  generalize gather s'.archive (p.timeout.getD s'.settings.collectorTimeout) p ids = g
  unfold Gathered.store
  split
  · exact ⟨rfl, rfl⟩
  · next is hg =>
    obtain ⟨ho, he⟩ := materialise_same hn h today g.elapsed g.archive g.ids is
    exact ⟨congrArg some ho, he⟩

end Dossier.Session
