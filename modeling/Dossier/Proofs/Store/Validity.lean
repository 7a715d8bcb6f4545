import Dossier.Proofs.Category
import Dossier.Proofs.Store.LastWrite
import Dossier.Proofs.Writer.Request

/-!
Stores hold nothing invalid. Whatever is called on a store, by whomever and in whatever order, each
observation in it is one that was accepted on some day; it fits the category that its key is
declared under, and does so from that day on.
-/

namespace Dossier

/-- An observation that fits a category on a day and on all later days. -/
structure Observation.Fits (o : Observation) (c : Category) (day : CivilDate) : Prop where
  accepted : ∀ later, day.notAfter later = true → c.accepts later o.value = true
  least : 0.0 ≤ o.reliability.value
  most : o.reliability.value ≤ 1.0

/-- A key that is declared under a category which the observation fits. -/
def Registry.Allows (r : Registry) (day : CivilDate) (k : Key) (o : Observation) : Prop :=
  ∃ c, r.resolve k = some c ∧ o.Fits c day

lemma Observation.fits_of_accepts {o : Observation} {c : Category} {day : CivilDate}
    (h : c.accepts day o.value = true) : o.Fits c day := by
  have hr := o.reliability.inRange
  simp only [isReliability, Bool.and_eq_true, decide_eq_true_eq] at hr
  exact ⟨fun later hd => Category.accepts_later h hd, hr.1, hr.2⟩

lemma Observation.Fits.mono {o : Observation} {c : Category} {day today : CivilDate}
    (h : o.Fits c day) (hd : day.notAfter today = true) : o.Fits c today :=
  ⟨fun later hl => h.accepted later (CivilDate.notAfter_trans hd hl), h.least, h.most⟩

namespace Store

/-- The stores that calls lead to while the days go by, and the writes that were accepted on the
way, each with its day. Any supply of identifiers and any writer may come with a call, in whatever
state; what is refused counts as a call too. -/
inductive Reached (registry : Registry) :
    CivilDate → List (CivilDate × Write) → Store → Prop where
  | start (today : CivilDate) : Reached registry today [] (ofRegistry registry)
  | later {today later : CivilDate} {ws : List (CivilDate × Write)} {s : Store}
      (h : Reached registry today ws s) (hd : today.notAfter later = true) :
      Reached registry later ws s
  | add {today : CivilDate} {ws : List (CivilDate × Write)} {s : Store}
      (h : Reached registry today ws s) (ids : IdSupply) (i : Individual) :
      Reached registry today ws (addStep (s, ids) i).1.1
  | put {today : CivilDate} {ws : List (CivilDate × Write)} {s : Store}
      (h : Reached registry today ws s) (w : Write) :
      Reached registry today
        (ws ++ (written [((today, w), (putStep s (today, w)).2)]).map fun w => (today, w))
        (putStep s (today, w)).1
  | call {today : CivilDate} {ws : List (CivilDate × Write)} {s : Store}
      (h : Reached registry today ws s) (w : Writer) (c : WriterCall) :
      Reached registry today
        (ws ++ (w.achieved? c (w.perform s today c).answer).toList.map fun w => (today, w))
        (w.perform s today c).store

/-! ### The invariant -/

/-- The store holds what was written last, and all that was written was allowed. -/
structure Backed (r : Registry) (today : CivilDate) (ws : List (CivilDate × Write))
    (s : Store) : Prop where
  registry : s.registry = r
  tracks : ∃ people, Tracks people (ws.map (·.2)) s
  allowed : ∀ w ∈ ws, w.1.notAfter today = true ∧ r.Allows w.1 w.2.key w.2.observation

variable {registry : Registry} {today day : CivilDate} {ws : List (CivilDate × Write)}
  {s s' : Store}

lemma Backed.later (h : Backed registry today ws s) (hd : today.notAfter day = true) :
    Backed registry day ws s :=
  ⟨h.registry, h.tracks, fun w hw =>
    ⟨CivilDate.notAfter_trans (h.allowed w hw).1 hd, (h.allowed w hw).2⟩⟩

lemma Backed.add (h : Backed registry today ws s) (ids : IdSupply) (i : Individual) :
    Backed registry today ws (addStep (s, ids) i).1.1 := by
  rw [addStep_eq]
  split
  · exact h
  · next hnew =>
    obtain ⟨people, ht⟩ := h.tracks
    exact ⟨h.registry, ⟨_, ht.add hnew i.toPerson⟩, h.allowed⟩

/-- An accepted write is checked, so it may join the others. -/
lemma Backed.write (h : Backed registry today ws s) {w : Write} (hw : s.write today w = .ok s') :
    Backed registry today (ws ++ [(today, w)]) s' := by
  obtain ⟨people, ht⟩ := h.tracks
  obtain ⟨c, hc, hfits, hin, rfl⟩ := put_ok hw
  refine ⟨h.registry, ⟨people, ?_⟩, fun v hv => ?_⟩
  · rw [List.map_append]
    exact ht.update (contains_iff.mp hin)
  · rcases List.mem_append.mp hv with hv | hv
    · exact h.allowed v hv
    · obtain rfl := List.mem_singleton.mp hv
      rw [h.registry] at hc
      exact ⟨CivilDate.notAfter_refl today, c, hc, Observation.fits_of_accepts hfits⟩

lemma Reached.backed (h : Reached registry today ws s) : Backed registry today ws s := by
  induction h with
  | start today => exact ⟨rfl, ⟨[], tracks_ofRegistry registry⟩, by simp⟩
  | later _ hd ih => exact ih.later hd
  | add _ ids i ih => exact ih.add ids i
  | @put today ws s _ w ih =>
    unfold putStep
    split
    · simpa [written] using ih
    · next s' hs => exact ih.write hs
  | @call today ws s _ w c ih =>
    have hstore := w.store_perform s today c
    split at hstore
    · next hnone =>
      rw [hnone, hstore]
      simpa using ih
    · next a hsome =>
      rw [hsome]
      exact ih.write hstore.2

/-! ### What it says -/

/-- The identifiers are distinct and lead to their individuals; all that is held was accepted on
some day, and was allowed then. -/
structure Sound (registry : Registry) (today : CivilDate) (ws : List (CivilDate × Write))
    (s : Store) : Prop where
  nodup : s.ids.Nodup
  ids : ∀ id, id ∈ s.ids ↔ ∃ i, s.snapshot? id = some i
  individuals : s.individuals.map (·.id) = s.ids.map some
  snapshot : ∀ id i, s.snapshot? id = some i → i.id = some id
  held : ∀ id i, s.snapshot? id = some i → ∀ k o, i.attributes.get? k = some o →
    ∃ day, (day, ⟨id, k, o⟩) ∈ ws ∧ day.notAfter today = true ∧ registry.Allows day k o

lemma Backed.held (h : Backed registry today ws s) {e : Entry} (he : e ∈ s.entries) {k : Key}
    {o : Observation} (ho : e.attributes.get? k = some o) :
    ∃ day, (day, ⟨e.id, k, o⟩) ∈ ws ∧ day.notAfter today = true ∧ registry.Allows day k o := by
  obtain ⟨people, ht⟩ := h.tracks
  rw [ht.held e he] at ho
  obtain ⟨⟨day, w⟩, hw, heq⟩ := List.mem_map.mp (mem_of_lastWrite? ho)
  obtain rfl : w = ⟨e.id, k, o⟩ := heq
  exact ⟨day, hw, h.allowed _ hw⟩

/-- **Reached stores are sound.** -/
theorem Reached.sound (h : Reached registry today ws s) : Sound registry today ws s := by
  have hb := h.backed
  obtain ⟨people, ht⟩ := hb.tracks
  refine ⟨ht.nodup, fun id => ?_, ?_, fun id i hi => ?_, fun id i hi k o ho => ?_⟩
  · rw [← not_iff_not, ← find?_eq_none_iff]
    simp [snapshot?, Option.eq_none_iff_forall_ne_some]
  · rw [individuals, ids, List.map_map, List.map_map]
    rfl
  · obtain ⟨e, hf, rfl⟩ := Option.map_eq_some_iff.mp hi
    exact congrArg some (mem_of_find? hf).2
  · obtain ⟨e, hf, rfl⟩ := Option.map_eq_some_iff.mp hi
    obtain ⟨he, rfl⟩ := mem_of_find? hf
    exact hb.held he ho

end Store

/-! ### The same in two structures -/

namespace Ledger

/-- What a call on a writer makes of a ledger. -/
def perform (l : Ledger) (w : Writer) (today : CivilDate) (call : WriterCall) : Ledger :=
  match w.request? call with
  | some (.ok a) => if w.isClosed then l else (l.putStep (today, a)).1
  | _ => l

/-- The ledgers that calls lead to while the days go by. -/
inductive Reached (registry : Registry) : CivilDate → Ledger → Prop where
  | start (today : CivilDate) : Reached registry today (ofRegistry registry)
  | later {today later : CivilDate} {l : Ledger} (h : Reached registry today l)
      (hd : today.notAfter later = true) : Reached registry later l
  | add {today : CivilDate} {l : Ledger} (h : Reached registry today l) (ids : IdSupply)
      (i : Individual) : Reached registry today (addStep (l, ids) i).1.1
  | put {today : CivilDate} {l : Ledger} (h : Reached registry today l) (w : Write) :
      Reached registry today (l.putStep (today, w)).1
  | call {today : CivilDate} {l : Ledger} (h : Reached registry today l) (w : Writer)
      (c : WriterCall) : Reached registry today (l.perform w today c)

variable {registry : Registry} {today : CivilDate} {l : Ledger} {s : Store}

lemma Keeps.perform (h : l.Keeps s) (w : Writer) (today : CivilDate) (call : WriterCall) :
    (l.perform w today call).Keeps (w.perform s today call).store := by
  rw [Ledger.perform, Writer.perform_eq]
  cases w.request? call with
  | none => exact h
  | some r =>
    cases r with
    | error e =>
      simp only
      split <;> exact h
    | ok a =>
      simp only
      split
      · exact h
      · have hput := (h.putStep (today, a)).2
        rw [Store.putStep] at hput
        rw [Writer.handle]
        generalize s.write today a = answer at hput ⊢
        cases answer <;> exact hput

/-- **Order and content stay in step** whatever is called, and list a store that the same calls
lead to. -/
theorem Reached.keeps (h : Reached registry today l) :
    ∃ ws s, l.Keeps s ∧ Store.Reached registry today ws s := by
  induction h with
  | start today => exact ⟨[], _, ⟨sound_ofRegistry registry, rfl⟩, .start today⟩
  | later _ hd ih =>
    obtain ⟨ws, s, hkeeps, hs⟩ := ih
    exact ⟨ws, s, hkeeps, hs.later hd⟩
  | @add today l _ ids i ih =>
    obtain ⟨ws, s, hkeeps, hs⟩ := ih
    exact ⟨ws, _, (Keeps.addStep (l := (l, ids)) (s := (s, ids)) ⟨hkeeps, rfl⟩ i).2.1,
      hs.add ids i⟩
  | put _ w ih =>
    obtain ⟨ws, s, hkeeps, hs⟩ := ih
    exact ⟨_, _, (hkeeps.putStep _).2, hs.put w⟩
  | call _ w c ih =>
    obtain ⟨ws, s, hkeeps, hs⟩ := ih
    exact ⟨_, _, hkeeps.perform w _ c, hs.call w c⟩

end Ledger

end Dossier
