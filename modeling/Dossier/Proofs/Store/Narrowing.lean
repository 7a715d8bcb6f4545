import Mathlib
import Dossier.Proofs.Writer.Request

/-!
Stores with fewer individuals. One store narrows another to those individuals who pass a test: it
holds them, in the same order and with the same observations, and nobody else. Calls that are the
same on both keep it so, and so does a call on the full store alone that is about somebody else.
-/

namespace Dossier

/-- The store holds those individuals of the full one who pass the test. -/
structure Store.Narrows (p : Person → Bool) (st full : Store) : Prop where
  registry : ∀ k, st.registry.resolve k = full.registry.resolve k
  entries : st.entries = full.entries.filter fun e => p e.person

namespace EntriesAgree

variable {P : Key → Prop} {es fs : List Entry}

lemma filter (h : EntriesAgree P es fs) (p : Person → Bool) :
    EntriesAgree P (es.filter fun e => p e.person) (fs.filter fun e => p e.person) := by
  induction h with
  | nil => exact .nil
  | cons he _ ih =>
    rw [List.filter_cons, List.filter_cons, he.person]
    split
    · exact .cons he ih
    · exact ih

end EntriesAgree

namespace Store

variable {p : Person → Bool} {st full : Store}

/-! ### Writes -/

lemma filter_update (s : Store) (id : Uuid)
    (f : SortedMap Key Observation → SortedMap Key Observation) :
    (s.update id f).entries.filter (fun e => p e.person) =
      (Store.update ⟨s.registry, s.entries.filter fun e => p e.person⟩ id f).entries := by
  simp only [update, List.filter_map]
  refine congrArg _ (List.filter_congr fun e _ => ?_)
  simp only [Function.comp_apply]
  split <;> rfl

lemma update_of_notMem {s : Store} {id : Uuid} (h : id ∉ s.ids)
    (f : SortedMap Key Observation → SortedMap Key Observation) : s.update id f = s := by
  have hsame : ∀ e ∈ s.entries,
      (if e.id == id then { e with attributes := f e.attributes } else e) =
      e := by
    intro e he
    have hne : e.id ≠ id := by
      rintro rfl
      exact h (List.mem_map_of_mem he)
    simp [hne]
  rw [update, List.map_congr_left hsame, List.map_id']

namespace Narrows

lemma update (h : Narrows p st full) (id : Uuid)
    (f : SortedMap Key Observation → SortedMap Key Observation) :
    Narrows p (st.update id f) (full.update id f) := by
  refine ⟨h.registry, ?_⟩
  rw [filter_update, ← h.entries]
  rfl

lemma update_out (h : Narrows p st full) {id : Uuid} (hid : id ∉ st.ids)
    (f : SortedMap Key Observation → SortedMap Key Observation) :
    Narrows p st (full.update id f) := by
  have hboth := h.update id f
  rwa [update_of_notMem hid] at hboth

lemma contains (h : Narrows p st full) {id : Uuid} (hid : st.contains id = true) :
    full.contains id = true := by
  obtain ⟨e, he, hp⟩ : ∃ e ∈ st.entries, e.id = id := by
    simpa [Store.contains, find?] using hid
  rw [h.entries, List.mem_filter] at he
  simpa [Store.contains, find?] using ⟨e, he.1, hp⟩

lemma write (h : Narrows p st full) (today : CivilDate) (a : Write) :
    Narrows p ((st.write today a).toOption.getD st) ((full.write today a).toOption.getD full) := by
  simp only [Store.write, put, h.registry]
  cases full.registry.resolve a.key with
  | none => exact h
  | some c =>
    by_cases hc : c.accepts today a.observation.value = true
    · by_cases hin : st.contains a.id = true
      · simpa [hc, hin, h.contains hin, Except.toOption] using h.update a.id _
      · have hout : a.id ∉ st.ids := by
          simpa [Store.contains, find?, Store.ids] using hin
        by_cases hfull : full.contains a.id = true
        · simpa [hc, hin, hfull, Except.toOption] using h.update_out hout _
        · simpa [hc, hin, hfull, Except.toOption] using h
    · simpa [hc, Except.toOption] using h

/-! ### Calls -/

variable {w v : Writer}

lemma perform (h : Narrows p st full) (hspace : w.space = v.space) (hopen : w.isClosed = v.isClosed)
    (today : CivilDate) (call : WriterCall) :
    Narrows p (w.perform st today call).store (v.perform full today call).store := by
  have hrequest : w.request? call = v.request? call := by rw [Writer.request?_congr hspace]
  have hstore : ∀ (u : Writer) (s : Store) (a : Write),
      (u.handle s today (.ok a)).store = (s.write today a).toOption.getD s := by
    intro u s a
    simp only [Writer.handle]
    cases s.write today a <;> rfl
  rw [Writer.perform_eq, Writer.perform_eq, hrequest, hopen]
  cases v.request? call with
  | none => exact h
  | some r =>
    simp only
    split
    · exact h
    · cases r with
      | error e => exact h
      | ok a =>
        rw [hstore, hstore]
        exact h.write today a

lemma perform_out (h : Narrows p st full) (today : CivilDate) {call : WriterCall}
    (hcall : ∀ a, v.request? call = some (.ok a) → a.id ∉ st.ids) :
    Narrows p st (v.perform full today call).store := by
  rcases v.store_perform_cases full today call with hsame | ⟨a, ha, hwrite⟩
  · rw [hsame]
    exact h
  · obtain ⟨-, -, -, -, hstore⟩ := put_ok hwrite
    rw [hstore]
    exact h.update_out (hcall a ha) _

end Narrows

end Store

end Dossier
