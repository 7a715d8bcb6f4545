import Dossier.Registry
import Dossier.Proofs.Namespace
import Dossier.Proofs.SortedMap

/-!
What a registry knows, by the registrations it accepted. Each of them owns one namespace, in
normal form, and within that namespace the registry holds what the registration declared and
nothing else.
-/

namespace Dossier.Registry

/-! ### Staged declarations -/

/-- A pair of the stage is the key of a declaration and its category. -/
def IsDeclared (n : String) (ds : List Declaration) (k : Key) (c : Category) : Prop :=
  ∃ d ∈ ds, Key.make n d.localName = .ok k ∧ d.category = c

lemma stage_cons {n : String} {seen : List Key} {d : Declaration} {ds : List Declaration}
    {es : List (Key × Category)} (h : stage n seen (d :: ds) = .ok es) :
    ∃ k es', Key.make n d.localName = .ok k ∧ k ∉ seen ∧ stage n (k :: seen) ds = .ok es' ∧
      es = (k, d.category) :: es' := by
  simp only [stage] at h
  split at h
  · cases h
  · next k hk =>
    split at h
    · cases h
    · next hseen =>
      split at h
      · cases h
      · next es' hes => exact ⟨k, es', hk, by simpa using hseen, hes, (Except.ok.inj h).symm⟩

lemma isDeclared_of_mem_stage {n : String} {seen : List Key} {ds : List Declaration}
    {es : List (Key × Category)} (h : stage n seen ds = .ok es) :
    ∀ e ∈ es, IsDeclared n ds e.1 e.2 := by
  induction ds generalizing seen es with
  | nil => cases h; simp
  | cons d ds ih =>
    obtain ⟨k, es', hk, -, hes, rfl⟩ := stage_cons h
    intro e he
    rcases List.mem_cons.mp he with rfl | he
    · exact ⟨d, List.mem_cons_self, hk, rfl⟩
    · obtain ⟨d', hd', hmake, hc⟩ := ih hes e he
      exact ⟨d', List.mem_cons_of_mem _ hd', hmake, hc⟩

/-! ### Registrations -/

lemma register_ok {r r' : Registry} {space : String} {ds : List Declaration}
    (h : r.register space ds = .ok r') :
    r.isSealed = false ∧ ∃ n es, normalNamespace space = .ok n ∧ r.spaces.contains n = false ∧
      stage n [] ds = .ok es ∧
      r' = { r with
        attributes := r.attributes.insertAll es
        spaces := r.spaces.insert n () } := by
  simp only [register] at h
  split at h
  · cases h
  · next hsealed =>
    split at h
    · cases h
    · next n hn =>
      split at h
      · cases h
      · next hnew =>
        split at h
        · cases h
        · next es hes =>
          exact ⟨by simpa using hsealed, n, es, hn, by simpa using hnew, hes,
            (Except.ok.inj h).symm⟩

/-- A registry holds exactly what a list of accepted registrations declared. -/
structure Records (calls : List (String × List Declaration)) (r : Registry) : Prop where
  spaces : ∀ n, r.spaces.contains n = true ↔ ∃ c ∈ calls, normalNamespace c.1 = .ok n
  apart : calls.Pairwise fun c d => normalNamespace c.1 ≠ normalNamespace d.1
  declared : ∀ c ∈ calls, ∃ n es, normalNamespace c.1 = .ok n ∧ stage n [] c.2 = .ok es ∧
    ∀ k : Key, k.space = n → r.resolve k = SortedMap.lookup k es.reverse
  undeclared : ∀ k : Key, r.spaces.contains k.space = false → r.resolve k = none

lemma records_empty : Records [] empty where
  spaces n := by simp [empty, SortedMap.contains]
  apart := .nil
  declared c hc := by cases hc
  undeclared k _ := rfl

lemma records_close {calls : List (String × List Declaration)} {r : Registry}
    (h : Records calls r) : Records calls r.close :=
  ⟨h.spaces, h.apart, h.declared, h.undeclared⟩

lemma lookup_stage_of_ne {n : String} {seen : List Key} {ds : List Declaration}
    {es : List (Key × Category)} (hn : IsNormal n) (h : stage n seen ds = .ok es) {k : Key}
    (hk : k.space ≠ n) : SortedMap.lookup k es.reverse = none := by
  rw [SortedMap.lookup_eq_none_iff]
  intro hmem
  obtain ⟨e, he, rfl⟩ := List.mem_map.mp hmem
  obtain ⟨d, -, hmake, -⟩ := isDeclared_of_mem_stage h e (List.mem_reverse.mp he)
  exact hk (hn.space_of_make hmake)

/-- **One registration more** is recorded beside the earlier ones. -/
theorem records_register {calls : List (String × List Declaration)} {r r' : Registry}
    {space : String} {ds : List Declaration} (h : Records calls r)
    (hr : r.register space ds = .ok r') : Records (calls ++ [(space, ds)]) r' := by
  obtain ⟨-, n, es, hn, hnew, hes, rfl⟩ := register_ok hr
  have hnormal : IsNormal n := isNormal_of_normalNamespace hn
  have hfresh : ∀ c ∈ calls, normalNamespace c.1 ≠ .ok n := by
    intro c hc hcn
    rw [(h.spaces n).mpr ⟨c, hc, hcn⟩] at hnew
    cases hnew
  have hresolve : ∀ k : Key, (r.attributes.insertAll es).get? k =
      (SortedMap.lookup k es.reverse).or (r.resolve k) := r.attributes.get?_insertAll es
  have hcontains : ∀ m, (r.spaces.insert n ()).contains m = true ↔
      m = n ∨ r.spaces.contains m = true := by
    intro m
    rw [SortedMap.contains, SortedMap.get?_insert]
    by_cases hm : m = n <;> simp [hm, SortedMap.contains]
  refine ⟨fun m => ?_, ?_, fun c hc => ?_, fun k hk => ?_⟩
  · rw [hcontains, h.spaces]
    constructor
    · rintro (rfl | ⟨c, hc, hcm⟩)
      · exact ⟨(space, ds), by simp, hn⟩
      · exact ⟨c, by simp [hc], hcm⟩
    · rintro ⟨c, hc, hcm⟩
      rcases List.mem_append.mp hc with hc | hc
      · exact .inr ⟨c, hc, hcm⟩
      · obtain rfl := List.mem_singleton.mp hc
        exact .inl (Except.ok.inj (hcm.symm.trans hn))
  · refine List.pairwise_append.mpr ⟨h.apart, List.pairwise_singleton _ _, fun c hc d hd => ?_⟩
    obtain rfl := List.mem_singleton.mp hd
    rw [hn]
    exact hfresh c hc
  · rcases List.mem_append.mp hc with hc | hc
    · obtain ⟨m, fs, hm, hfs, hdecl⟩ := h.declared c hc
      refine ⟨m, fs, hm, hfs, fun k hk => ?_⟩
      have hne : k.space ≠ n := by
        rintro rfl
        rw [hk] at hfresh
        exact hfresh c hc hm
      have hout := lookup_stage_of_ne hnormal hes hne
      show (r.attributes.insertAll es).get? k = _
      rw [hresolve, hout, Option.none_or, hdecl k hk]
    · obtain rfl := List.mem_singleton.mp hc
      refine ⟨n, es, hn, hes, fun k hk => ?_⟩
      have hold : r.resolve k = none := h.undeclared k (by rw [hk]; exact hnew)
      show (r.attributes.insertAll es).get? k = _
      rw [hresolve, hold, Option.or_none]
  · have hk' : ¬ (k.space = n ∨ r.spaces.contains k.space = true) := by
      rw [← hcontains]
      simp [hk]
    obtain ⟨hne, hold⟩ := not_or.mp hk'
    have hout := lookup_stage_of_ne hnormal hes hne
    show (r.attributes.insertAll es).get? k = _
    rw [hresolve, hout, Option.none_or, h.undeclared k (by simpa using hold)]

lemma Records.isDeclared {calls : List (String × List Declaration)} {r : Registry}
    (h : Records calls r) {k : Key} {c : Category} (hk : r.resolve k = some c) :
    ∃ call ∈ calls, normalNamespace call.1 = .ok k.space ∧ IsDeclared k.space call.2 k c := by
  have hin : r.spaces.contains k.space = true := by
    by_contra hout
    rw [h.undeclared k (by simpa using hout)] at hk
    cases hk
  obtain ⟨call, hcall, hn⟩ := (h.spaces k.space).mp hin
  obtain ⟨m, es, hm, hes, hdecl⟩ := h.declared call hcall
  obtain rfl : m = k.space := Except.ok.inj (hm.symm.trans hn)
  rw [hdecl k rfl] at hk
  have hmem := List.mem_reverse.mp (SortedMap.mem_of_lookup hk)
  exact ⟨call, hcall, hn, isDeclared_of_mem_stage hes _ hmem⟩

lemma Records.resolve_eq {calls calls' : List (String × List Declaration)} {r r' : Registry}
    (h : Records calls r) (h' : Records calls' r') {call : String × List Declaration}
    (hc : call ∈ calls) (hc' : call ∈ calls') {k : Key}
    (hk : normalNamespace call.1 = .ok k.space) : r.resolve k = r'.resolve k := by
  obtain ⟨m, es, hm, hes, hdecl⟩ := h.declared call hc
  obtain ⟨m', es', hm', hes', hdecl'⟩ := h'.declared call hc'
  obtain rfl : m = k.space := Except.ok.inj (hm.symm.trans hk)
  obtain rfl : m' = k.space := Except.ok.inj (hm'.symm.trans hk)
  obtain rfl : es = es' := Except.ok.inj (hes.symm.trans hes')
  rw [hdecl k rfl, hdecl' k rfl]

end Dossier.Registry
