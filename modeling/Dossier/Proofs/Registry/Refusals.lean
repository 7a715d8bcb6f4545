import Dossier.Proofs.Registry.Content

/-!
Registrations that are refused. A registry that is open accepts a registration if its namespace is a
word that nobody has taken, and if its local names can stand beside each other. It is refused
otherwise, for the first thing that is wrong with it.
-/

namespace Dossier

open Text

lemma IsNormal.make_of_identifier {n l : String} (hn : IsNormal n)
    (hl : Key.IsIdentifier (trimChars l.toList)) : Key.make n l = .ok ⟨n, trim l⟩ := by
  have hn : normalNamespace n = .ok n := hn
  simp only [Key.make, hn, Key.isLocalName_iff.mpr hl, if_true, trim]

lemma IsNormal.make_of_not_identifier {n l : String} (hn : IsNormal n)
    (hl : ¬ Key.IsIdentifier (trimChars l.toList)) :
    Key.make n l = .error (.badLocalName n (trim l)) := by
  have hn : normalNamespace n = .ok n := hn
  rw [← Key.isLocalName_iff] at hl
  simp only [Key.make, hn, hl, Bool.false_eq_true, if_false, trim]

lemma normalNamespace_eq_error {s : String} (h : ¬ Key.IsWord (trimChars s.toList)) :
    normalNamespace s = .error (.badNamespace s) := by
  simp only [normalNamespace]
  split
  · next ht =>
    simp only [Bool.and_eq_true, Bool.not_eq_true', List.isEmpty_eq_false_iff,
      List.all_eq_true] at ht
    exact absurd ht h
  · rfl

namespace Registry

/-! ### Local names -/

/-- Local names that can stand beside each other in a namespace. -/
structure Fits (ls : List String) : Prop where
  identifiers : ∀ l ∈ ls, Key.IsIdentifier (trimChars l.toList)
  apart : (ls.map trim).Nodup

/-- What is wrong with a local name that comes after `earlier` ones in a namespace. -/
inductive Misfit (n : String) (earlier : List String) (l : String) : SchemaError → Prop where
  | noIdentifier (h : ¬ Key.IsIdentifier (trimChars l.toList)) :
      Misfit n earlier l (.badLocalName n (trim l))
  | repeated (h : Key.IsIdentifier (trimChars l.toList)) (hr : trim l ∈ earlier.map trim) :
      Misfit n earlier l (.duplicateLocalName n l)

lemma fits_nil : Fits [] := ⟨by simp, .nil⟩

lemma Fits.concat {ls : List String} (h : Fits ls) {l : String}
    (hl : Key.IsIdentifier (trimChars l.toList)) (hnew : trim l ∉ ls.map trim) :
    Fits (ls ++ [l]) where
  identifiers m hm := by
    rcases List.mem_append.mp hm with hm | hm
    · exact h.identifiers m hm
    · rwa [List.mem_singleton.mp hm]
  apart := by
    rw [List.map_append, List.map_singleton, ← List.concat_eq_append]
    exact h.apart.concat hnew

lemma Misfit.not_fits {n l : String} {earlier : List String} {e : SchemaError}
    (h : Misfit n earlier l e) (later : List String) : ¬ Fits (earlier ++ l :: later) := by
  intro hfits
  cases h with
  | noIdentifier h => exact h (hfits.identifiers l (by simp))
  | repeated _ hr =>
    have hapart := hfits.apart
    rw [List.map_append, List.map_cons] at hapart
    exact (List.disjoint_of_nodup_append hapart) hr List.mem_cons_self

/-- The stage keeps the keys of the names before, the last of them in front. -/
def keysOf (n : String) (ls : List String) : List Key :=
  (ls.map fun l => ⟨n, trim l⟩).reverse

@[simp] lemma keysOf_nil (n : String) : keysOf n [] = [] := rfl

lemma mem_keysOf {n l : String} {ls : List String} :
    (⟨n, trim l⟩ : Key) ∈ keysOf n ls ↔ trim l ∈ ls.map trim := by
  simp [keysOf, eq_comm]

lemma keysOf_concat (n l : String) (ls : List String) :
    keysOf n (ls ++ [l]) = ⟨n, trim l⟩ :: keysOf n ls := by
  simp [keysOf]

/-- **Staging comes to the end**, or up to the first declaration whose name does not fit. -/
theorem stage_answers {n : String} (hn : IsNormal n) (ds : List Declaration) {earlier : List String}
    (h : Fits earlier) :
    (Fits (earlier ++ ds.map (·.localName)) ∧ ∃ es, stage n (keysOf n earlier) ds = .ok es) ∨
      ∃ before l after e, ds.map (·.localName) = before ++ l :: after ∧ Fits (earlier ++ before) ∧
        Misfit n (earlier ++ before) l e ∧ stage n (keysOf n earlier) ds = .error e := by
  -- a declaration that fits joins the names before the next one
  induction ds generalizing earlier with
  | nil => exact .inl ⟨by simpa using h, [], rfl⟩
  | cons d ds ih =>
    by_cases hl : Key.IsIdentifier (trimChars d.localName.toList)
    · have hmake := hn.make_of_identifier hl
      by_cases hr : trim d.localName ∈ earlier.map trim
      · refine .inr ⟨[], d.localName, ds.map (·.localName), _, rfl, by simpa using h,
          by simpa using Misfit.repeated hl hr, ?_⟩
        simp [stage, hmake, mem_keysOf.mpr hr]
      · have hseen : (⟨n, trim d.localName⟩ : Key) ∉ keysOf n earlier := fun hmem =>
          hr (mem_keysOf.mp hmem)
        rcases ih (h.concat hl hr) with
          ⟨hfits, es, hes⟩ | ⟨before, l, after, e, hds, hfits, he, hes⟩
        · rw [keysOf_concat] at hes
          refine .inl ⟨by simpa using hfits, (⟨n, trim d.localName⟩, d.category) :: es, ?_⟩
          simp [stage, hmake, hseen, hes]
        · rw [keysOf_concat] at hes
          refine .inr ⟨d.localName :: before, l, after, e, by simp [hds], by simpa using hfits,
            by simpa using he, ?_⟩
          simp [stage, hmake, hseen, hes]
    · refine .inr ⟨[], d.localName, ds.map (·.localName), _, rfl, by simpa using h,
        Misfit.noIdentifier hl, ?_⟩
      simp [stage, hn.make_of_not_identifier hl]

/-! ### Registrations -/

/-- What is asked of a registration while the namespaces in `taken` are taken. -/
structure Accepts (taken : List String) (space : String) (ls : List String) : Prop where
  isWord : Key.IsWord (trimChars space.toList)
  fresh : lower (trim space) ∉ taken
  fits : Fits ls

/-- The first thing that is wrong with a registration while the namespaces in `taken` are taken. -/
inductive Refusal (taken : List String) (space : String) (ls : List String) : SchemaError → Prop
    where
  | noWord (h : ¬ Key.IsWord (trimChars space.toList)) :
      Refusal taken space ls (.badNamespace space)
  | taken (h : Key.IsWord (trimChars space.toList)) (ht : lower (trim space) ∈ taken) :
      Refusal taken space ls (.duplicateNamespace (lower (trim space)))
  | misfit (h : Key.IsWord (trimChars space.toList)) (hfresh : lower (trim space) ∉ taken)
      {earlier later : List String} {l : String} {e : SchemaError}
      (hls : ls = earlier ++ l :: later) (hfits : Fits earlier)
      (he : Misfit (lower (trim space)) earlier l e) : Refusal taken space ls e

variable {taken taken' ls : List String} {space : String} {e : SchemaError}

lemma Refusal.not_accepts (h : Refusal taken space ls e) : ¬ Accepts taken space ls := by
  intro ha
  cases h with
  | noWord h => exact h ha.isWord
  | taken _ ht => exact ha.fresh ht
  | misfit _ _ hls _ he => exact he.not_fits _ (hls ▸ ha.fits)

lemma Accepts.congr (h : Accepts taken space ls) (hsame : ∀ n, n ∈ taken ↔ n ∈ taken') :
    Accepts taken' space ls :=
  ⟨h.isWord, fun ht => h.fresh ((hsame _).mpr ht), h.fits⟩

lemma Refusal.congr (h : Refusal taken space ls e) (hsame : ∀ n, n ∈ taken ↔ n ∈ taken') :
    Refusal taken' space ls e := by
  cases h with
  | noWord h => exact .noWord h
  | taken h ht => exact .taken h ((hsame _).mp ht)
  | misfit h hfresh hls hfits he =>
    exact .misfit h (fun ht => hfresh ((hsame _).mpr ht)) hls hfits he

/-- **The answer of an open registry**: it accepts what can be accepted, and refuses everything
else for the first thing that is wrong with it. -/
theorem register_answers {r : Registry} (h : r.isSealed = false) (space : String)
    (ds : List Declaration) :
    (Accepts r.namespaces space (ds.map (·.localName)) ∧ ∃ r', r.register space ds = .ok r') ∨
      ∃ e, Refusal r.namespaces space (ds.map (·.localName)) e ∧
        r.register space ds = .error e := by
  by_cases hword : Key.IsWord (trimChars space.toList)
  · have hn := Key.normalNamespace_eq_ok_iff.mpr ⟨hword, rfl⟩
    by_cases htaken : lower (trim space) ∈ r.namespaces
    · have hcontains := (r.contains_iff_mem_namespaces _).mpr htaken
      exact .inr ⟨_, .taken hword htaken, by simp [register, h, hn, hcontains]⟩
    · have hcontains : r.spaces.contains (lower (trim space)) = false := by
        rw [← r.contains_iff_mem_namespaces] at htaken
        simpa using htaken
      have hstage := stage_answers (isNormal_of_normalNamespace hn) ds fits_nil
      simp only [keysOf_nil, List.nil_append] at hstage
      rcases hstage with ⟨hfits, es, hes⟩ | ⟨before, l, after, e, hds, hfits, he, hes⟩
      · exact .inl ⟨⟨hword, htaken, hfits⟩, _, by simp [register, h, hn, hcontains, hes]; rfl⟩
      · exact .inr ⟨e, .misfit hword htaken hds hfits he,
          by simp [register, h, hn, hcontains, hes]⟩
  · refine .inr ⟨_, .noWord hword, ?_⟩
    simp [register, h, normalNamespace_eq_error hword]

end Registry

end Dossier
