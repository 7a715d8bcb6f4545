import Dossier.Proofs.Registry.Refusals

/-!
Registering, at a registry in any state. A registration is accepted as a whole, or it is refused for
the first thing that is wrong with it and leaves nothing behind.
-/

namespace Dossier.Registry

open Text

variable {r r' : Registry} {space : String} {ds : List Declaration}

/-! ### One refusal -/

lemma Misfit.error_eq {n l : String} {earlier : List String} {e e' : SchemaError}
    (h : Misfit n earlier l e) (h' : Misfit n earlier l e') : e = e' := by
  cases h with
  | noIdentifier hl =>
    cases h' with
    | noIdentifier => rfl
    | repeated hl' => exact absurd hl' hl
  | repeated hl =>
    cases h' with
    | noIdentifier hl' => exact absurd hl hl'
    | repeated => rfl

lemma Misfit.place_eq {n l l' : String} {earlier earlier' later later' : List String}
    {e e' : SchemaError} (hfits : Fits earlier) (h : Misfit n earlier l e) (hfits' : Fits earlier')
    (h' : Misfit n earlier' l' e') (hls : earlier ++ l :: later = earlier' ++ l' :: later') :
    earlier = earlier' ∧ l = l' := by
  -- if one place came before the other, its name would be among those that fit
  rcases List.append_eq_append_iff.mp hls with ⟨between, rfl, hlater⟩ | ⟨between, rfl, hlater⟩
  · cases between with
    | nil => exact ⟨by simp, (List.cons.inj hlater).1⟩
    | cons m between =>
      obtain rfl := (List.cons.inj hlater).1
      exact absurd hfits' (h.not_fits between)
  · cases between with
    | nil => exact ⟨by simp, (List.cons.inj hlater).1.symm⟩
    | cons m between =>
      obtain rfl := (List.cons.inj hlater).1
      exact absurd hfits (h'.not_fits between)

/-- A registration is refused for one reason only. -/
lemma Refusal.unique {taken ls : List String} {e e' : SchemaError} (h : Refusal taken space ls e)
    (h' : Refusal taken space ls e') : e = e' := by
  -- reasons of two kinds exclude each other: the later one says that the earlier does not hold
  cases h with
  | noWord hword =>
    cases h' with
    | noWord => rfl
    | taken hword' => exact absurd hword' hword
    | misfit hword' => exact absurd hword' hword
  | taken hword htaken =>
    cases h' with
    | noWord hword' => exact absurd hword hword'
    | taken => rfl
    | misfit _ hfresh => exact absurd htaken hfresh
  | misfit hword hfresh hls hfits he =>
    cases h' with
    | noWord hword' => exact absurd hword hword'
    | taken _ htaken => exact absurd htaken hfresh
    | misfit _ _ hls' hfits' he' =>
      obtain ⟨rfl, rfl⟩ := he.place_eq hfits hfits' he' (hls.symm.trans hls')
      exact he.error_eq he'

/-- The first thing that is wrong with a registration. That the registry is closed comes before
what is wrong with the registration itself. -/
inductive Objection (r : Registry) (space : String) (ls : List String) : SchemaError → Prop where
  | closed (h : r.isSealed = true) : Objection r space ls .closed
  | refused (h : r.isSealed = false) {e : SchemaError} (he : Refusal r.namespaces space ls e) :
      Objection r space ls e

lemma Objection.unique {ls : List String} {e e' : SchemaError} (h : Objection r space ls e)
    (h' : Objection r space ls e') : e = e' := by
  cases h with
  | closed h =>
    cases h' with
    | closed => rfl
    | refused h' => simp [h] at h'
  | refused h he =>
    cases h' with
    | closed h' => simp [h] at h'
    | refused _ he' => exact he.unique he'

/-! ### Answers -/

/-- The answer of a registry in any state. -/
theorem perform_answers (r : Registry) (space : String) (ds : List Declaration) :
    (r.isSealed = false ∧ Accepts r.namespaces space (ds.map (·.localName)) ∧
        ∃ r', r.register space ds = .ok r') ∨
      ∃ e, Objection r space (ds.map (·.localName)) e ∧ r.register space ds = .error e := by
  cases hsealed : r.isSealed with
  | true => exact .inr ⟨_, .closed hsealed, by simp [register, hsealed]⟩
  | false =>
    rcases register_answers hsealed space ds with ⟨ha, hr⟩ | ⟨e, he, hr⟩
    · exact .inl ⟨rfl, ha, hr⟩
    · exact .inr ⟨e, .refused hsealed he, hr⟩

lemma Objection.not_accepts {ls : List String} {e : SchemaError} (h : Objection r space ls e)
    (hopen : r.isSealed = false) : ¬ Accepts r.namespaces space ls := by
  cases h with
  | closed h => simp [hopen] at h
  | refused _ he => exact he.not_accepts

lemma perform_eq_ok_iff : (r.perform (.register space ds)).2 = .ok () ↔
    r.isSealed = false ∧ Accepts r.namespaces space (ds.map (·.localName)) := by
  rcases r.perform_answers space ds with ⟨hopen, ha, r', hr⟩ | ⟨e, he, hr⟩
  · simp only [perform_register_ok hr, hopen, ha, and_self]
  · rw [perform_register_error hr]
    exact ⟨fun h => (nomatch h), fun h => absurd h.2 (he.not_accepts h.1)⟩

lemma perform_eq_error_iff {e : SchemaError} : (r.perform (.register space ds)).2 = .error e ↔
    Objection r space (ds.map (·.localName)) e := by
  rcases r.perform_answers space ds with ⟨hopen, ha, r', hr⟩ | ⟨e', he', hr⟩
  · rw [perform_register_ok hr]
    exact ⟨fun h => (nomatch h), fun h => absurd ha (h.not_accepts hopen)⟩
  · rw [perform_register_error hr]
    exact ⟨fun h => Except.error.inj h ▸ he', fun h => congrArg _ (he'.unique h)⟩

lemma perform_refused {e : SchemaError} (h : (r.perform (.register space ds)).2 = .error e) :
    (r.perform (.register space ds)).1 = r := by
  cases hr : r.register space ds with
  | ok r' => simp [perform_register_ok hr] at h
  | error e => rw [perform_register_error hr]

/-- What an accepted registration makes of a registry: the namespace has joined the others, each
declaration is found under its key, and the rest is as it was. -/
structure Joins (r : Registry) (n : String) (ds : List Declaration) (after : Registry) : Prop where
  isSealed : after.isSealed = r.isSealed
  namespaces : ∀ m, m ∈ after.namespaces ↔ m = n ∨ m ∈ r.namespaces
  resolve : ∀ k c, after.resolve k = some c ↔ (k, c) ∈ ds.map (·.entry n) ∨
    k ∉ (ds.map (·.entry n)).map (·.1) ∧ r.resolve k = some c

lemma joins_register (h : r.register space ds = .ok r') : Joins r (lower (trim space)) ds r' := by
  obtain ⟨-, n, es, hn, -, hes, rfl⟩ := register_ok h
  obtain ⟨hentries, hnodup, -⟩ := stage_eq (isNormal_of_normalNamespace hn) hes
  obtain ⟨-, rfl⟩ := Key.normalNamespace_eq_ok_iff.mp hn
  refine ⟨rfl, fun m => ?_, fun k c => ?_⟩
  · rw [← contains_iff_mem_namespaces, ← contains_iff_mem_namespaces, SortedMap.contains,
      SortedMap.get?_insert]
    by_cases hm : m = lower (trim space) <;> simp [hm, SortedMap.contains]
  · rw [← hentries]
    exact r.attributes.get?_insertAll_eq_some_iff hnodup

/-- **All or nothing**: an accepted registration adds its namespace and all it declares. A refused
one changes nothing, so that it may be corrected and made again. -/
structure AllOrNothing (r : Registry) (space : String) (ds : List Declaration)
    (after : Registry × Except SchemaError Unit) : Prop where
  accepted : after.2 = .ok () ↔
    r.isSealed = false ∧ Accepts r.namespaces space (ds.map (·.localName))
  refused : ∀ e, after.2 = .error e ↔ Objection r space (ds.map (·.localName)) e
  all : after.2 = .ok () → Joins r (lower (trim space)) ds after.1
  nothing : ∀ e, after.2 = .error e → after.1 = r
  corrected : ∀ e, after.2 = .error e → ∀ space' ds', Key.IsWord (trimChars space'.toList) →
    Fits (ds'.map (·.localName)) →
      ((after.1.perform (.register space' ds')).2 = .ok () ↔
        r.isSealed = false ∧ lower (trim space') ∉ r.namespaces)

/-- **Registering is exact.** A registration has one answer, and does all of what it asks for or
nothing. -/
theorem register_exact (r : Registry) (space : String) (ds : List Declaration) :
    AllOrNothing r space ds (r.perform (.register space ds)) where
  accepted := perform_eq_ok_iff
  refused _ := perform_eq_error_iff
  all h := by
    cases hr : r.register space ds with
    | ok r' =>
      rw [perform_register_ok hr]
      exact joins_register hr
    | error e => simp [perform_register_error hr] at h
  nothing _ := perform_refused
  corrected e he space' ds' hword hfits := by
    rw [perform_refused he, perform_eq_ok_iff]
    exact and_congr_right fun _ => ⟨Accepts.fresh, fun hfresh => ⟨hword, hfresh, hfits⟩⟩

/-- Names are told apart without their blanks, but in upper and lower case. -/
example :
    (empty.perform (.register "fb" [⟨"age", .age⟩, ⟨"Age", .age⟩])).2 = .ok () ∧
      (empty.perform (.register "fb" [⟨"age", .age⟩, ⟨" age ", .age⟩])).2 =
        .error (.duplicateLocalName "fb" " age ") := by
  decide +kernel

end Dossier.Registry
