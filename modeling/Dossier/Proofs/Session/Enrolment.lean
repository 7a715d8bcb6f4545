import Dossier.Session
import Dossier.Proofs.Registry

/-!
Sessions up to their start. A session that is being configured knows exactly the collectors it has
accepted: the primary one, the secondary ones in the order in which they came, and in its registry
their declarations. Their namespaces differ in normal form.
-/

namespace Dossier

inductive Enrolment where
  | primary (p : Primary)
  | secondary (c : Secondary)

namespace Enrolment

def space : Enrolment → String
  | primary p => p.space
  | secondary c => c.space

def declarations : Enrolment → List Declaration
  | primary p => p.declarations
  | secondary c => c.declarations

/-- What the registry gets to see. -/
def call (e : Enrolment) : String × List Declaration := (e.space, e.declarations)

def primary? : Enrolment → Option Primary
  | primary p => some p
  | secondary _ => none

def secondary? : Enrolment → Option Secondary
  | primary _ => none
  | secondary c => some c

end Enrolment

namespace Session

def enrol (s : Session) : Enrolment → Except SchemaError Session
  | .primary p => s.registerPrimary p
  | .secondary c => s.registerSecondary c

/-- A session that has accepted these collectors, in this order, and may be sealed by now. What is
refused leaves no trace; the registry may be held outside at any time. -/
inductive Configured (settings : Settings) (archive : Option Archive) :
    List Enrolment → Session → Prop where
  | fresh : Configured settings archive [] { ofSettings settings with archive }
  | enrol {es : List Enrolment} {s s' : Session} {e : Enrolment}
      (h : Configured settings archive es s) (he : s.enrol e = .ok s') :
      Configured settings archive (es ++ [e]) s'
  | share {es : List Enrolment} {s : Session} (h : Configured settings archive es s)
      (isShared : Bool) : Configured settings archive es { s with isShared }
  | sealRegistry {es : List Enrolment} {s s' : Session} (h : Configured settings archive es s)
      (hs : s.sealRegistry = .ok s') : Configured settings archive es s'

/-! ### One registration -/

lemma declare_ok {s s' : Session} {space : String} {ds : List Declaration}
    (h : s.declare space ds = .ok s') :
    s.stage = .configuring ∧ ∃ registry, s.registry.register space ds = .ok registry ∧
      s' = { s with registry } := by
  simp only [declare] at h
  split at h
  · cases h
  · next hstage =>
    split at h
    · cases h
    · split at h
      · cases h
      · next registry hr => exact ⟨by simpa using hstage, registry, hr, (Except.ok.inj h).symm⟩

lemma registerPrimary_ok {s s' : Session} {p : Primary} (h : s.registerPrimary p = .ok s') :
    s.primary = none ∧ ∃ registry, s.registry.register p.space p.declarations = .ok registry ∧
      s' = { s with registry, primary := some p } := by
  simp only [registerPrimary] at h
  split at h
  · cases h
  · split at h
    · cases h
    · next hnone =>
      split at h
      · cases h
      · next s₁ hd =>
        obtain ⟨-, registry, hr, rfl⟩ := declare_ok hd
        exact ⟨hnone, registry, hr, (Except.ok.inj h).symm⟩

lemma registerSecondary_ok {s s' : Session} {c : Secondary} (h : s.registerSecondary c = .ok s') :
    ∃ registry, s.registry.register c.space c.declarations = .ok registry ∧
      s' = { s with registry, secondaries := s.secondaries ++ [c] } := by
  simp only [registerSecondary] at h
  split at h
  · cases h
  · next s₁ hd =>
    obtain ⟨-, registry, hr, rfl⟩ := declare_ok hd
    exact ⟨registry, hr, (Except.ok.inj h).symm⟩

lemma sealRegistry_ok {s s' : Session} (h : s.sealRegistry = .ok s') :
    s'.stage = .registrySealed ∧ (s'.registry = s.registry ∨ s'.registry = s.registry.close) ∧
      s' = { s with registry := s'.registry, stage := .registrySealed } := by
  unfold sealRegistry at h
  split at h
  · next hstage =>
    obtain rfl := Except.ok.inj h
    refine ⟨rfl, ?_, rfl⟩
    simp only
    split
    · exact .inl rfl
    · exact .inr rfl
  · next hstage =>
    obtain rfl := Except.ok.inj h
    refine ⟨hstage, .inl rfl, ?_⟩
    rw [← hstage]
  · cases h

/-! ### What a configured session knows -/

/-- **What a session knows** of the collectors it has accepted. -/
structure Knows (settings : Settings) (archive : Option Archive) (es : List Enrolment)
    (s : Session) : Prop where
  settings : s.settings = settings
  archive : s.archive = archive
  primary : s.primary.toList = es.filterMap Enrolment.primary?
  secondaries : s.secondaries = es.filterMap Enrolment.secondary?
  registry : Registry.Records (es.map Enrolment.call) s.registry

variable {settings : Settings} {archive : Option Archive} {es : List Enrolment} {s s' : Session}

lemma Knows.enrol (h : Knows settings archive es s) {e : Enrolment} (he : s.enrol e = .ok s') :
    Knows settings archive (es ++ [e]) s' := by
  cases e with
  | primary p =>
    obtain ⟨hnone, registry, hr, rfl⟩ := registerPrimary_ok he
    have hp := h.primary
    rw [hnone] at hp
    refine ⟨h.settings, h.archive, ?_, ?_, ?_⟩
    · simp [← hp, Enrolment.primary?]
    · simpa [List.filterMap_cons, Enrolment.secondary?] using h.secondaries
    · rw [List.map_append]
      exact Registry.records_register h.registry hr
  | secondary c =>
    obtain ⟨registry, hr, rfl⟩ := registerSecondary_ok he
    refine ⟨h.settings, h.archive, ?_, ?_, ?_⟩
    · simpa [List.filterMap_cons, Enrolment.primary?] using h.primary
    · simp [h.secondaries, Enrolment.secondary?]
    · rw [List.map_append]
      exact Registry.records_register h.registry hr

lemma Knows.sealRegistry (h : Knows settings archive es s) (hs : s.sealRegistry = .ok s') :
    Knows settings archive es s' := by
  obtain ⟨-, hr, heq⟩ := sealRegistry_ok hs
  rw [heq]
  refine ⟨h.settings, h.archive, h.primary, h.secondaries, ?_⟩
  rcases hr with hr | hr
  · simpa [hr] using h.registry
  · simpa [hr] using Registry.records_close h.registry

theorem Configured.knows (h : Configured settings archive es s) :
    Knows settings archive es s := by
  induction h with
  | fresh => exact ⟨rfl, rfl, rfl, rfl, Registry.records_empty⟩
  | enrol _ he ih => exact ih.enrol he
  | share _ b ih => exact ⟨ih.settings, ih.archive, ih.primary, ih.secondaries, ih.registry⟩
  | sealRegistry _ hs ih => exact ih.sealRegistry hs

namespace Knows

variable (h : Knows settings archive es s)
include h

lemma primary_mem {p : Primary} : s.primary = some p ↔ .primary p ∈ es := by
  rw [← Option.mem_toList, h.primary, List.mem_filterMap]
  constructor
  · rintro ⟨e, he, hp⟩
    cases e with
    | primary q => cases hp; exact he
    | secondary c => cases hp
  · exact fun hp => ⟨_, hp, rfl⟩

lemma mem_secondaries {c : Secondary} : c ∈ s.secondaries ↔ .secondary c ∈ es := by
  rw [h.secondaries, List.mem_filterMap]
  constructor
  · rintro ⟨e, he, hc⟩
    cases e with
    | primary p => cases hc
    | secondary d => cases hc; exact he
  · exact fun hc => ⟨_, hc, rfl⟩

lemma normal {e : Enrolment} (he : e ∈ es) :
    normalNamespace e.space = .ok (runningNamespace e.space) := by
  obtain ⟨n, -, hn, -⟩ := h.registry.declared e.call (List.mem_map_of_mem he)
  have hn : normalNamespace e.space = .ok n := hn
  simp [runningNamespace, hn]

lemma normal_secondary {c : Secondary} (hc : c ∈ s.secondaries) :
    normalNamespace c.space = .ok (runningNamespace c.space) :=
  h.normal (e := .secondary c) (h.mem_secondaries.mp hc)

lemma nodup_namespaces : (es.map fun e => normalNamespace e.space).Nodup := by
  have hes := List.pairwise_map.mp h.registry.apart
  exact List.pairwise_map.mpr hes

lemma secondaries_apart :
    s.secondaries.Pairwise fun c d => runningNamespace c.space ≠ runningNamespace d.space := by
  have hapart : s.secondaries.Pairwise fun c d =>
      normalNamespace c.space ≠ normalNamespace d.space := by
    rw [h.secondaries, List.pairwise_filterMap]
    refine (List.pairwise_map.mp h.registry.apart).imp fun {e d} hed c hc c' hc' => ?_
    cases e <;> cases hc
    cases d <;> cases hc'
    exact hed
  refine hapart.imp_of_mem fun {c d} hc hd hcd heq => hcd ?_
  rw [h.normal_secondary hc, h.normal_secondary hd, heq]

end Knows

end Session

end Dossier
