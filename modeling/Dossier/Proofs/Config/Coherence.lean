import Dossier.Proofs.Config
import Dossier.Proofs.Registry.Refusals
import Dossier.Proofs.Roster

/-!
Configurations that yield a session. A configuration may make sense and still not fit together: its
namespaces may be no words, or the same when they are normalised, and so may the names of its
attributes. Those that fit together are those that yield a session, and the registry of the session
lists what they declare.
-/

namespace Dossier

open Text

/-! ### What a source declares -/

namespace Source

def normalSpace (s : Source) : String := lower (trim s.space)

/-- What the registry gets to see of a source. -/
def call (s : Source) : String × List Declaration := (s.space, s.declarations.toOption.getD [])

variable {s : Source} {ds : List Declaration}

lemma declaration_eq_ok_iff {l name : String} {d : Declaration} :
    ((Category.parse name).map fun c => (⟨l, c⟩ : Declaration)) = .ok d ↔
      d.localName = l ∧ Category.parse name = .ok d.category := by
  obtain ⟨localName, category⟩ := d
  cases Category.parse name with
  | error e => simp [Except.map]
  | ok c => simp [Except.map, eq_comm]

lemma names_declarations (h : s.declarations = .ok ds) :
    ds.map (·.localName) = s.attributes.keys := by
  rw [SortedMap.keys, ← List.forall₂_eq_eq_eq, List.forall₂_map_left_iff,
    List.forall₂_map_right_iff]
  exact ((forall₂_of_mapM h).imp fun p d hd => (declaration_eq_ok_iff.mp hd).1).flip

lemma mem_declarations (h : s.declarations = .ok ds) (d : Declaration) :
    d ∈ ds ↔ ∃ name, s.attributes.get? d.localName = some name ∧
      Category.parse name = .ok d.category := by
  have hlines := map_eq_of_mapM h
  rw [← List.mem_map_of_injective (fun _ _ => Except.ok.inj), ← hlines, List.mem_map]
  constructor
  · rintro ⟨⟨l, name⟩, hmem, hd⟩
    obtain ⟨rfl, hc⟩ := declaration_eq_ok_iff.mp hd
    exact ⟨name, s.attributes.mem_toList_iff.mp hmem, hc⟩
  · rintro ⟨name, hget, hc⟩
    exact ⟨(d.localName, name), s.attributes.mem_toList_iff.mpr hget,
      declaration_eq_ok_iff.mpr ⟨rfl, hc⟩⟩

lemma call_eq (h : s.declarations = .ok ds) : s.call = (s.space, ds) := by
  simp [call, h, Except.toOption]

lemma mem_entries_call (h : s.declarations = .ok ds)
    (hword : Key.IsWord (trimChars s.space.toList)) (k : Key) (category : Category) :
    (k, category) ∈ Registry.entries s.call ↔ ∃ l name, s.attributes.get? l = some name ∧
      k = ⟨s.normalSpace, trim l⟩ ∧ Category.parse name = .ok category := by
  have hn : normalNamespace s.space = .ok s.normalSpace :=
    Key.normalNamespace_eq_ok_iff.mpr ⟨hword, rfl⟩
  rw [call_eq h, Registry.entries, hn, List.mem_map]
  constructor
  · rintro ⟨d, hd, hentry⟩
    obtain ⟨name, hget, hc⟩ := (mem_declarations h d).mp hd
    obtain ⟨rfl, rfl⟩ := Prod.mk.inj hentry
    exact ⟨d.localName, name, hget, rfl, hc⟩
  · rintro ⟨l, name, hget, rfl, hc⟩
    exact ⟨⟨l, category⟩, (mem_declarations h _).mpr ⟨name, hget, hc⟩, rfl⟩

lemma register_eq {t : Session} (hds : s.declarations = .ok ds)
    (hstage : t.stage = .configuring) (hshared : t.isShared = false) (read : ReadFile) :
    ∃ secondaries, register read t s = ((t.registry.register s.space ds).map
      fun registry => { t with registry, secondaries }).mapError .schema := by
  refine ⟨t.secondaries ++
    [FactFile.secondary ⟨s.space, s.path, ds, s.timeoutSecs.map Span.ofSecs⟩ read], ?_⟩
  simp only [register, hds, Session.registerSecondary, Session.declare, FactFile.secondary,
    hstage, hshared]
  cases t.registry.register s.space ds <;> rfl

end Source

/-! ### What fits together -/

namespace Config

/-- The namespaces that the primary collectors of a configuration have. -/
def reserved (c : Config) : List String :=
  (c.roster.map fun _ => Roster.space).toList ++ (c.stored.map fun _ => Archive.space).toList

/-- **A configuration that fits together**, with an archive or without. -/
structure Coherent (c : Config) (archive : Option Archive) : Prop where
  archived : c.stored.isSome → archive.isSome
  words : ∀ s ∈ c.sources, Key.IsWord (trimChars s.space.toList)
  apart : (c.reserved ++ c.sources.map Source.normalSpace).Nodup
  names : ∀ s ∈ c.sources, Registry.Fits s.attributes.keys

/-- The first thing in a configuration that does not fit: stored individuals without an archive, or
else a source that cannot be registered after those before it. -/
inductive Objection (c : Config) (archive : Option Archive) : Fault → Prop where
  | noArchive (hstored : c.stored.isSome) (harchive : archive = none) :
      Objection c archive (.config .noArchive)
  | source {earlier later : List Source} {s : Source} {e : SchemaError}
      (hsources : c.sources = earlier ++ s :: later)
      (hearlier : { c with sources := earlier }.Coherent archive)
      (he : Registry.Refusal (c.reserved ++ earlier.map Source.normalSpace) s.space
        s.attributes.keys e) : Objection c archive (.schema e)

/-- **What a registry lists** for a configuration: the namespaces of its collectors, the three keys
of a roster, and a key for every attribute line of a source. -/
structure Schema (c : Config) (r : Registry) : Prop where
  namespaces : r.namespaces.Perm (c.reserved ++ c.sources.map Source.normalSpace)
  resolve : ∀ k category, r.resolve k = some category ↔
    (c.roster.isSome ∧ (k, category) ∈ [(Roster.firstNameKey, .firstName),
      (Roster.lastNameKey, .lastName), (Roster.emailKey, .email)]) ∨
    ∃ s ∈ c.sources, ∃ l name, s.attributes.get? l = some name ∧ k = ⟨s.normalSpace, trim l⟩ ∧
      Category.parse name = .ok category

variable {c : Config} {archive : Option Archive} {earlier later : List Source} {s : Source}
  {t : Session}

lemma nodup_reserved (c : Config) : c.reserved.Nodup := by
  have hne : Roster.space ≠ Archive.space := by decide
  cases hroster : c.roster <;> cases hstored : c.stored <;> simp [reserved, hroster, hstored, hne]

lemma Coherent.concat (h : { c with sources := earlier }.Coherent archive)
    (hs : Registry.Accepts (c.reserved ++ earlier.map Source.normalSpace) s.space
      s.attributes.keys) : { c with sources := earlier ++ [s] }.Coherent archive where
  archived := h.archived
  words := List.forall_mem_append.mpr ⟨h.words, List.forall_mem_singleton.mpr hs.isWord⟩
  apart := by
    rw [List.map_append, List.map_singleton, ← List.append_assoc, ← List.concat_eq_append]
    exact h.apart.concat hs.fresh
  names := List.forall_mem_append.mpr ⟨h.names, List.forall_mem_singleton.mpr hs.fits⟩

lemma Coherent.accepts (h : c.Coherent archive) (hsources : c.sources = earlier ++ s :: later) :
    Registry.Accepts (c.reserved ++ earlier.map Source.normalSpace) s.space
      s.attributes.keys where
  isWord := h.words s (by simp [hsources])
  fresh := by
    have hapart := h.apart
    rw [hsources, List.map_append, List.map_cons, ← List.append_assoc] at hapart
    exact fun hmem => (List.disjoint_of_nodup_append hapart) hmem List.mem_cons_self
  fits := h.names s (by simp [hsources])

lemma Objection.not_coherent {e : Fault} (h : Objection c archive e) : ¬ c.Coherent archive := by
  intro hc
  cases h with
  | noArchive hstored harchive =>
    have hsome := hc.archived hstored
    rw [harchive] at hsome
    cases hsome
  | source hsources _ he => exact he.not_accepts (hc.accepts hsources)

/-! ### Sessions in the making -/

/-- What the registry gets to see of the primary collectors. -/
def primaryCalls (c : Config) : List (String × List Declaration) :=
  (c.roster.map fun _ => (Roster.space, Roster.declarations)).toList ++
    (c.stored.map fun _ => (Archive.space, [])).toList

/-- **A session in the making**: the primary collectors are registered, and so are the sources in
`earlier`, which fit together. -/
structure Prepared (c : Config) (archive : Option Archive) (earlier : List Source) (t : Session) :
    Prop where
  configuring : t.stage = .configuring
  unshared : t.isShared = false
  isOpen : t.registry.isSealed = false
  records : Registry.Records (c.primaryCalls ++ earlier.map Source.call) t.registry
  coherent : { c with sources := earlier }.Coherent archive

lemma normal_primaryCalls (c : Config) :
    c.primaryCalls.map (fun call => normalNamespace call.1) = c.reserved.map .ok := by
  have hroster : normalNamespace Roster.space = .ok Roster.space := Roster.normal_space
  have hstored : normalNamespace Archive.space = .ok Archive.space := Archive.normal_space
  cases hr : c.roster <;> cases hs : c.stored <;>
    simp [primaryCalls, reserved, hr, hs, hroster, hstored]

lemma Prepared.namespaces (h : Prepared c archive earlier t) :
    t.registry.namespaces.Perm (c.reserved ++ earlier.map Source.normalSpace) := by
  have hsources : (earlier.map Source.call).map (fun call => normalNamespace call.1) =
      (earlier.map Source.normalSpace).map .ok := by
    rw [List.map_map, List.map_map]
    exact List.map_congr_left fun s hs =>
      Key.normalNamespace_eq_ok_iff.mpr ⟨h.coherent.words s hs, rfl⟩
  have hperm := h.records.namespaces_perm
  rw [List.map_append, normal_primaryCalls, hsources, ← List.map_append] at hperm
  exact (List.map_perm_map_iff fun _ _ => Except.ok.inj).mp hperm

lemma entries_primaryCalls (k : Key) (category : Category) :
    (∃ call ∈ c.primaryCalls, (k, category) ∈ Registry.entries call) ↔
      c.roster.isSome ∧ (k, category) ∈ [(Roster.firstNameKey, .firstName),
        (Roster.lastNameKey, .lastName), (Roster.emailKey, .email)] := by
  have hroster : Registry.entries (Roster.space, Roster.declarations) =
      [(Roster.firstNameKey, .firstName), (Roster.lastNameKey, .lastName),
        (Roster.emailKey, .email)] := by decide +kernel
  have hstored : Registry.entries (Archive.space, []) = [] := rfl
  cases hr : c.roster <;> cases hs : c.stored <;>
    simp [primaryCalls, hr, hs, hroster, hstored]

lemma Prepared.schema (h : Prepared c archive c.sources t) (hc : c.Sensible) :
    c.Schema t.registry where
  namespaces := h.namespaces
  resolve k category := by
    rw [h.records.resolve_iff, ← entries_primaryCalls]
    simp only [List.mem_append, or_and_right, exists_or, List.mem_map]
    refine or_congr_right ⟨?_, ?_⟩
    · rintro ⟨_, ⟨s, hs, rfl⟩, hmem⟩
      obtain ⟨ds, hds⟩ := hc.declarations s hs
      exact ⟨s, hs, (Source.mem_entries_call hds (h.coherent.words s hs) k category).mp hmem⟩
    · rintro ⟨s, hs, hline⟩
      obtain ⟨ds, hds⟩ := hc.declarations s hs
      exact ⟨_, ⟨s, hs, rfl⟩,
        (Source.mem_entries_call hds (h.coherent.words s hs) k category).mpr hline⟩

/-- **One source more** is registered, or it does not fit to those before it. -/
theorem Prepared.register (h : Prepared c archive earlier t) {ds : List Declaration}
    (hds : s.declarations = .ok ds) (read : ReadFile) :
    (∃ t', Source.register read t s = .ok t' ∧ Prepared c archive (earlier ++ [s]) t') ∨
      ∃ e, Source.register read t s = .error e ∧ ∃ e', e = .schema e' ∧
        Registry.Refusal (c.reserved ++ earlier.map Source.normalSpace) s.space
          s.attributes.keys e' := by
  obtain ⟨secondaries, hregister⟩ := Source.register_eq hds h.configuring h.unshared read
  have hnames := Source.names_declarations hds
  rcases Registry.register_answers h.isOpen s.space ds with ⟨ha, r, hr⟩ | ⟨e, he, hr⟩
  · rw [hr] at hregister
    refine .inl ⟨_, hregister, h.configuring, h.unshared, ?_, ?_, ?_⟩
    · obtain ⟨-, n, es, -, -, -, rfl⟩ := Registry.register_ok hr
      exact h.isOpen
    · rw [List.map_append, List.map_singleton, ← List.append_assoc, Source.call_eq hds]
      exact Registry.records_register h.records hr
    · exact h.coherent.concat (hnames ▸ ha.congr fun n => h.namespaces.mem_iff)
  · rw [hr] at hregister
    exact .inr ⟨_, hregister, e, rfl, hnames ▸ he.congr fun n => h.namespaces.mem_iff⟩

/-! ### The session of a configuration -/

lemma prepared_primary (archive : Option Archive) (ps : List Primary) (hps : ps.length ≤ 1)
    (hcalls : c.primaryCalls = ps.map fun p => (p.space, p.declarations))
    (haccepts : ∀ p ∈ ps, ∃ r, Registry.empty.register p.space p.declarations = .ok r)
    (harchive : c.stored.isSome → archive.isSome) :
    ∃ t, (ps.foldlM Session.registerPrimary
        { Session.ofSettings c.settings with archive }).mapError Fault.schema = .ok t ∧
      Prepared c archive [] t := by
  have hcoherent : { c with sources := [] }.Coherent archive :=
    ⟨harchive, by simp, by simpa [reserved] using nodup_reserved c, by simp⟩
  match ps, hps with
  | [], _ =>
    refine ⟨_, rfl, rfl, rfl, rfl, ?_, hcoherent⟩
    rw [hcalls]
    exact Registry.records_empty
  | [p], _ =>
    obtain ⟨r, hr⟩ := haccepts p List.mem_cons_self
    have hregister : Session.registerPrimary { Session.ofSettings c.settings with archive } p =
        .ok { Session.ofSettings c.settings with archive, registry := r, primary := some p } := by
      simp only [Session.registerPrimary, Session.declare, Session.ofSettings, hr]
      rfl
    refine ⟨{ Session.ofSettings c.settings with archive, registry := r, primary := some p }, ?_,
      rfl, rfl, ?_, ?_, hcoherent⟩
    · rw [List.foldlM_cons, hregister]
      rfl
    · obtain ⟨-, n, es, -, -, -, rfl⟩ := Registry.register_ok hr
      rfl
    · rw [hcalls]
      exact Registry.records_register Registry.records_empty hr

/-- The primary collectors are registered, unless stored individuals are asked for in vain. -/
lemma primaries_answers (hc : c.Sensible) (read : ReadFile) (archive : Option Archive) :
    (∃ ps t, c.primaries read archive = .ok ps ∧ (ps.foldlM Session.registerPrimary
        { Session.ofSettings c.settings with archive }).mapError Fault.schema = .ok t ∧
      Prepared c archive [] t) ∨
    c.stored.isSome ∧ archive = none ∧ c.primaries read archive = .error (.config .noArchive) := by
  have hroster : ∃ registry, Registry.empty.register Roster.space Roster.declarations =
      .ok registry := ⟨_, rfl⟩
  have hstored : ∃ registry, Registry.empty.register Archive.space [] = .ok registry := ⟨_, rfl⟩
  cases hr : c.roster with
  | some roster =>
    have hs : c.stored = none := by simpa [hr] using hc.onePrimary
    obtain ⟨t, hfold, ht⟩ := prepared_primary (c := c) archive [roster.primary read] le_rfl
      (by simp [primaryCalls, hr, hs, Roster.primary]) (List.forall_mem_singleton.mpr hroster)
      (by simp [hs])
    exact .inl ⟨_, t, by simp [primaries, hr, hs], hfold, ht⟩
  | none =>
    cases hs : c.stored with
    | none =>
      obtain ⟨t, hfold, ht⟩ := prepared_primary (c := c) archive [] (Nat.zero_le 1)
        (by simp [primaryCalls, hr, hs]) (by simp) (by simp [hs])
      exact .inl ⟨_, t, by simp [primaries, hr, hs], hfold, ht⟩
    | some f =>
      cases ha : archive with
      | none => exact .inr ⟨rfl, rfl, by simp [primaries, hs]⟩
      | some a =>
        obtain ⟨t, hfold, ht⟩ := prepared_primary (c := c) (some a) [a.primary f] le_rfl
          (by simp [primaryCalls, hr, hs, Archive.primary])
          (List.forall_mem_singleton.mpr hstored) (by simp)
        exact .inl ⟨_, t, by simp [primaries, hr, hs], hfold, ht⟩

/-- **A configuration comes to a session** if it fits together, and otherwise to an objection. -/
theorem session_answers (hc : c.Sensible) (read : ReadFile) (archive : Option Archive) :
    (∃ t, c.session read archive = .ok t ∧ c.Coherent archive ∧ c.Schema t.registry) ∨
      ∃ e, c.session read archive = .error e ∧ Objection c archive e := by
  rcases primaries_answers hc read archive with ⟨ps, t, hps, hfold, ht⟩ | ⟨hstored, rfl, hps⟩
  · have hsession : c.session read archive = c.sources.foldlM (Source.register read) t := by
      simp only [session, hps, bind, Except.bind, hfold]
    -- a configuration that makes sense leaves only the registry to object
    have hstep : ∀ earlier t, ∀ s ∈ c.sources, Prepared c archive earlier t → _ :=
      fun earlier t s hs ht => (hc.declarations s hs).elim fun ds hds => ht.register hds read
    rw [hsession]
    rcases foldlM_answers hstep ht with
      ⟨t', hend, ht'⟩ | ⟨before, s, after, _, hs, ⟨t', ht'⟩, herror, e, rfl, he⟩
    · exact .inl ⟨t', hend, ht'.coherent, ht'.schema hc⟩
    · exact .inr ⟨_, herror, .source hs ht'.coherent he⟩
  · exact .inr ⟨_, by simp only [session, hps, bind, Except.bind], .noArchive hstored rfl⟩

/-- **Which configurations yield a session**, and with which schema. What was read from a text
yields a session exactly if it fits together. The registry of the session then lists what the
configuration declares, and nothing else. Otherwise the first thing that does not fit is named. -/
theorem session_iff_coherent {text : String} (h : ofText text = .ok c) (read : ReadFile)
    (archive : Option Archive) :
    ((∃ t, c.session read archive = .ok t) ↔ c.Coherent archive) ∧
      (∀ t, c.session read archive = .ok t → c.Schema t.registry) ∧
      ∀ e, c.session read archive = .error e → Objection c archive e := by
  rcases session_answers (sensible_of_ofText h) read archive with
    ⟨t, ht, hcoherent, hschema⟩ | ⟨e, he, hobjection⟩
  · rw [ht]
    refine ⟨iff_of_true ⟨t, rfl⟩ hcoherent, ?_, by simp⟩
    rintro _ ⟨⟩
    exact hschema
  · rw [he]
    refine ⟨iff_of_false (by simp) hobjection.not_coherent, by simp, ?_⟩
    rintro _ ⟨⟩
    exact hobjection

def fairText : String :=
  "[roster]\npath = \"guests.json\"\n\n[[sources]]\nnamespace = \" Towns\"\n" ++
  "path = \"towns.json\"\n[sources.attributes]\ntown = \"hometown\"\n"

def fair : Config :=
  ⟨60, none, some ⟨"guests.json", none⟩, none,
    [⟨" Towns", "towns.json", (∅ : SortedMap String String).insert "town" "hometown", none⟩],
    .empty⟩

/-- A roster beside a source with a blank and a capital letter in its namespace. -/
theorem fair_coherent : ∃ t, fair.session (fun _ => .error .notFound) none = .ok t ∧
    fair.Coherent none ∧ fair.Schema t.registry := by
  have hread : ofText fairText = .ok fair := by decide +kernel
  obtain ⟨hcoherent, hschema, -⟩ := session_iff_coherent hread (fun _ => .error .notFound) none
  obtain ⟨t, ht⟩ : ∃ t, fair.session (fun _ => .error .notFound) none = .ok t := ⟨_, rfl⟩
  exact ⟨t, ht, hcoherent.mp ⟨t, ht⟩, hschema t ht⟩

end Config

end Dossier
