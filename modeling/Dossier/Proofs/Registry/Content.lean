import Dossier.Proofs.Category
import Dossier.Proofs.History
import Dossier.Proofs.Key
import Dossier.Proofs.Registry

/-!
The content of a registry after any calls. What it lists is what the accepted registrations
declared: every key comes from one declaration of one of them, the namespaces are theirs, and the
keys of the categories are a partition of all keys. Once it is closed, nothing changes.
-/

namespace Dossier

/-- The key of a declaration in a namespace in normal form, with its category. -/
def Declaration.entry (n : String) (d : Declaration) : Key × Category :=
  (⟨n, Text.trim d.localName⟩, d.category)

namespace Registry

/-! ### What a registration declares -/

/-- What an accepted registration adds. -/
def entries (call : String × List Declaration) : List (Key × Category) :=
  match normalNamespace call.1 with
  | .ok n => call.2.map (·.entry n)
  | .error _ => []

lemma stage_eq {n : String} (hn : IsNormal n) {seen : List Key} {ds : List Declaration}
    {es : List (Key × Category)} (h : stage n seen ds = .ok es) :
    es = ds.map (·.entry n) ∧ (es.map (·.1)).Nodup ∧ ∀ k ∈ seen, k ∉ es.map (·.1) := by
  induction ds generalizing seen es with
  | nil => cases h; simp
  | cons d ds ih =>
    obtain ⟨k, es', hmake, hseen, hes, rfl⟩ := stage_cons h
    obtain ⟨heq, hnodup, hfresh⟩ := ih hes
    have hk : k = ⟨n, Text.trim d.localName⟩ := by
      rw [← hn.space_of_make hmake, ← Key.localName_of_make hmake]
    refine ⟨?_, ?_, fun a ha => ?_⟩
    · rw [heq, hk]
      rfl
    · exact List.nodup_cons.mpr ⟨hfresh k List.mem_cons_self, hnodup⟩
    · rw [List.map_cons, List.mem_cons, not_or]
      refine ⟨?_, hfresh a (List.mem_cons_of_mem _ ha)⟩
      rintro rfl
      exact hseen ha

lemma contains_iff_mem_namespaces (r : Registry) (n : String) :
    r.spaces.contains n = true ↔ n ∈ r.namespaces := by
  rw [SortedMap.contains, Option.isSome_iff_exists]
  exact r.spaces.mem_keys_iff.symm

namespace Records

variable {calls : List (String × List Declaration)} {r : Registry}

lemma entries_eq (h : Records calls r) {call : String × List Declaration} (hc : call ∈ calls) :
    ∃ n, normalNamespace call.1 = .ok n ∧ entries call = call.2.map (·.entry n) ∧
      ((entries call).map (·.1)).Nodup ∧
      ∀ k : Key, k.space = n → r.resolve k = SortedMap.lookup k (entries call).reverse := by
  obtain ⟨n, es, hn, hes, hresolve⟩ := h.declared call hc
  obtain ⟨heq, hnodup, -⟩ := stage_eq (isNormal_of_normalNamespace hn) hes
  have hentries : entries call = es := by rw [entries, hn, heq]
  rw [hentries]
  exact ⟨n, hn, heq, hnodup, hresolve⟩

lemma space_of_mem_entries {call : String × List Declaration} {e : Key × Category}
    (he : e ∈ entries call) : normalNamespace call.1 = .ok e.1.space := by
  unfold entries at he
  split at he
  · next n hn =>
    obtain ⟨d, -, rfl⟩ := List.mem_map.mp he
    exact hn
  · cases he

lemma resolve_iff (h : Records calls r) (k : Key) (c : Category) :
    r.resolve k = some c ↔ ∃ call ∈ calls, (k, c) ∈ entries call := by
  constructor
  · intro hk
    obtain ⟨call, hcall, hn, -⟩ := h.isDeclared hk
    obtain ⟨n, hn', -, -, hresolve⟩ := h.entries_eq hcall
    obtain rfl : n = k.space := Except.ok.inj (hn'.symm.trans hn)
    rw [hresolve k rfl] at hk
    exact ⟨call, hcall, List.mem_reverse.mp (SortedMap.mem_of_lookup hk)⟩
  · rintro ⟨call, hcall, hmem⟩
    obtain ⟨n, hn, -, hnodup, hresolve⟩ := h.entries_eq hcall
    obtain rfl : n = k.space := Except.ok.inj (hn.symm.trans (space_of_mem_entries hmem))
    rw [hresolve k rfl]
    refine SortedMap.lookup_of_mem ?_ (List.mem_reverse.mpr hmem)
    rw [List.map_reverse]
    exact List.nodup_reverse.mpr hnodup

/-- Registries that accepted the same registrations, in whatever order, agree on every key. -/
lemma resolve_congr {calls' : List (String × List Declaration)} {r' : Registry}
    (h : Records calls r) (h' : Records calls' r') (hsame : ∀ c, c ∈ calls ↔ c ∈ calls') (k : Key) :
    r.resolve k = r'.resolve k :=
  Option.ext fun c => by simp only [h.resolve_iff, h'.resolve_iff, hsame]

/-- **The registry lists what was declared**, each declaration once. -/
theorem declarations_perm (h : Records calls r) :
    r.declarations.Perm (calls.flatMap entries) := by
  have hapart : calls.Pairwise fun c d => (entries c).Disjoint (entries d) := by
    refine h.apart.imp fun {c d} hne e he he' => hne ?_
    rw [space_of_mem_entries he, space_of_mem_entries he']
  have hnodup : (calls.flatMap entries).Nodup := by
    refine List.nodup_flatMap.mpr ⟨fun call hcall => ?_, hapart⟩
    obtain ⟨-, -, -, hn, -⟩ := h.entries_eq hcall
    exact hn.of_map
  refine (List.perm_ext_iff_of_nodup (.of_map _ r.attributes.nodup_keys) hnodup).mpr fun e => ?_
  rw [List.mem_flatMap, ← h.resolve_iff]
  exact r.attributes.mem_toList_iff

lemma size_eq (h : Records calls r) : r.size = (calls.map fun c => c.2.length).sum := by
  have hlength : r.size = (calls.flatMap entries).length := h.declarations_perm.length_eq
  rw [hlength, List.length_flatMap]
  congr 1
  refine List.map_congr_left fun call hcall => ?_
  obtain ⟨n, -, heq, -⟩ := h.entries_eq hcall
  rw [heq, List.length_map]

lemma mem_namespaces (h : Records calls r) (n : String) :
    n ∈ r.namespaces ↔ ∃ c ∈ calls, normalNamespace c.1 = .ok n := by
  rw [← r.contains_iff_mem_namespaces, h.spaces]

/-- The namespaces are those of the registrations, each once. -/
theorem namespaces_perm (h : Records calls r) :
    (r.namespaces.map Except.ok).Perm (calls.map fun c => normalNamespace c.1) := by
  have hleft : (r.namespaces.map (Except.ok (ε := SchemaError))).Nodup :=
    r.spaces.nodup_keys.map fun _ _ => Except.ok.inj
  have hright : (calls.map fun c => normalNamespace c.1).Nodup := List.pairwise_map.mpr h.apart
  refine (List.perm_ext_iff_of_nodup hleft hright).mpr fun x => ?_
  simp only [List.mem_map, h.mem_namespaces]
  constructor
  · rintro ⟨n, ⟨c, hc, hn⟩, rfl⟩
    exact ⟨c, hc, hn⟩
  · rintro ⟨c, hc, rfl⟩
    obtain ⟨n, hn, -⟩ := h.entries_eq hc
    exact ⟨n, ⟨c, hc, hn⟩, hn.symm⟩

lemma isNormal_of_mem_namespaces (h : Records calls r) {n : String} (hn : n ∈ r.namespaces) :
    IsNormal n := by
  obtain ⟨c, -, hc⟩ := (h.mem_namespaces n).mp hn
  exact isNormal_of_normalNamespace hc

end Records

/-! ### Keys by category -/

lemma mem_keysFor (r : Registry) (c : Category) (k : Key) :
    k ∈ r.keysFor c ↔ r.resolve k = some c := by
  have hmem : (k, c) ∈ r.attributes.toList ↔ r.resolve k = some c := r.attributes.mem_toList_iff
  rw [← hmem, keysFor, List.mem_map]
  constructor
  · rintro ⟨e, he, rfl⟩
    obtain ⟨he, hc⟩ := List.mem_filter.mp he
    rwa [← beq_iff_eq.mp hc]
  · exact fun h => ⟨(k, c), List.mem_filter.mpr ⟨h, beq_self_eq_true c⟩, rfl⟩

lemma keysFor_increasing (r : Registry) (c : Category) :
    (r.keysFor c).Pairwise fun a b => compare a b = .lt :=
  List.pairwise_map.mpr (r.attributes.increasing.filter _)

/-- The keys of the categories, taken together, are all keys, each once. -/
theorem keysFor_partition (r : Registry) :
    (Category.all.flatMap r.keysFor).Perm (r.declarations.map (·.1)) := by
  have hsorted := Category.flatMap_filter_perm (l := r.attributes.toList)
    (fun e : Key × Category => some e.2) fun e _ => ⟨e.2, rfl⟩
  rw [show r.keysFor = fun c => (r.attributes.toList.filter fun e => some e.2 == some c).map (·.1)
    from rfl, ← List.map_flatMap]
  exact hsorted.map _

/-! ### Runs of calls -/

inductive Call where
  | register (space : String) (declarations : List Declaration)
  | close

/-- Performs a call. A registration that is refused leaves the registry as it was: everything is
checked before anything is changed, and what was gathered on the way is thrown away. -/
def perform (r : Registry) : Call → Registry × Except SchemaError Unit
  | .register space ds =>
    match r.register space ds with
    | .ok r' => (r', .ok ())
    | .error e => (r, .error e)
  | .close => (r.close, .ok ())

lemma perform_register_ok {r r' : Registry} {space : String} {ds : List Declaration}
    (h : r.register space ds = .ok r') : r.perform (.register space ds) = (r', .ok ()) := by
  simp [perform, h]

lemma perform_register_error {r : Registry} {space : String} {ds : List Declaration}
    {e : SchemaError} (h : r.register space ds = .error e) :
    r.perform (.register space ds) = (r, .error e) := by
  simp [perform, h]

abbrev Log := List (Call × Except SchemaError Unit)

def registration? : Call × Except SchemaError Unit → Option (String × List Declaration)
  | (.register space ds, .ok ()) => some (space, ds)
  | _ => none

def registrations (log : Log) : List (String × List Declaration) := log.filterMap registration?

/-- The call at place `i` is a registration that was accepted before the first closing, and the
declaration at its place `j` is that of the key, in its category. -/
def DeclaredAt (log : Log) (i j : ℕ) (k : Key) (c : Category) : Prop :=
  ∃ space ds d, log[i]? = some (.register space ds, .ok ()) ∧ .close ∉ (log.take i).map (·.1) ∧
    normalNamespace space = .ok k.space ∧ ds[j]? = some d ∧ Text.trim d.localName = k.localName ∧
    d.category = c

/-- **The content of a registry** after calls that were answered like this. -/
structure Content (log : Log) (r : Registry) : Prop where
  resolve : ∀ k c, r.resolve k = some c ↔ ∃ i j, DeclaredAt log i j k c
  once : ∀ k c c' i i' j j', DeclaredAt log i j k c → DeclaredAt log i' j' k c' → i = i' ∧ j = j'
  apart : ∀ k k' : Key, k.space ∈ r.namespaces → k'.space ∈ r.namespaces → k.space ≠ k'.space →
    k.text ≠ k'.text
  size : r.size = ((registrations log).map fun c => c.2.length).sum
  namespaces : (r.namespaces.map .ok).Perm ((registrations log).map fun c => normalNamespace c.1)
  sorted : r.namespaces.Pairwise (· < ·)
  declarations : ∀ k c, (k, c) ∈ r.declarations ↔ r.resolve k = some c
  increasing : Increasing r.declarations
  keysFor : ∀ c, (r.keysFor c).Pairwise fun a b => compare a b = .lt
  mem_keysFor : ∀ c k, k ∈ r.keysFor c ↔ r.resolve k = some c
  partition : (Category.all.flatMap r.keysFor).Perm (r.declarations.map (·.1))

lemma place_eq {α : Type} {R : α → α → Prop} {l : List α} (h : l.Pairwise R) {i j : ℕ} {a b : α}
    (hi : l[i]? = some a) (hj : l[j]? = some b) (hab : ¬ R a b) (hba : ¬ R b a) : i = j := by
  obtain ⟨hilt, rfl⟩ := List.getElem?_eq_some_iff.mp hi
  obtain ⟨hjlt, rfl⟩ := List.getElem?_eq_some_iff.mp hj
  have hapart := List.pairwise_iff_getElem.mp h
  rcases Nat.lt_trichotomy i j with hlt | heq | hgt
  · exact absurd (hapart i j hilt hjlt hlt) hab
  · exact heq
  · exact absurd (hapart j i hjlt hilt hgt) hba

structure Kept (log : Log) (r : Registry) : Prop where
  records : Records (registrations log) r
  isSealed : r.isSealed = true ↔ .close ∈ log.map (·.1)
  early : ∀ i c, (log[i]?).bind registration? = some c → .close ∉ (log.take i).map (·.1)

variable {log : Log} {r : Registry}

lemma registration?_eq_some {e : Call × Except SchemaError Unit} {c : String × List Declaration} :
    registration? e = some c ↔ e = (.register c.1 c.2, .ok ()) := by
  constructor
  · intro h
    obtain ⟨call, answer⟩ := e
    cases call with
    | close => cases h
    | register space ds =>
      cases answer with
      | error e => cases h
      | ok u => cases h; rfl
  · rintro rfl
    rfl

lemma early_append (h : ∀ i c, (log[i]?).bind registration? = some c →
      .close ∉ (log.take i).map (·.1)) {e : Call × Except SchemaError Unit}
    (he : ∀ c, registration? e = some c → .close ∉ log.map (·.1)) :
    ∀ i c, ((log ++ [e])[i]?).bind registration? = some c →
      .close ∉ ((log ++ [e]).take i).map (·.1) := by
  intro i c hi
  rcases Nat.lt_trichotomy i log.length with hlt | rfl | hgt
  · rw [List.getElem?_append_left hlt] at hi
    rw [List.take_append_of_le_length hlt.le]
    exact h i c hi
  · rw [List.getElem?_concat_length] at hi
    rw [List.take_left]
    exact he c hi
  · rw [List.getElem?_eq_none (by simpa using hgt)] at hi
    cases hi

lemma Kept.step (h : Kept log r) (call : Call) :
    Kept (log ++ [(call, (r.perform call).2)]) (r.perform call).1 := by
  cases call with
  | close =>
    refine ⟨?_, by simp [perform, close], early_append h.early fun c hc => by cases hc⟩
    rw [registrations, filterMap_concat]
    simpa [registration?, perform, registrations] using records_close h.records
  | register space ds =>
    cases hr : r.register space ds with
    | error e =>
      rw [perform_register_error hr]
      refine ⟨?_, by simpa using h.isSealed, early_append h.early fun c hc => by cases hc⟩
      rw [registrations, filterMap_concat]
      simpa [registration?, registrations] using h.records
    | ok r' =>
      have hperform := perform_register_ok hr
      obtain ⟨hopen, n, es, -, -, -, rfl⟩ := register_ok hr
      have hclose : Call.close ∉ log.map (·.1) := by rw [← h.isSealed, hopen]; decide
      rw [hperform]
      refine ⟨?_, ?_, early_append h.early fun c _ => hclose⟩
      · rw [registrations, filterMap_concat]
        exact records_register h.records hr
      · simpa using h.isSealed

lemma kept_history (calls : List Call) :
    Kept (history perform empty calls).2 (history perform empty calls).1 :=
  history_inv (fun r log => Kept log r)
    ⟨records_empty, by simp [empty], fun i c hi => by simp at hi⟩
    (fun _ _ call h => h.step call) calls

namespace Kept

lemma declaredAt_iff (h : Kept log r) {k : Key} {c : Category} :
    (∃ call ∈ registrations log, (k, c) ∈ entries call) ↔ ∃ i j, DeclaredAt log i j k c := by
  constructor
  · rintro ⟨call, hcall, hmem⟩
    obtain ⟨e, he, hreg⟩ := List.mem_filterMap.mp hcall
    obtain ⟨i, hi⟩ := List.mem_iff_getElem?.mp he
    have hn := Records.space_of_mem_entries hmem
    have hearly := h.early i call (by rw [hi]; exact hreg)
    rw [registration?_eq_some.mp hreg] at hi
    rw [entries, hn] at hmem
    obtain ⟨d, hd, hentry⟩ := List.mem_map.mp hmem
    obtain ⟨j, hj⟩ := List.mem_iff_getElem?.mp hd
    exact ⟨i, j, call.1, call.2, d, hi, hearly, hn, hj, congrArg (·.1.localName) hentry,
      congrArg (·.2) hentry⟩
  · rintro ⟨i, j, space, ds, d, hi, -, hn, hj, hlocal, rfl⟩
    refine ⟨(space, ds), List.mem_filterMap.mpr ⟨_, List.mem_of_getElem? hi, rfl⟩, ?_⟩
    rw [entries, hn]
    refine List.mem_map.mpr ⟨d, List.mem_of_getElem? hj, ?_⟩
    rw [Declaration.entry, hlocal]

lemma call_eq (h : Kept log r) {i i' : ℕ} {space space' : String} {ds ds' : List Declaration}
    (hi : log[i]? = some (.register space ds, .ok ()))
    (hi' : log[i']? = some (.register space' ds', .ok ()))
    (hn : normalNamespace space = normalNamespace space') : i = i' :=
  place_eq (List.pairwise_filterMap.mp h.records.apart) hi hi'
    (fun hne => hne (space, ds) rfl (space', ds') rfl hn)
    (fun hne => hne (space', ds') rfl (space, ds) rfl hn.symm)

lemma declaration_eq (h : Kept log r) {c : String × List Declaration}
    (hc : c ∈ registrations log) {j j' : ℕ} {d d' : Declaration} (hj : c.2[j]? = some d)
    (hj' : c.2[j']? = some d') (hname : Text.trim d.localName = Text.trim d'.localName) :
    j = j' := by
  obtain ⟨n, -, hentries, hnodup, -⟩ := h.records.entries_eq hc
  rw [hentries, List.map_map] at hnodup
  exact place_eq (List.pairwise_map.mp hnodup) hj hj'
    (fun hne => hne (by simp [Declaration.entry, hname]))
    (fun hne => hne (by simp [Declaration.entry, hname]))

theorem content (h : Kept log r) : Content log r where
  resolve k c := (h.records.resolve_iff k c).trans h.declaredAt_iff
  once := by
    rintro k c c' i i' j j' ⟨space, ds, d, hi, -, hn, hj, hname, -⟩
      ⟨space', ds', d', hi', -, hn', hj', hname', -⟩
    obtain rfl := h.call_eq hi hi' (hn.trans hn'.symm)
    obtain ⟨rfl, rfl⟩ : space = space' ∧ ds = ds' := by simpa using hi.symm.trans hi'
    have hc : (space, ds) ∈ registrations log :=
      List.mem_filterMap.mpr ⟨_, List.mem_of_getElem? hi, rfl⟩
    exact ⟨rfl, h.declaration_eq hc hj hj' (hname.trans hname'.symm)⟩
  apart k k' hk hk' hne htext := hne <| Key.space_eq_of_text_eq
    (h.records.isNormal_of_mem_namespaces hk) (h.records.isNormal_of_mem_namespaces hk') htext
  size := h.records.size_eq
  namespaces := h.records.namespaces_perm
  sorted := List.pairwise_map.mpr (r.spaces.increasing.imp compareOfLessAndEq_eq_lt.mp)
  declarations _ _ := r.attributes.mem_toList_iff
  increasing := r.attributes.increasing
  keysFor := r.keysFor_increasing
  mem_keysFor := r.mem_keysFor
  partition := r.keysFor_partition

lemma perform_eq (h : Kept log r) (hc : .close ∈ log.map (·.1)) (call : Call) :
    (r.perform call).1 = r := by
  have hsealed := h.isSealed.mpr hc
  cases call with
  | close =>
    obtain ⟨attributes, spaces, isSealed⟩ := r
    obtain rfl : isSealed = true := hsealed
    rfl
  | register space ds => simp [perform, register, hsealed]

lemma history_eq (h : Kept log r) (hc : .close ∈ log.map (·.1)) (later : List Call) :
    (history perform r later).1 = r := by
  induction later generalizing log with
  | nil => rfl
  | cons call later ih =>
    have hsame := h.perform_eq hc call
    have hstep := h.step call
    rw [history_cons]
    simp only [hsame] at hstep ⊢
    exact ih hstep (by simp [hc])

end Kept

/-- **A registry lists what was accepted.** After any calls its content is what the accepted
registrations declared; and once it was closed, it stays the same whatever is called. -/
theorem lists_accepted (calls : List Call) :
    Content (history perform empty calls).2 (history perform empty calls).1 ∧
      ∀ later, (history perform empty (calls ++ .close :: later)).1 =
        (history perform empty calls).1.close := by
  have hkept := kept_history calls
  refine ⟨hkept.content, fun later => ?_⟩
  rw [history_append, history_cons]
  exact (hkept.step .close).history_eq (by simp) later

end Registry

end Dossier
