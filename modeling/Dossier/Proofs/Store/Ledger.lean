import Dossier.Proofs.Store.Agreement
import Dossier.Proofs.Table
import Mathlib.Data.List.Find

/-!
Stores in two structures. A ledger keeps the order of its individuals apart from what it knows of
them, and looks both up separately. It answers every call as the store does that lists the same
individuals, and keeps order and content in step.
-/

namespace Dossier

structure Ledger where
  registry : Registry
  entries : Table Entry

namespace Ledger

def ofRegistry (registry : Registry) : Ledger := ⟨registry, .empty⟩

def insert (l : Ledger) (id : Uuid) (p : Person) : Except StoreError Ledger :=
  if l.entries.content.contains id then .error (.duplicateIndividual id)
  else .ok { l with entries := l.entries.add id ⟨id, p, ∅⟩ }

def write (l : Ledger) (today : CivilDate) (w : Write) : Except StoreError Ledger :=
  match l.registry.resolve w.key with
  | none => .error (.unknownAttribute w.key)
  | some c =>
    if !c.accepts today w.observation.value then
      .error (.typeMismatch w.key c w.observation.value.kind)
    else
      match l.entries.content[w.id]? with
      | none => .error (.unknownIndividual w.id)
      | some e =>
        let e := { e with attributes := e.attributes.insert w.key w.observation }
        .ok { l with entries := l.entries.replace w.id e }

def get? (l : Ledger) (id : Uuid) (k : Key) : Option Observation :=
  (l.entries.content[id]?).bind (·.attributes.get? k)

def categoryValues (l : Ledger) (id : Uuid) (c : Category) : List Observation :=
  match l.entries.content[id]? with
  | none => []
  | some e => (e.attributes.toList.filter fun a => l.registry.resolve a.1 == some c).map (·.2)

def snapshot? (l : Ledger) (id : Uuid) : Option Individual :=
  (l.entries.content[id]?).map (·.individual)

def individuals (l : Ledger) : List Individual := l.entries.order.filterMap l.snapshot?

def attributeCount (l : Ledger) (id : Uuid) : ℕ :=
  match l.entries.content[id]? with
  | none => 0
  | some e => e.attributes.size

def store (l : Ledger) : Store := ⟨l.registry, l.entries.list.map (·.2)⟩

/-- Order and content are in step, and every individual stands under its own identifier. -/
structure Sound (l : Ledger) : Prop where
  inStep : l.entries.InStep
  own : ∀ (id : Uuid) (e : Entry), l.entries.content[id]? = some e → e.id = id

variable {l : Ledger} {id : Uuid} {e : Entry}

@[simp] lemma registry_store : l.store.registry = l.registry := rfl

lemma sound_ofRegistry (registry : Registry) : (ofRegistry registry).Sound :=
  ⟨Table.inStep_empty, fun id e he => by simp [ofRegistry, Table.empty] at he⟩

lemma Sound.own_of_mem (h : l.Sound) {p : Uuid × Entry} (hp : p ∈ l.entries.list) : p.2.id = p.1 :=
  h.own p.1 p.2 (Table.mem_list.mp hp).2

lemma Sound.find?_store (h : l.Sound) (id : Uuid) :
    l.store.find? id = l.entries.content[id]? := by
  have hfind : l.entries.list.find? (fun p => p.2.id == id) = l.entries.list.find? (·.1 == id) :=
    List.find?_congr fun p hp => by rw [h.own_of_mem hp]
  rw [Store.find?, store, List.find?_map]
  show (l.entries.list.find? fun p => p.2.id == id).map (·.2) = _
  rw [hfind, h.inStep.find?_list, Option.map_map]
  exact Option.map_id'

lemma Sound.contains_store (h : l.Sound) (id : Uuid) :
    l.store.contains id = l.entries.content.contains id := by
  rw [Store.contains, h.find?_store, Std.HashMap.isSome_getElem?_eq_contains]

lemma Sound.put (h : l.Sound) (he : e.id = id) :
    Sound { l with entries := l.entries.put id e } := by
  refine ⟨h.inStep.put id e, fun id' e' he' => ?_⟩
  rw [Table.content_put, Std.HashMap.getElem?_insert] at he'
  split at he'
  · next hid =>
    obtain rfl := Option.some.inj he'
    exact he.trans (beq_iff_eq.mp hid)
  · exact h.own id' e' he'

/-! ### Calls -/

/-- How a ledger and a store may answer one call: alike, and then they list the same. -/
inductive SameAnswer : Except StoreError Ledger → Except StoreError Store → Prop
  | refused (e : StoreError) : SameAnswer (.error e) (.error e)
  | accepted {l : Ledger} (h : l.Sound) : SameAnswer (.ok l) (.ok l.store)

/-- **Taking in** adds to both structures. -/
theorem Sound.insert (h : l.Sound) (id : Uuid) (p : Person) :
    SameAnswer (l.insert id p) (l.store.insert id p) := by
  rw [Ledger.insert, Store.insert, h.contains_store]
  split
  · exact .refused _
  · next hnew =>
    have hadd : l.entries.add id ⟨id, p, ∅⟩ = l.entries.put id ⟨id, p, ∅⟩ := (if_neg hnew).symm
    have hlist : (l.entries.put id ⟨id, p, ∅⟩).list = l.entries.list ++ [(id, ⟨id, p, ∅⟩)] := by
      rw [h.inStep.list_put, h.inStep.any_list, ← h.inStep.contains_eq, if_neg hnew]
    have hstore : ({ l.store with entries := l.store.entries ++ [⟨id, p, ∅⟩] } : Store) =
        store { l with entries := l.entries.put id ⟨id, p, ∅⟩ } := by
      simp [store, hlist]
    rw [hadd, hstore]
    exact .accepted (h.put rfl)

lemma replace_eq_put (he : l.entries.content[id]? = some e) (e' : Entry) :
    l.entries.replace id e' = l.entries.put id e' := by
  have hin : l.entries.content.contains id = true := by
    rw [← Std.HashMap.isSome_getElem?_eq_contains, he]
    rfl
  exact (if_pos hin).symm

lemma Sound.store_update (h : l.Sound) (he : l.entries.content[id]? = some e)
    (f : SortedMap Key Observation → SortedMap Key Observation) :
    l.store.update id f =
      store { l with entries := l.entries.put id { e with attributes := f e.attributes } } := by
  have hin : id ∈ l.entries.order :=
    (h.inStep.same id).mpr (Std.HashMap.mem_iff_isSome_getElem?.mpr (by simp [he]))
  have hlist := h.inStep.list_put id { e with attributes := f e.attributes }
  rw [h.inStep.any_list, if_pos (decide_eq_true hin)] at hlist
  simp only [Store.update, store, hlist, List.map_map]
  congr 1
  refine List.map_congr_left fun p hp => ?_
  simp only [Function.comp_apply, h.own_of_mem hp]
  split
  · next hid =>
    obtain rfl := beq_iff_eq.mp hid
    have hp := (Table.mem_list.mp hp).2
    rw [he] at hp
    obtain rfl := Option.some.inj hp
    rw [h.own p.1 p.2 he]
  · rfl

/-- **A write** changes the content alone. -/
theorem Sound.write (h : l.Sound) (today : CivilDate) (w : Write) :
    SameAnswer (l.write today w) (l.store.write today w) := by
  rw [Ledger.write, Store.write, Store.put, registry_store]
  cases l.registry.resolve w.key with
  | none => exact .refused _
  | some c =>
    simp only
    split
    · exact .refused _
    · rw [h.contains_store, ← Std.HashMap.isSome_getElem?_eq_contains]
      cases he : l.entries.content[w.id]? with
      | none => exact .refused _
      | some e =>
        simp only [Option.isSome_some, Bool.not_true, Bool.false_eq_true, if_false]
        rw [replace_eq_put he, h.store_update he]
        exact .accepted (h.put (e := { e with attributes := _ }) (h.own w.id e he))

/-! ### Reading -/

/-- A ledger and a store of which everything is read alike. -/
structure ReadsAs (l : Ledger) (s : Store) : Prop where
  get? : ∀ id k, l.get? id k = s.get? id k
  categoryValues : ∀ id c, l.categoryValues id c = s.categoryValues id c
  snapshot? : ∀ id, l.snapshot? id = s.snapshot? id
  individuals : l.individuals = s.individuals
  ids : l.entries.order = s.ids
  attributeCount : ∀ id, l.attributeCount id = s.attributeCount id

theorem Sound.readsAs (h : l.Sound) : l.ReadsAs l.store where
  get? id k := by rw [get?, Store.get?, h.find?_store]
  categoryValues id c := by
    cases he : l.entries.content[id]? <;>
      simp [categoryValues, Store.categoryValues, h.find?_store, he]
  snapshot? id := by rw [snapshot?, Store.snapshot?, h.find?_store]
  individuals := by
    rw [Store.individuals, store, List.map_map, individuals, Table.list, List.map_filterMap]
    refine List.filterMap_congr fun id _ => ?_
    rw [snapshot?, Option.map_map]
    rfl
  ids := by
    rw [← h.inStep.map_fst_list, Store.ids, store, List.map_map]
    exact List.map_congr_left fun p hp => (h.own_of_mem hp).symm
  attributeCount id := by
    cases he : l.entries.content[id]? <;>
      simp [attributeCount, Store.attributeCount, h.find?_store, he]

end Ledger

end Dossier
