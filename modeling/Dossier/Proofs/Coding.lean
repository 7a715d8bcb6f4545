import Mathlib
import Dossier.Coding
import Dossier.Writer
import Dossier.Proofs.CivilDate
import Dossier.Proofs.Decimal.ReadBack
import Dossier.Proofs.Json.Tree
import Dossier.Proofs.Key
import Dossier.Proofs.SortedMap
import Dossier.Proofs.Uuid

/-!
Written forms. Values, observations, declarations, requirements and individuals are read back from
what they are written as, and whatever text was accepted in their place, its value is written in a
form that stays as it is from then on.
-/

namespace Dossier

namespace Json

/-! ### Records and maps -/

lemma names?_some (ms : List (String × Json)) :
    names? (ms.map fun m => (some m.1, m.2)) = some ms := by
  induction ms with
  | nil => rfl
  | cons m ms ih =>
    rw [names?] at ih ⊢
    simp only [List.map_cons, List.mapM_cons, ih]
    rfl

lemma length_filter_le_one {ms : List (String × Json)} (hn : (ms.map (·.1)).Nodup) (name : String) :
    (ms.filter fun m => m.1 == name).length ≤ 1 := by
  have hcount := List.nodup_iff_count_le_one.mp hn name
  rwa [List.count, List.countP_map, List.countP_eq_length_filter] at hcount

lemma find?_name {α : Type} {ms : List (String × α)} (hn : (ms.map (·.1)).Nodup) {m : String × α}
    (hm : m ∈ ms) : ms.find? (fun m' => m'.1 == m.1) = some m := by
  induction ms with
  | nil => cases hm
  | cons m' ms ih =>
    obtain ⟨hne, hn⟩ := List.nodup_cons.mp hn
    rcases List.mem_cons.mp hm with rfl | hm
    · simp
    · have hother : m'.1 ≠ m.1 := by
        rintro heq
        exact hne (List.mem_map.mpr ⟨m, hm, heq.symm⟩)
      simpa [hother] using ih hn hm

/-- An object that was written is taken apart by the names of its members, in whatever order they
stand; members under other names are passed over. -/
lemma record?_object (names : List String) {ms : List (String × Data)}
    (hn : (ms.map (·.1)).Nodup) (least : ℕ) :
    (Data.object ms).tree.record? names least =
      some (names.map fun n => ((ms.find? (·.1 == n)).map (·.2)).map Data.tree) := by
  set trees := ms.map fun m => (m.1, m.2.tree) with htrees
  have hmembers : Data.memberTrees ms = trees.map fun m => (some m.1, m.2) := by
    simp [Data.memberTrees_eq_map, htrees]
  have hnames : trees.map (·.1) = ms.map (·.1) := by simp [htrees]
  have htwice : (names.any fun n =>
      decide (1 < (trees.filter fun m => m.1 == n).length)) = false := by
    rw [List.any_eq_false]
    intro name _
    have hle := length_filter_le_one (hnames.symm ▸ hn) name
    simpa using hle
  have hfields : names.map (fun n => (trees.find? fun m => m.1 == n).map (·.2)) =
      names.map fun n => ((ms.find? (·.1 == n)).map (·.2)).map Data.tree := by
    refine List.map_congr_left fun n _ => ?_
    rw [htrees, List.find?_map, Option.map_map, Option.map_map]
    rfl
  rw [Data.tree, hmembers, record?, names?_some]
  simp only [Option.bind_eq_bind, Option.bind_some, htwice, hfields]
  rfl

lemma record?_members {ms : List (String × Data)} (hn : (ms.map (·.1)).Nodup) (least : ℕ) :
    (Data.object ms).tree.record? (ms.map (·.1)) least =
      some (ms.map fun m => some m.2.tree) := by
  rw [record?_object _ hn, List.map_map]
  refine congrArg some (List.map_congr_left fun m hm => ?_)
  rw [Function.comp, find?_name hn hm]
  rfl

lemma record?_tree (names : List String) (ds : List Data) (hn : names.Nodup)
    (hlen : names.length = ds.length) (least : ℕ) :
    (Data.object (names.zip ds)).tree.record? names least = some (ds.map fun d => some d.tree) := by
  have hnames : (names.zip ds).map (·.1) = names := List.map_fst_zip hlen.le
  have hfields : (names.zip ds).map (fun m => some m.2.tree) = ds.map fun d => some d.tree := by
    conv_rhs => rw [← List.map_snd_zip hlen.ge]
    rw [List.map_map]
    rfl
  have hrecord := record?_members (hnames.symm ▸ hn) least
  rwa [hnames, hfields] at hrecord

lemma pairs?_tree {κ α : Type} {key : String → Option κ} {read : Json → Option α}
    {name : κ → String} {write : α → Data} {es : List (κ × α)}
    (h : ∀ e ∈ es, key (name e.1) = some e.1 ∧ read (write e.2).tree = some e.2) :
    (Data.object (es.map fun e => (name e.1, write e.2))).tree.pairs? key read = some es := by
  rw [Data.tree, pairs?]
  induction es with
  | nil => rfl
  | cons e es ih =>
    obtain ⟨hkey, hvalue⟩ := h e List.mem_cons_self
    have hrest := ih fun e' he' => h e' (List.mem_cons_of_mem e he')
    simp only [List.map_cons, Data.memberTrees, List.mapM_cons, hrest]
    simp [hkey, hvalue]

lemma exists_name_of_pairs? {κ α : Type} {key : String → Option κ} {read : Json → Option α}
    {j : Json} {es : List (κ × α)} (h : j.pairs? key read = some es) {e : κ × α} (he : e ∈ es) :
    ∃ name, key name = some e.1 := by
  cases j with
  | object members =>
    rw [pairs?] at h
    induction members generalizing es with
    | nil =>
      cases h
      cases he
    | cons m members ih =>
      simp only [List.mapM_cons, Option.bind_eq_bind, Option.bind_eq_some_iff] at h
      obtain ⟨e', ⟨k, hk, v, -, he'⟩, es', hes', hcons⟩ := h
      obtain rfl : e' :: es' = es := Option.some.inj hcons
      rcases List.mem_cons.mp he with rfl | he
      · obtain ⟨name, -, hname⟩ := hk
        exact ⟨name, hname.trans (congrArg some (congrArg Prod.fst (Option.some.inj he')))⟩
      · exact ih he hes'
  | null | bool | number | string | array => cases h

lemma optional?_text (s : Option String) :
    optional? text? (some (Data.optional s).tree) = some s := by
  cases s <;> rfl

end Json

/-! ### Maps -/

namespace SortedMap

variable {κ ν : Type} [Ord κ] [Std.LawfulEqOrd κ] [Std.TransOrd κ]

lemma ofList_toList (m : SortedMap κ ν) : ofList m.toList = m := by
  refine ext_get? fun k => ?_
  have hn : (m.toList.reverse.map (·.1)).Nodup := by
    rw [List.map_reverse, List.nodup_reverse]
    exact m.nodup_keys
  have hfound : ∀ v, lookup k m.toList.reverse = some v ↔ m.get? k = some v := by
    intro v
    rw [← mem_toList_iff, ← List.mem_reverse]
    exact ⟨mem_of_lookup, lookup_of_mem hn⟩
  rw [ofList, get?_insertAll, Option.ext hfound]
  exact Option.or_none

lemma mem_of_mem_ofList {es : List (κ × ν)} {e : κ × ν} (h : e ∈ (ofList es).toList) : e ∈ es := by
  have hget := (mem_toList_iff _).mp h
  rw [ofList, get?_insertAll] at hget
  have hnone : (empty : SortedMap κ ν).get? e.1 = none := rfl
  rw [hnone, Option.or_none] at hget
  exact List.mem_reverse.mp (mem_of_lookup hget)

end SortedMap

/-! ### Names and numbers -/

lemma Data.float?_real {x : Float} (h : Decimal.isFinite x = true) :
    (Data.real x).tree.float? = some x := by
  obtain ⟨n, hnumber, hsign, hn⟩ := Decimal.number?_dataText h
  have hvalue : n.toFloat = x := Decimal.toFloat_of_spreads h hsign hn
  have hfinite : ¬ ((x.toBits >>> 52) &&& 0x7FF == 0x7FF) = true := by
    simpa [Decimal.isFinite] using h
  rw [tree, written?, hnumber]
  simp only [Option.elim_some, Json.float?, JsonNumber.toFloat?, hvalue, if_neg hfinite]

lemma Kind.ofJson?_data (k : Kind) : ofJson? k.data.tree = some k := by
  cases k <;> rfl

lemma Category.named?_name (c : Category) : named? c.name = some c := by
  cases c <;> rfl

lemma Category.ofJson?_data (c : Category) : ofJson? c.data.tree = some c :=
  c.named?_name

lemma Uuid.ofJson?_data (u : Uuid) : ofJson? u.data.tree = some u := u.ofText?_text

lemma Reliability.ofJson?_data (r : Reliability) : ofJson? r.data.tree = some r := by
  have hread : r.data.tree.float? = some r.value :=
    Data.float?_real (Decimal.isFinite_of_isReliability r.inRange)
  rw [ofJson?, hread, Option.bind_some, ofFloat?, dif_pos r.inRange]

lemma JsonNumber.toInt?_ofInt (i : ℤ) : (ofInt i).toInt? = some i := by
  by_cases h : i < 0
  · have hne : i.natAbs ≠ 0 := by omega
    have hvalue : -(i.natAbs : ℤ) = i := by omega
    simp only [ofInt, toInt?, h, decide_true, if_true, hvalue]
    simp [hne]
  · have hvalue : (i.natAbs : ℤ) = i := by omega
    simp only [ofInt, toInt?, h, decide_false, hvalue]
    simp

/-! ### Values and observations -/

lemma Value.ofKind?_content (v : Value) : ofKind? v.kind v.content.tree = some v := by
  cases v with
  | text s => rfl
  | uuid u => simp only [kind, ofKind?, content, u.ofJson?_data, Option.map_some]
  | url s => rfl
  | date d =>
    have htext : (content (date d)).tree.text? = some d.text := rfl
    simp only [kind, ofKind?, htext, Option.bind_some, d.ofText?_text, Option.map_some]
  | integer i =>
    have hint : (content (integer i)).tree.int? = some i.toInt := JsonNumber.toInt?_ofInt i.toInt
    have hrange : Int64.minValue.toInt ≤ i.toInt ∧ i.toInt ≤ Int64.maxValue.toInt :=
      ⟨i.minValue_le_toInt, i.toInt_le⟩
    simp only [kind, ofKind?, hint, Option.bind_eq_bind, Option.bind_some, if_pos hrange,
      Int64.ofInt_toInt]

lemma Value.ofJson?_data (v : Value) : ofJson? v.data.tree = some v := by
  have hfields : v.data.tree.record? ["kind", "value"] 2 =
      some [some v.kind.data.tree, some v.content.tree] :=
    Json.record?_tree _ [v.kind.data, v.content] (by decide) rfl 2
  simp only [ofJson?, hfields, Option.bind_eq_bind, Option.bind_some, Json.required?,
    Kind.ofJson?_data, v.ofKind?_content]

lemma Observation.ofJson?_data (o : Observation) : ofJson? o.data.tree = some o := by
  have hfields : o.data.tree.record? ["value", "reliability"] 2 =
      some [some o.value.data.tree, some o.reliability.data.tree] :=
    Json.record?_tree _ [o.value.data, o.reliability.data] (by decide) rfl 2
  simp only [ofJson?, hfields, Option.bind_eq_bind, Option.bind_some, Json.required?,
    Value.ofJson?_data, Reliability.ofJson?_data]

/-! ### Declarations and requirements -/

lemma Declaration.ofJson?_data (d : Declaration) : ofJson? d.data.tree = some d := by
  have hfields : d.data.tree.record? ["local_name", "category"] 2 =
      some [some (Data.string d.localName).tree, some d.category.data.tree] :=
    Json.record?_tree _ [.string d.localName, d.category.data] (by decide) rfl 2
  have hname : (Data.string d.localName).tree.text? = some d.localName := rfl
  simp only [ofJson?, hfields, Option.bind_eq_bind, Option.bind_some, Json.required?,
    hname, Category.ofJson?_data]

lemma Requirements.ofJson?_data (r : Requirements) : ofJson? r.data.tree = some r := by
  set thresholds := r.thresholds.toList.map fun e => (e.1.name, e.2.data) with hdata
  have hfields : r.data.tree.record? ["show", "thresholds"] 2 =
      some [some (Data.optional r.event).tree, some (Data.object thresholds).tree] :=
    Json.record?_tree _ [.optional r.event, .object thresholds] (by decide) rfl 2
  have hthresholds : (Data.object thresholds).tree.pairs? Category.named? Reliability.ofJson? =
      some r.thresholds.toList :=
    Json.pairs?_tree fun e _ => ⟨e.1.named?_name, e.2.ofJson?_data⟩
  simp only [ofJson?, hfields, Option.bind_eq_bind, Option.bind_some, Json.required?,
    Json.optional?_text, hthresholds, SortedMap.ofList_toList]

/-! ### Individuals -/

lemma attributesOfJson?_data {m : SortedMap Key Observation}
    (hk : ∀ e ∈ m.toList, e.1.IsProper) :
    attributesOfJson? (some (attributesData m).tree) = some m := by
  have hpairs : (attributesData m).tree.pairs? Key.read? Observation.ofJson? = some m.toList :=
    Json.pairs?_tree fun e he =>
      ⟨congrArg Except.toOption (hk e he).parse_text, e.2.ofJson?_data⟩
  rw [attributesOfJson?, hpairs, Option.map_some, SortedMap.ofList_toList]

lemma isProper_of_attributesOfJson? {j : Option Json} {m : SortedMap Key Observation}
    (h : attributesOfJson? j = some m) {e : Key × Observation} (he : e ∈ m.toList) :
    e.1.IsProper := by
  cases j with
  | none =>
    cases h
    cases he
  | some j =>
    obtain ⟨es, hes, rfl⟩ := Option.map_eq_some_iff.mp h
    obtain ⟨name, hname⟩ := Json.exists_name_of_pairs? hes (SortedMap.mem_of_mem_ofList he)
    cases hparse : Key.parse name with
    | error => simp [Key.read?, hparse, Except.toOption] at hname
    | ok k =>
      obtain rfl : k = e.1 := by simpa [Key.read?, hparse, Except.toOption] using hname
      exact Key.isProper_of_parse hparse

lemma Individual.ofJson?_data {i : Individual} (hk : ∀ e ∈ i.attributes.toList, e.1.IsProper) :
    ofJson? i.data.tree = some i := by
  obtain ⟨⟨firstName, lastName, email, event, seat⟩, id, attributes⟩ := i
  obtain ⟨idData, hdata, hid⟩ : ∃ idData : Data,
      data ⟨⟨firstName, lastName, email, event, seat⟩, id, attributes⟩ =
        .object ((Person.fieldNames ++ ["attributes"]).zip [idData, .string firstName,
          .string lastName, .optional email, .optional event, .optional seat,
          attributesData attributes]) ∧
      Json.optional? Uuid.ofJson? (some idData.tree) = some id := by
    cases id with
    | none => exact ⟨.null, rfl, rfl⟩
    | some id => exact ⟨id.data, rfl, congrArg (Option.map some) id.ofJson?_data⟩
  have hfields := Json.record?_tree (Person.fieldNames ++ ["attributes"])
    [idData, .string firstName, .string lastName, .optional email, .optional event, .optional seat,
      attributesData attributes]
    (by decide) rfl 3
  have htext : ∀ s, (Data.string s).tree.text? = some s := fun s => rfl
  have hattributes := attributesOfJson?_data hk
  simp only [ofJson?, hdata, hfields, List.map_cons, List.map_nil, Option.bind_eq_bind,
    Option.bind_some, List.take, List.drop, Person.ofFields?, hid, Json.required?, htext,
    Json.optional?_text, List.head?_cons, Option.join_some, hattributes]

lemma Individual.isProper_of_ofJson? {j : Json} {i : Individual} (h : ofJson? j = some i) :
    ∀ e ∈ i.attributes.toList, e.1.IsProper := by
  simp only [ofJson?, Option.bind_eq_bind, Option.bind_eq_some_iff] at h
  obtain ⟨fields, -, ⟨id, person⟩, -, attributes, hattributes, hi⟩ := h
  obtain rfl := Option.some.inj hi
  exact fun e he => isProper_of_attributesOfJson? hattributes he

/-! ### Written forms -/

def readText? {α : Type} (read : Json → Option α) (s : String) : Option α :=
  (Json.ofText? s).bind read

/-- A written form that loses nothing of the values that can be made. -/
structure Lossless {α : Type} (read : Json → Option α) (write : α → Data) (Made : α → Prop) :
    Prop where
  /-- A value is read back from its text. -/
  reads_written : ∀ a, Made a → readText? read (write a).compact = some a
  /-- The value of any text is written in a form that is read as that value again, and written again
  as the same text. -/
  rewrites : ∀ s a, readText? read s = some a →
    readText? read (write a).compact = some a ∧
      (readText? read (write a).compact).map (fun b => (write b).compact) = some (write a).compact

lemma readText?_compact {α : Type} {read : Json → Option α} (d : Data) :
    readText? read d.compact = read d.tree := by
  rw [readText?, d.ofText?_compact, Option.bind_some]

/-- It is enough that the tree of a written value is read back, and that what is read can be
made. -/
lemma Lossless.of_tree {α : Type} {read : Json → Option α} {write : α → Data} {Made : α → Prop}
    (hread : ∀ a, Made a → read (write a).tree = some a) (hmade : ∀ j a, read j = some a → Made a) :
    Lossless read write Made := by
  have hback : ∀ a, Made a → readText? read (write a).compact = some a :=
    fun a ha => (readText?_compact (write a)).trans (hread a ha)
  refine ⟨hback, fun s a hs => ?_⟩
  obtain ⟨j, -, hj⟩ := Option.bind_eq_some_iff.mp hs
  have hsame := hback a (hmade j a hj)
  exact ⟨hsame, by rw [hsame, Option.map_some]⟩

/-- All keys of an individual's attributes can be made of a namespace and a local name. -/
def Individual.HasProperKeys (i : Individual) : Prop := ∀ e ∈ i.attributes.toList, e.1.IsProper

lemma Individual.readText?_eq_some_iff (i : Individual) :
    readText? ofJson? i.data.compact = some i ↔ i.HasProperKeys := by
  rw [readText?_compact]
  exact ⟨isProper_of_ofJson?, ofJson?_data⟩

/-- **Written forms lose nothing**: not of values, of observations, of declarations, of
requirements, nor of individuals whose keys can be made. Other individuals are not read back. -/
theorem written_forms :
    Lossless Value.ofJson? Value.data (fun _ => True) ∧
    Lossless Observation.ofJson? Observation.data (fun _ => True) ∧
    Lossless Declaration.ofJson? Declaration.data (fun _ => True) ∧
    Lossless Requirements.ofJson? Requirements.data (fun _ => True) ∧
    Lossless Individual.ofJson? Individual.data Individual.HasProperKeys ∧
    ∀ i : Individual, readText? Individual.ofJson? i.data.compact = some i ↔ i.HasProperKeys :=
  ⟨.of_tree (fun v _ => v.ofJson?_data) fun _ _ _ => trivial,
    .of_tree (fun o _ => o.ofJson?_data) fun _ _ _ => trivial,
    .of_tree (fun d _ => d.ofJson?_data) fun _ _ _ => trivial,
    .of_tree (fun r _ => r.ofJson?_data) fun _ _ _ => trivial,
    .of_tree (fun _ hk => Individual.ofJson?_data hk) fun _ _ => Individual.isProper_of_ofJson?,
    Individual.readText?_eq_some_iff⟩

/-! ### Keys that nobody can make -/

/-- Ann, of whom one thing is known. -/
def annUnder (k : Key) : Individual :=
  ⟨⟨"Ann", "Lee", none, none, none⟩, none,
    (∅ : SortedMap Key Observation).insert k ⟨.text "Oslo", .certain⟩⟩

/-- The error of a refused write may name a key that cannot be made. Nobody with such a key is read
back: the text of one of these two is not read at all, that of the other as somebody else. -/
theorem refused_keys_not_read_back :
    (∀ s today, ((Writer.ofNamespace "fb").perform s today
      (.put (.ofNat 1) "bad name" (.text "Oslo") 1)).answer =
        .error (.unknownAttribute ⟨"fb", "bad name"⟩)) ∧
    readText? Individual.ofJson? (annUnder ⟨"fb", "bad name"⟩).data.compact = none ∧
    (∀ s today, ((Writer.ofNamespace "a_b").perform s today
      (.put (.ofNat 1) "c" (.text "Oslo") 1)).answer = .error (.unknownAttribute ⟨"a_b", "c"⟩)) ∧
    readText? Individual.ofJson? (annUnder ⟨"a_b", "c"⟩).data.compact =
      some (annUnder ⟨"a", "b_c"⟩) ∧
    annUnder ⟨"a_b", "c"⟩ ≠ annUnder ⟨"a", "b_c"⟩ := by
  refine ⟨fun s today => ?_, ?_, fun s today => ?_, ?_, ?_⟩
  · rfl
  · rw [readText?_compact]
    decide +kernel
  · rfl
  · rw [readText?_compact]
    decide +kernel
  · decide

end Dossier
