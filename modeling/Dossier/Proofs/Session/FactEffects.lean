import Mathlib
import Dossier.Proofs.Deeds
import Dossier.Proofs.Session.FactFiles

/-!
What a file of facts does. Its facts are about whoever they name, or else about the last individual
with their email. They are put one after the other; as no fact changes who the individuals are, each
of them is answered as if it came first. What is accepted counts and stays until a later fact is
accepted in its place, what is refused is listed, and what is about nobody is passed over.
-/

namespace Dossier

/-! ### Whom a fact is about -/

/-- The individual has an identifier, and this email but for blanks and the case of letters. -/
def Individual.HasAddress (i : Individual) (email : String) : Prop :=
  i.id ≠ none ∧ ∃ e, i.email = some e ∧ Fact.addressForm e = Fact.addressForm email

/-- **Whom a fact is about**: the identifier that it names, whatever its email is, or else the last
of the individuals who has its email. -/
inductive Fact.Concerns (is : List Individual) (f : Fact) (id : Uuid) : Prop where
  | named (h : f.id = some id)
  | addressed {email : String} {earlier later : List Individual} {i : Individual}
      (hnone : f.id = none) (hemail : f.email = some email) (his : is = earlier ++ i :: later)
      (hi : i.HasAddress email) (hid : i.id = some id) (hlast : ∀ j ∈ later, ¬ j.HasAddress email)

lemma find?_reverse_eq_some_iff {α : Type} {p : α → Bool} {l : List α} {a : α} :
    l.reverse.find? p = some a ↔
      p a = true ∧ ∃ earlier later, l = earlier ++ a :: later ∧ ∀ b ∈ later, ¬ p b = true := by
  rw [List.find?_eq_some_iff_append]
  refine and_congr_right' ⟨?_, ?_⟩
  · rintro ⟨as, bs, hl, hno⟩
    refine ⟨bs.reverse, as.reverse, ?_, fun b hb => by simpa using hno b (List.mem_reverse.mp hb)⟩
    rw [← List.reverse_reverse l, hl]
    simp
  · rintro ⟨earlier, later, rfl, hno⟩
    exact ⟨later.reverse, earlier.reverse, by simp, fun b hb => by
      simpa using hno b (List.mem_reverse.mp hb)⟩

theorem Fact.subject?_eq_some_iff {f : Fact} {is : List Individual} {id : Uuid} :
    f.subject? is = some id ↔ f.Concerns is id := by
  cases hf : f.id with
  | some named =>
    simp only [subject?, hf, Option.some.injEq]
    refine ⟨fun h => .named (h ▸ hf), fun h => ?_⟩
    cases h with
    | named h => exact Option.some.inj (hf.symm.trans h)
    | addressed hnone => rw [hf] at hnone; cases hnone
  | none =>
    have hmeant : ∀ (email : String) (i : Individual),
        (i.id.isSome && i.email.map addressForm == some (addressForm email)) = true ↔
          i.HasAddress email := by
      intro email i
      rw [Bool.and_eq_true, Option.isSome_iff_ne_none, beq_iff_eq, Option.map_eq_some_iff]
      rfl
    simp only [subject?, hf, Option.bind_eq_some_iff, find?_reverse_eq_some_iff, hmeant]
    constructor
    · rintro ⟨email, hemail, i, ⟨hi, earlier, later, his, hlast⟩, hid⟩
      exact .addressed hf hemail his hi hid hlast
    · intro h
      cases h with
      | named h => rw [hf] at h; cases h
      | @addressed email earlier later i _ hemail his hi hid hlast =>
        exact ⟨email, hemail, i, ⟨hi, earlier, later, his, hlast⟩, hid⟩

/-! ### What is answered -/

/-- A fact about an individual, and what was answered when it was put. -/
structure Ruling where
  id : Uuid
  fact : Fact
  answer : Except StoreError Unit

namespace Ruling

def isAccepted (r : Ruling) : Bool := r.answer.isOk

def error? (r : Ruling) : Option StoreError :=
  match r.answer with
  | .error e => some e
  | .ok () => none

/-- The last fact about an individual that was accepted under a local name. -/
def last? (rs : List Ruling) (id : Uuid) (localName : String) : Option Ruling :=
  rs.reverse.find? fun r => r.isAccepted && r.id == id && Text.trim r.fact.localName == localName

/-- What is answered to facts that are put on these days into the namespace `n`, to each of them as
if it were the only one. -/
def ofFacts (n : String) (s : Store) (days : List CivilDate) (fs : List (Uuid × Fact)) :
    List Ruling :=
  (days.zip fs).map fun (day, id, f) =>
    ⟨id, f, ((Writer.ofNamespace n).perform s day (f.call id)).answer⟩

lemma ofFacts_congr {s s' : Store} (hr : s.registry = s'.registry)
    (hids : ∀ id, s.contains id = s'.contains id) (n : String) (days : List CivilDate)
    (fs : List (Uuid × Fact)) : ofFacts n s days fs = ofFacts n s' days fs :=
  List.map_congr_left fun (day, id, f) _ =>
    congrArg (Ruling.mk id f) (Writer.answer_perform_congr rfl rfl hr hids day (f.call id))

def deed (r : Ruling) : Deed := .wrote (r.fact.call r.id) r.answer

/-- What stands under a local name when the last fact accepted there is the one given: its value and
its reliability, or else what stood there before. -/
def Stands (last : Option Ruling) (before after : Option Observation) : Prop :=
  match last with
  | none => after = before
  | some r => ∃ o, after = some o ∧ o.value = r.fact.value ∧
      o.reliability.value = r.fact.reliability

variable {n : String} {s s' : Store} {days : List CivilDate} {fs : List (Uuid × Fact)}
  {r : Ruling} {rs : List Ruling}

lemma isAccepted_iff : r.isAccepted = true ↔ r.answer = .ok () := by
  unfold isAccepted
  cases r.answer <;> simp [Except.isOk, Except.toBool]

lemma last?_concat (rs : List Ruling) (r : Ruling) (id : Uuid) (l : String) :
    last? (rs ++ [r]) id l =
      if r.isAccepted = true ∧ r.id = id ∧ Text.trim r.fact.localName = l then some r
      else last? rs id l := by
  simp only [last?, List.reverse_append, List.reverse_singleton, List.singleton_append,
    List.find?_cons]
  by_cases h : r.isAccepted = true ∧ r.id = id ∧ Text.trim r.fact.localName = l
  · simp [h]
  · have hskip : (r.isAccepted && r.id == id && Text.trim r.fact.localName == l) = false := by
      simpa [and_assoc] using h
    rw [hskip, if_neg h]

lemma countP_deeds (rs : List Ruling) :
    (rs.map deed).countP (·.isAccepted) = rs.countP (·.isAccepted) := by
  rw [List.countP_map]
  congr 1
  funext r
  obtain ⟨id, f, answer⟩ := r
  cases answer <;> rfl

lemma filterMap_deeds (rs : List Ruling) :
    (rs.map deed).filterMap Deed.error? = rs.filterMap error? := by
  rw [List.filterMap_map]
  refine List.filterMap_congr fun r _ => ?_
  obtain ⟨id, f, answer⟩ := r
  cases answer <;> rfl

lemma countP_add_length (rs : List Ruling) :
    rs.countP (·.isAccepted) + (rs.filterMap error?).length = rs.length := by
  rw [List.length_filterMap_eq_countP,
    List.length_eq_countP_add_countP (p := (·.isAccepted)) (l := rs)]
  congr 2
  funext r
  obtain ⟨id, f, answer⟩ := r
  cases answer <;> rfl

/-- What is accepted is written under the local name of the fact, as it is. -/
def Faithful (n : String) (r : Ruling) : Prop :=
  r.isAccepted = true → ∃ o : Observation,
    r.deed.write? n = some ⟨r.id, ⟨n, Text.trim r.fact.localName⟩, o⟩ ∧
      o.value = r.fact.value ∧ o.reliability.value = r.fact.reliability

lemma faithful_put (hn : IsNormal n) (s : Store) (day : CivilDate) (id : Uuid) (f : Fact) :
    Faithful n ⟨id, f, ((Writer.ofNamespace n).perform s day (f.call id)).answer⟩ := by
  intro haccepted
  rw [isAccepted_iff] at haccepted
  dsimp only at haccepted
  have hopen : (Writer.ofNamespace n).isClosed = false := rfl
  have hput : f.call id ≠ .close := by simp [Fact.call]
  obtain ⟨a, ha⟩ := Writer.request?_of_accepted hopen hput haccepted
  have hwrite : (Writer.ofNamespace n).achieved? (f.call id) (.ok ()) = some a := by
    simp [Writer.achieved?, ha, Except.toOption]
  simp only [Fact.call, Writer.request?] at ha
  split at ha
  · cases ha
  · cases ha
  · next k reliability hk hreliability =>
    obtain rfl := Except.ok.inj (Option.some.inj ha)
    have hlower : (Writer.ofNamespace n).space = n := hn.lower_eq
    rw [hlower] at hk
    have hspace : k.space = n := hn.space_of_make hk
    have hname : k.localName = Text.trim f.localName := by
      rw [(Key.make_eq_ok_iff.mp hk).2.2]
    refine ⟨⟨f.value, reliability⟩, ?_, rfl, Reliability.ofFloat?_eq_some_iff.mp hreliability⟩
    rw [deed, Deed.write?, haccepted, hwrite, ← hspace, ← hname]

lemma faithful_ofFacts (hn : IsNormal n) (s : Store) (days : List CivilDate)
    (fs : List (Uuid × Fact)) : ∀ r ∈ ofFacts n s days fs, r.Faithful n := by
  intro r hr
  obtain ⟨⟨day, id, f⟩, -, rfl⟩ := List.mem_map.mp hr
  exact faithful_put hn s day id f

lemma stands_last (hrs : ∀ r ∈ rs, r.Faithful n) (id : Uuid) (l : String) {a b : Option Observation}
    (h : b = (lastWrite? ((rs.map deed).filterMap (Deed.write? n)) id ⟨n, l⟩).or a) :
    Stands (last? rs id l) a b := by
  -- from the right, as the last fact counts
  induction rs using List.reverseRecOn generalizing b with
  | nil => exact h
  | append_singleton rs r ih =>
    have hearlier : ∀ r' ∈ rs, r'.Faithful n := fun r' hr' => hrs r' (List.mem_append_left _ hr')
    rw [List.map_append, List.filterMap_append] at h
    rw [last?_concat]
    by_cases haccepted : r.isAccepted = true
    · obtain ⟨o, hwrite, hvalue, hreliability⟩ := hrs r (by simp) haccepted
      simp only [List.map_cons, List.map_nil, List.filterMap_cons, hwrite, List.filterMap_nil,
        lastWrite?_concat, Key.mk.injEq, true_and] at h
      by_cases hsame : r.id = id ∧ Text.trim r.fact.localName = l
      · rw [if_pos hsame] at h
        rw [if_pos ⟨haccepted, hsame⟩]
        exact ⟨o, h, hvalue, hreliability⟩
      · rw [if_neg hsame] at h
        rw [if_neg fun hall => hsame hall.2]
        exact ih hearlier h
    · -- what is refused is not written
      have hnone : r.deed.write? n = none := by
        rw [isAccepted_iff] at haccepted
        cases hanswer : r.answer with
        | error e => simp [deed, Deed.write?, hanswer, Writer.achieved?]
        | ok => exact absurd hanswer haccepted
      rw [if_neg fun hall => haccepted hall.1]
      refine ih hearlier ?_
      simpa [hnone] using h

end Ruling

/-! ### One fact after the other -/

namespace Task

variable {n : String} {t : Task} {s : Store} {id : Uuid} {f : Fact} {fs : List (Uuid × Fact)}
  {days : List CivilDate}

structure PutsAll (n : String) (t : Task) (s : Store) (ds : List Deed) (u : Task) (s' : Store) :
    Prop where
  status : u.status = some .success
  rest : u.rest = none
  isClosed : u.writer.isClosed = true
  leaves : Leaves n t s ds u s'
  beyond : Store.Agree (Beyond n) s s'

/-- **One fact** is put, answered as it would have been before all others, and the rest is left. -/
lemma act_put (h : t.Working n (.putFacts ((id, f) :: fs))) (hn : IsNormal n) (today : CivilDate)
    (s : Store) :
    (t.act today s).1.Working n (.putFacts fs) ∧
      Leaves n t s [.wrote (f.call id) ((Writer.ofNamespace n).perform s today (f.call id)).answer]
        (t.act today s).1 (t.act today s).2 := by
  have hanswer : (t.writer.perform s today (f.call id)).answer =
      ((Writer.ofNamespace n).perform s today (f.call id)).answer :=
    Writer.answer_perform_congr (h.space.trans hn.lower_eq.symm) h.isOpen rfl (fun _ => rfl) today _
  have hdeed : t.deed? today s = some (.wrote (f.call id)
      ((Writer.ofNamespace n).perform s today (f.call id)).answer) := by
    rw [← hanswer]
    simp only [deed?, h.rest, Activity.putFacts, Fact.call]
  rcases act_working h hn today s with ⟨d, b, hproceeds⟩ | ⟨st, hconcludes⟩
  · obtain rfl := Option.some.inj (hdeed.symm.trans hproceeds.deed)
    have hrest := hproceeds.working.rest
    rw [act, h.rest] at hrest
    obtain rfl : .putFacts fs = b := Option.some.inj hrest
    exact ⟨hproceeds.working, hproceeds.leaves⟩
  · rw [hconcludes.deed] at hdeed
    cases hdeed

lemma registry_act (t : Task) (today : CivilDate) (s : Store) :
    (t.act today s).2.registry = s.registry := by
  rcases t.store_act today s with h | ⟨call, h⟩
  · rw [h]
  · rw [h, Writer.registry_perform]

lemma contains_act (t : Task) (today : CivilDate) (s : Store) (id : Uuid) :
    (t.act today s).2.contains id = s.contains id := by
  rw [Bool.eq_iff_iff, Store.contains_iff, Store.contains_iff]
  rcases t.store_act today s with h | ⟨call, h⟩
  · rw [h]
  · rw [h, Session.ids_perform]

/-- **All facts** are put, with a day for each of them and one for the end. -/
lemma acts_puts (h : t.Working n (.putFacts fs)) (hn : IsNormal n) (s : Store)
    (hdays : fs.length < days.length) :
    PutsAll n t s ((Ruling.ofFacts n s days fs).map Ruling.deed) (t.acts s days).1
      (t.acts s days).2 := by
  induction fs generalizing t s days with
  | nil =>
    obtain ⟨day, days, rfl⟩ := List.exists_cons_of_length_pos hdays
    have hact : t.act day s = (t.finish .success, s) := by
      simp only [act, h.rest, Activity.putFacts]
    have hnone : Ruling.ofFacts n s (day :: days) [] = [] := by simp [Ruling.ofFacts]
    rw [acts_cons, hact, acts_of_over rfl, hnone]
    exact ⟨by simp [finish, h.status], rfl, rfl, leaves_nothing rfl rfl (.refl _ s), .refl _ s⟩
  | cons f fs ih =>
    obtain ⟨day, days, rfl⟩ := List.exists_cons_of_length_pos (Nat.zero_lt_of_lt hdays)
    obtain ⟨id, f⟩ := f
    obtain ⟨hworking, hleaves⟩ := act_put h hn day s
    have hrest := ih hworking (t.act day s).2 (Nat.lt_of_succ_lt_succ hdays)
    have hsame : Ruling.ofFacts n (t.act day s).2 days fs = Ruling.ofFacts n s days fs :=
      Ruling.ofFacts_congr (t.registry_act day s) (t.contains_act day s) n days fs
    have hcons : (Ruling.ofFacts n s (day :: days) ((id, f) :: fs)).map Ruling.deed =
        [.wrote (f.call id) ((Writer.ofNamespace n).perform s day (f.call id)).answer] ++
          (Ruling.ofFacts n s days fs).map Ruling.deed := by
      simp only [Ruling.ofFacts, List.zip_cons_cons, List.map_cons, List.singleton_append,
        Ruling.deed]
    rw [hsame] at hrest
    rw [acts_cons, hcons]
    have hframe := t.act_frame (h.space ▸ hn) day s
    rw [h.space] at hframe
    exact ⟨hrest.status, hrest.rest, hrest.isClosed, hleaves.trans hrest.leaves,
      hframe.trans hrest.beyond⟩

end Task

/-! ### The whole file -/

namespace Fact

/-- The facts that are about somebody, with whom they are about. -/
def addressed (facts : List Fact) (is : List Individual) : List (Uuid × Fact) :=
  facts.filterMap fun f => (f.subject? is).map fun id => (id, f)

def unmatched (facts : List Fact) (is : List Individual) : ℕ :=
  facts.countP fun f => (f.subject? is).isNone

lemma length_addressed (facts : List Fact) (is : List Individual) :
    (addressed facts is).length + unmatched facts is = facts.length := by
  rw [addressed, List.length_filterMap_eq_countP, unmatched,
    List.length_eq_countP_add_countP (p := fun f => (f.subject? is).isSome) (l := facts)]
  congr 2 <;> funext f <;> cases f.subject? is <;> rfl

/-- **What facts do** that were answered like this: the collector succeeds; what was accepted is
counted, and what was refused is listed in the order of the file; all other facts are about nobody.
Under each local name stands the last fact that was accepted there, and nothing else changes. -/
structure Effect (n : String) (facts : List Fact) (is : List Individual) (rs : List Ruling)
    (t : Task) (s : Store) (u : Task) (s' : Store) : Prop where
  status : u.status = some .success
  rest : u.rest = none
  written : u.writer.written = t.writer.written + rs.countP (·.isAccepted)
  rejected : u.writer.rejected = t.writer.rejected ++ rs.filterMap Ruling.error?
  applied : rs.countP (·.isAccepted) =
    facts.length - unmatched facts is - (rs.filterMap Ruling.error?).length
  bounded : unmatched facts is + (rs.filterMap Ruling.error?).length ≤ facts.length
  counted : u.writer.written + u.writer.rejected.length + unmatched facts is =
    t.writer.written + t.writer.rejected.length + facts.length
  held : ∀ id l, Ruling.Stands (Ruling.last? rs id l) (s.get? id ⟨n, l⟩) (s'.get? id ⟨n, l⟩)
  beyond : Store.Agree (Beyond n) s s'

/-- What is left to do when a file was read. -/
def work (facts : List Fact) (is : List Individual) : Activity :=
  .ready (.putFacts (addressed facts is))

/-- **The effect of a file**. A fact is about whom it names, or else about the last individual with
its email. The facts of a file that can be read are put by a collector in its namespace: each of
them is answered as if it came first, and the last one that is accepted stays. -/
theorem take_effect :
    (∀ (f : Fact) is id, f.subject? is = some id ↔ f.Concerns is id) ∧
      (∀ (f : FactFile) read is text facts, read f.path = .ok text →
        listOfText? text = some facts → f.work read is = work facts is) ∧
      ∀ facts is n t s day days, IsNormal n → t.Working n (work facts is) →
        (addressed facts is).length < days.length →
        Effect n facts is (Ruling.ofFacts n s days (addressed facts is)) t s
          (t.acts s (day :: days)).1 (t.acts s (day :: days)).2 := by
  refine ⟨fun f is id => subject?_eq_some_iff, fun f read is text facts hread hfacts => ?_,
    fun facts is n t s day days hn h hdays => ?_⟩
  · simp only [FactFile.work, hread, hfacts]
    rfl
  · set t' : Task := { t with isReady := true, rest := some (.putFacts (addressed facts is)) }
    have hact : t.act day s = (t', s) := by simp only [Task.act, h.rest, work, t']
    have hwriter : t'.writer = t.writer := rfl
    have hworking : t'.Working n (.putFacts (addressed facts is)) :=
      ⟨rfl, h.status, h.space, h.isOpen⟩
    have hputs := Task.acts_puts hworking hn s hdays
    have hleaves := hputs.leaves
    rw [Task.acts_cons, hact]
    set rs := Ruling.ofFacts n s days (addressed facts is) with hrs
    have hlength : rs.length = (addressed facts is).length := by
      rw [hrs, Ruling.ofFacts, List.length_map, List.length_zip]
      omega
    have hall := length_addressed facts is
    have hrulings := Ruling.countP_add_length rs
    have hwritten := hleaves.written
    have hrejected := hleaves.rejected
    rw [hwriter, Ruling.countP_deeds] at hwritten
    rw [hwriter, Ruling.filterMap_deeds] at hrejected
    refine ⟨hputs.status, hputs.rest, hwritten, hrejected, ?_, ?_, ?_, fun id l => ?_,
      hputs.beyond⟩
    · omega
    · omega
    · rw [hwritten, hrejected, List.length_append]
      omega
    · exact Ruling.stands_last (Ruling.faithful_ofFacts hn s days _) id l
        (hleaves.held id ⟨n, l⟩ rfl)

/-! ### Two individuals with one email -/

open Session (annId visitorId)

/-- Two individuals who share an email, which is spelled in two ways. -/
def household : Store where
  registry := ⟨(∅ : SortedMap Key Category).insert ⟨"towns", "town"⟩ .hometown,
    (∅ : SortedMap String Unit).insert "towns" (), true⟩
  entries :=
    [⟨annId, { Person.named "Ann" "Lee" with email := some "home@x" }, ∅⟩,
      ⟨visitorId, { Person.named "Bob" "Ray" with email := some " Home@x" }, ∅⟩]

/-- The first and the last of these facts are about the visitor, the second is refused, and the
third is about nobody. -/
def gossip : List Fact :=
  [⟨none, some "HOME@x ", "town", .text "Rome", 1⟩,
    ⟨some annId, some "home@x", "town", .integer 7, 1⟩,
    ⟨none, some "away@x", "town", .text "Bonn", 1⟩,
    ⟨none, some "home@x", " town", .text "Oslo", 1⟩]

def gossipText : String :=
  "[[null, \"HOME@x \", \"town\", [\"text\", \"Rome\"], 1]," ++
  " [\"22222222222222222222222222222222\", \"home@x\", \"town\", [\"integer\", 7], 1]," ++
  " [null, \"away@x\", \"town\", [\"text\", \"Bonn\"], 1]," ++
  " [null, \"home@x\", \" town\", [\"text\", \"Oslo\"], 1]]"

def gossipFile : FactFile := ⟨"towns", "gossip.json", [⟨"town", .hometown⟩], none⟩

/-- The collector of the gossip, before its first call. -/
def gossiper : Task := .start "towns" (.ofSecs 60) (work gossip) household.individuals

set_option maxRecDepth 4000 in
lemma listOfText?_gossipText : listOfText? gossipText = some gossip := by rfl

/-- Of the visitor the last town is known. -/
theorem gossip_takes_effect :
    let days := List.replicate 5 (⟨2024, 1, 1, by decide⟩ : CivilDate)
    let after := gossiper.acts household (⟨2024, 1, 1, by decide⟩ :: days)
    gossiper.rest =
        some (gossipFile.work (fun _ => .ok gossipText) household.individuals) ∧
      after.1.writer.written = 2 ∧ after.1.writer.rejected.length = 1 ∧
      unmatched gossip household.individuals = 1 ∧
      (after.2.get? visitorId ⟨"towns", "town"⟩).map (·.value) = some (.text "Oslo") ∧
      Effect "towns" gossip household.individuals
        (Ruling.ofFacts "towns" household days (addressed gossip household.individuals)) gossiper
        household after.1 after.2 := by
  intro days after
  have hwork := take_effect.2.1 gossipFile (fun _ => .ok gossipText) household.individuals
    gossipText gossip rfl listOfText?_gossipText
  have hrest : gossiper.rest =
      some (gossipFile.work (fun _ => .ok gossipText) household.individuals) := by
    rw [hwork]
    rfl
  have hdays : (addressed gossip household.individuals).length < days.length :=
    Nat.lt_of_le_of_lt (List.length_filterMap_le _ _) (by decide)
  have heffect := take_effect.2.2 gossip household.individuals "towns" gossiper household
    ⟨2024, 1, 1, by decide⟩ days rfl ⟨rfl, rfl, rfl, rfl⟩ hdays
  exact ⟨hrest, by decide +kernel, by decide +kernel,
    by decide +kernel, by decide +kernel, heffect⟩

end Fact

end Dossier
