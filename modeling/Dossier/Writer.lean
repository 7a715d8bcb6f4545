import Dossier.Store

/-!
Writers. A collector writes into the store through a writer, which keeps it within its namespace,
counts the writes that were accepted, and lists the errors of those that were not. A closed writer
refuses every write and keeps its counts.
-/

namespace Dossier

structure Writer where
  space : String
  written : Nat
  rejected : List StoreError
  isClosed : Bool
deriving DecidableEq

structure Written where
  store : Store
  writer : Writer
  answer : Except StoreError Unit

namespace Writer

/-- A new writer for a namespace, whose letters are put in lower case. -/
def ofNamespace (space : String) : Writer := ⟨Text.lower space, 0, [], false⟩

def close (w : Writer) : Writer := { w with isClosed := true }

def reject (w : Writer) (s : Store) (e : StoreError) : Written :=
  ⟨s, { w with rejected := w.rejected ++ [e] }, .error e⟩

/-- Counts a write that the store has answered. -/
def record (w : Writer) (s : Store) : Except StoreError Store → Written
  | .ok s => ⟨s, { w with written := w.written + 1 }, .ok ()⟩
  | .error e => w.reject s e

def refuse (w : Writer) (s : Store) : Written := ⟨s, w, .error (.writerClosed w.space)⟩

/-- Writes under a local name. A name that makes no key is not declared either. -/
def put (w : Writer) (s : Store) (today : CivilDate) (id : Uuid) (localName : String) (v : Value)
    (reliability : Float) : Written :=
  if w.isClosed then w.refuse s
  else
    match Key.make w.space localName with
    | .error _ => w.reject s (.unknownAttribute ⟨w.space, localName⟩)
    | .ok k =>
      match Reliability.ofFloat? reliability with
      | none => w.reject s (.reliabilityOutOfRange reliability)
      | some r => w.record s (s.put today id k ⟨v, r⟩)

/-- Writes under a whole key, which has to lie in the namespace of the writer. -/
def putObservation (w : Writer) (s : Store) (today : CivilDate) (id : Uuid) (k : Key)
    (o : Observation) : Written :=
  if w.isClosed then w.refuse s
  else if k.space != w.space then w.reject s (.namespaceViolation w.space k)
  else w.record s (s.put today id k o)

end Writer

inductive WriterCall where
  | put (id : Uuid) (localName : String) (value : Value) (reliability : Float)
  | putObservation (id : Uuid) (key : Key) (observation : Observation)
  | close

def Writer.perform (w : Writer) (s : Store) (today : CivilDate) : WriterCall → Written
  | .put id localName v r => w.put s today id localName v r
  | .putObservation id k o => w.putObservation s today id k o
  | .close => ⟨s, w.close, .ok ()⟩

end Dossier
