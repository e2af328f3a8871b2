import TypedAnt.Fields
import TypedAnt.Log

/-!
# Open documents

The store keeps the text of every open document under its URI.  Every text that is put
into it gets a new generation, and generations are never used twice, so a result can
be told to belong to a text that has been replaced since.
-/

namespace TypedAnt

structure Snapshot where
  uri : String
  text : String
  generation : Nat
deriving DecidableEq, Repr

structure Store where
  documents : Fields Snapshot := []
  /-- How many generations have been issued. -/
  issued : Nat := 0
deriving DecidableEq, Repr

namespace Store

def size (s : Store) : Nat :=
  s.documents.length

def contains (s : Store) (uri : String) : Bool :=
  (s.documents.get? uri).isSome

def put (s : Store) (uri text : String) : Store :=
  let generation := s.issued + 1
  ⟨s.documents.set uri ⟨uri, text, generation⟩, generation⟩

def close (s : Store) (uri : String) : Store :=
  { s with documents := s.documents.erase uri }

def clear (s : Store) : Store :=
  { s with documents := [] }

def snapshot? (s : Store) (uri : String) : Option Snapshot :=
  s.documents.get? uri

def isCurrent (s : Store) (uri : String) (generation : Int) : Bool :=
  (s.snapshot? uri).any fun snap => generation == snap.generation

/-!
# Calls

What a task asks of the store, as a value.
-/

inductive Call where
  | put (uri text : String)
  | close (uri : String)
  | clear
  | get (uri : String)
  | snapshot (uri : String)
  | isCurrent (uri : String) (generation : Int)
deriving DecidableEq, Repr

inductive Answer where
  | done
  | generation (n : Nat)
  | text (text : Option String)
  | snapshot (snap : Option Snapshot)
  | current (yes : Bool)
deriving DecidableEq, Repr

def run (s : Store) : Call → Store × Answer
  | .put uri text => let s := s.put uri text; (s, .generation s.issued)
  | .close uri => (s.close uri, .done)
  | .clear => (s.clear, .done)
  | .get uri => (s, .text ((s.snapshot? uri).map Snapshot.text))
  | .snapshot uri => (s, .snapshot (s.snapshot? uri))
  | .isCurrent uri generation => (s, .current (s.isCurrent uri generation))

def log (s : Store) : Call → List Log.Record
  | .put uri text =>
      [⟨.debug, "antlsp.document",
        "DocumentStore: " ++ uri ++ " → generation " ++ toString (s.issued + 1) ++ " (" ++
          toString text.length ++ " chars)"⟩]
  | .close uri =>
      if s.contains uri then []
      else [⟨.debug, "antlsp.document", "DocumentStore: close of unknown document " ++ uri⟩]
  | _ => []

end Store
end TypedAnt
