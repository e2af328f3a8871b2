import TypedAnt.Log
import TypedAnt.Text
import TypedAnt.Text.UpperCase
import TypedAnt.Value.Text

/-!
# Settings

Settings come in layers: the defaults, the project file, what the client sends when it
starts, and what it sends later.  A later layer goes before an earlier one.  Within
a layer each setting has two spellings, of which the second goes before the first.
-/

namespace TypedAnt

structure Settings where
  logLevel : Option String := none
  includeBuiltins : Bool := true
deriving DecidableEq, Repr

namespace Settings

def source : String :=
  "antlsp.config"

def trueWords : List String :=
  ["true", "1", "yes", "on"]

def falseWords : List String :=
  ["false", "0", "no", "off"]

/-- A flag, or a word for one; blanks around the word and its case do not matter. -/
def flag? : Value → Option Bool
  | .bool b => some b
  | .text s =>
      let word := String.ofList ((Text.trimBlank s.toList).map Char.toLower)
      if trueWords.contains word then some true
      else if falseWords.contains word then some false
      else none
  | _ => none

structure Layer where
  logLevel : Option String := none
  includeBuiltins : Option Bool := none
deriving DecidableEq, Repr

namespace Layer

def isEmpty (l : Layer) : Bool :=
  l.logLevel.isNone && l.includeBuiltins.isNone

/-- What an entry of a layer says; an entry without a value says nothing. -/
def given? (fields : Fields Value) (key : String) : Option Value :=
  match fields.get? key with
  | some .null => none
  | entry => entry

def logLevelKeys : List String :=
  ["log_level", "logLevel"]

def includeBuiltinsKeys : List String :=
  ["include_builtins", "includeBuiltins"]

def lastEntry {α : Type} (fields : Fields Value) (read : Value → Option α) (keys : List String) :
    Option α :=
  keys.reverse.findSome? fun key => (given? fields key).bind read

/-- The text under the last of the given keys; all entries under them have to have one. -/
def lastText (limit : Nat) (fields : Fields Value) (keys : List String) :
    Except Value.Obstacle (Option String) := do
  let texts ← (keys.filterMap (given? fields)).mapM (Value.written limit Value.asText)
  return texts.getLast?

def misfit? (fields : Fields Value) (key : String) : Option Value :=
  (given? fields key).filter fun value => (flag? value).isNone

/--
Warns about entries that should be flags and are none.  A warning that cannot be made out is
lost, and nothing else comes of that, unless the entry is nested too deeply.
-/
def complain (limit : Nat) (fields : Fields Value) :
    List String → Logged (Except Value.Obstacle Unit)
  | [] => { value := .ok () }
  | key :: keys =>
      match misfit? fields key with
      | none => complain limit fields keys
      | some value =>
          match value.written limit Value.shown with
          | .error .deepNesting => { value := .error .deepNesting }
          | .error .longInt => complain limit fields keys
          | .ok text =>
              let rest := complain limit fields keys
              let words := "ServerSettings: ignoring non-boolean " ++ key ++ "=" ++ text
              ⟨⟨.warning, source, words⟩ :: rest.log, rest.value⟩

def ofValue (limit level : Nat) (v : Value) : Logged (Except Value.Obstacle Layer) :=
  match lastText limit v.members logLevelKeys with
  | .error obstacle => { value := .error obstacle }
  | .ok logLevel =>
      let keys := if level ≤ Log.Level.warning.number then includeBuiltinsKeys else []
      (complain limit v.members keys).andThen fun _ =>
        { value := .ok ⟨logLevel, lastEntry v.members flag? includeBuiltinsKeys⟩ }

end Layer

def apply (s : Settings) (l : Layer) : Settings :=
  ⟨l.logLevel.or s.logLevel, l.includeBuiltins.getD s.includeBuiltins⟩

def merge (limit level : Nat) (s : Settings) (options : Value) :
    Logged (Except Value.Obstacle Settings) :=
  let layer := Layer.ofValue limit level options
  ⟨layer.log, layer.value.map s.apply⟩

def shown (s : Settings) : String :=
  let level := match s.logLevel with
    | some level => Text.quote level
    | none => "None"
  "ServerSettings(log_level=" ++ level ++ ", include_builtins=" ++
    (if s.includeBuiltins then "True" else "False") ++ ")"

/-!
# Levels of the log
-/

def levelNumbers : Fields Nat :=
  [("CRITICAL", 50), ("FATAL", 50), ("ERROR", 40), ("WARNING", 30), ("WARN", 30), ("INFO", 20),
   ("DEBUG", 10), ("NOTSET", 0)]

def applyLevel (current : Nat) : Option String → Logged Nat
  | none => { value := current }
  | some name =>
      if name.isEmpty then { value := current }
      else
        match levelNumbers.get? (Text.upper name) with
        | some level => { value := level }
        | none =>
            { log := [⟨.warning, source, "apply_log_level: unknown level " ++ Text.quote name⟩]
              value := current }

end Settings
end TypedAnt
