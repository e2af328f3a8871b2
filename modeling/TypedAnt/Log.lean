/-!
# Log records

Every part of the server keeps a log.  A record is written when it is at or above the
level in force.
-/

namespace TypedAnt
namespace Log

inductive Level where
  | debug
  | info
  | warning
  | error
deriving DecidableEq, Repr

def Level.name : Level → String
  | debug => "DEBUG"
  | info => "INFO"
  | warning => "WARNING"
  | error => "ERROR"

def Level.number : Level → Nat
  | debug => 10
  | info => 20
  | warning => 30
  | error => 40

structure Record where
  level : Level
  source : String
  message : String
deriving DecidableEq, Repr

def Record.line (r : Record) : String :=
  r.level.name ++ " " ++ r.source ++ ": " ++ r.message

def Record.passes (threshold : Nat) (r : Record) : Bool :=
  threshold ≤ r.level.number

end Log

structure Logged (α : Type) where
  log : List Log.Record := []
  value : α

/-- Goes on with a result; after a failure nothing more is done or written. -/
def Logged.andThen {ε α β : Type} (a : Logged (Except ε α)) (f : α → Logged (Except ε β)) :
    Logged (Except ε β) :=
  match a.value with
  | .error e => ⟨a.log, .error e⟩
  | .ok x => ⟨a.log ++ (f x).log, (f x).value⟩

def Logged.mapError {ε ε' α : Type} (f : ε → ε') (a : Logged (Except ε α)) :
    Logged (Except ε' α) :=
  ⟨a.log, a.value.mapError f⟩

end TypedAnt
