import TypedAnt.Fields

/-!
# Readers and writers

A lock that any number of readers or one writer may hold.  While a writer is waiting,
readers that arrive later wait as well.

Tasks take turns on an event loop: a task runs until it has to wait, and then another
task that is ready runs.  It looks at the lock, and goes inside or to sleep, in one
turn, so the counters below are only ever seen between turns.  A task that is woken
looks again, and may have to go back to sleep behind the others.
-/

namespace TypedAnt
namespace Lock

inductive Mode where
  | read
  | write
deriving DecidableEq, Repr

inductive Ending where
  | finished
  | failed
  | cancelled
deriving DecidableEq, Repr

inductive Signal where
  | notified
  | cancelled
deriving DecidableEq, Repr

/--
Where a task stands.  A sleeping task that has been sent a signal, and a task inside
that has been told to end, act on it in their next turn.
-/
inductive Phase where
  | starting (cancelled : Bool)
  | waiting (signal : Option Signal)
  | inside (ending : Option Ending)
  | ended (ending : Ending)
deriving DecidableEq, Repr

structure Task where
  mode : Mode
  /-- Whether the task stays inside until it is told to end, or does its work and leaves at once. -/
  stays : Bool
  phase : Phase
deriving DecidableEq, Repr

end Lock

structure Lock where
  readers : Nat := 0
  writing : Bool := false
  writersWaiting : Nat := 0
  /-- The sleeping tasks, in the order in which they fell asleep. -/
  sleepers : List String := []
  /-- The tasks that are ready for a turn, the next one first. -/
  ready : List String := []
  /-- All tasks, in the order in which they were started. -/
  tasks : Fields Lock.Task := []
deriving DecidableEq, Repr

namespace Lock

def setPhase (l : Lock) (name : String) (phase : Phase) : Lock :=
  match l.tasks.get? name with
  | some task => { l with tasks := l.tasks.set name { task with phase := phase } }
  | none => l

def makeReady (l : Lock) (name : String) : Lock :=
  { l with ready := l.ready ++ [name] }

/-!
# What happens outside the turns of a task
-/

def start (l : Lock) (name : String) (mode : Mode) (stays : Bool) : Lock :=
  { l with tasks := l.tasks.set name ⟨mode, stays, .starting false⟩ }.makeReady name

def finish (l : Lock) (name : String) (ending : Ending) : Lock :=
  match (l.tasks.get? name).map Task.phase with
  | some (.inside none) => (l.setPhase name (.inside (some ending))).makeReady name
  | _ => l

/-- Cancels a task, wherever it stands; this goes before anything else it was told. -/
def cancel (l : Lock) (name : String) : Lock :=
  match (l.tasks.get? name).map Task.phase with
  | some (.starting _) => l.setPhase name (.starting true)
  | some (.waiting none) => (l.setPhase name (.waiting (some .cancelled))).makeReady name
  | some (.waiting (some _)) => l.setPhase name (.waiting (some .cancelled))
  | some (.inside none) => (l.setPhase name (.inside (some .cancelled))).makeReady name
  | some (.inside (some _)) => l.setPhase name (.inside (some .cancelled))
  | _ => l

/-!
# The turns of a task
-/

def notify (l : Lock) (name : String) : Lock :=
  match (l.tasks.get? name).map Task.phase with
  | some (.waiting none) => (l.setPhase name (.waiting (some .notified))).makeReady name
  | _ => l

def notifyAll (l : Lock) : Lock :=
  l.sleepers.foldl notify l

def admits (l : Lock) : Mode → Bool
  | .read => !l.writing && l.writersWaiting == 0
  | .write => !l.writing && l.readers == 0

def announce (l : Lock) : Mode → Lock
  | .read => l
  | .write => { l with writersWaiting := l.writersWaiting + 1 }

def enter (l : Lock) : Mode → Lock
  | .read => { l with readers := l.readers + 1 }
  | .write => { l with writersWaiting := l.writersWaiting - 1, writing := true }

/-- The last reader to leave and every writer that leaves wake all who sleep. -/
def leave (l : Lock) : Mode → Lock
  | .read =>
      let l := { l with readers := l.readers - 1 }
      if l.readers = 0 then l.notifyAll else l
  | .write => { l with writing := false }.notifyAll

/-- A writer that gives up waiting wakes all who sleep, since it may have kept readers out. -/
def giveUp (l : Lock) : Mode → Lock
  | .read => l
  | .write => { l with writersWaiting := l.writersWaiting - 1 }.notifyAll

/-- A task looks at the lock and goes inside or to sleep; the flag says whether it went inside. -/
def tryEnter (l : Lock) (name : String) (task : Task) : Lock × Bool :=
  if l.admits task.mode then
    let l := l.enter task.mode
    if task.stays then (l.setPhase name (.inside none), true)
    else ((l.setPhase name (.ended .finished)).leave task.mode, true)
  else
    ({ l with sleepers := l.sleepers ++ [name] }.setPhase name (.waiting none), false)

def rise (l : Lock) (name : String) : Lock :=
  { l with sleepers := l.sleepers.erase name }

def resume (l : Lock) (name : String) : Lock × Bool :=
  match l.tasks.get? name with
  | none => (l, false)
  | some task =>
      match task.phase with
      | .starting false => (l.announce task.mode).tryEnter name task
      | .starting true => (l.setPhase name (.ended .cancelled), false)
      | .waiting (some .notified) => (l.rise name).tryEnter name task
      | .waiting (some .cancelled) =>
          (((l.rise name).setPhase name (.ended .cancelled)).giveUp task.mode, false)
      | .inside (some ending) => ((l.setPhase name (.ended ending)).leave task.mode, false)
      | _ => (l, false)

def turn (l : Lock) : Lock × Option String :=
  match l.ready with
  | [] => (l, none)
  | name :: rest =>
      let (l, entered) := { l with ready := rest }.resume name
      (l, if entered then some name else none)

def turns : (rounds : Nat) → Lock → Lock × List String
  | 0, l => (l, [])
  | rounds + 1, l =>
      if l.ready.isEmpty then (l, [])
      else
        let (l, entered) := l.turn
        let (l, more) := turns rounds l
        (l, entered.toList ++ more)

/--
More turns than there can be before everything rests: every task that is ready takes
one, and a task whose work ends, as it can only once, wakes at most all tasks.
-/
def roundBound (l : Lock) : Nat :=
  (l.tasks.length + 1) * (l.tasks.length + 1)

def settle (l : Lock) : Lock × List String :=
  turns l.roundBound l

end Lock
end TypedAnt
