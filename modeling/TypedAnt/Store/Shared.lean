import TypedAnt.Lock
import TypedAnt.Store

/-!
# A store shared by tasks

Tasks call the store under its lock: calls that change it as writers, the others as
readers.  A call is carried out in the turn in which its task is let in.  Besides
there are tasks that only hold the lock.
-/

namespace TypedAnt

structure SharedStore where
  store : Store := {}
  lock : Lock := {}
  /-- The calls of the tasks that make one. -/
  calls : Fields Store.Call := []

namespace SharedStore

/-- The lock is taken to write exactly where the store may change. -/
def mode : Store.Call → Lock.Mode
  | .put _ _ | .close _ | .clear => .write
  | .get _ | .snapshot _ | .isCurrent _ _ => .read

inductive Event where
  | held (name : String)
  | answered (name : String) (answer : Store.Answer)

def hold (s : SharedStore) (name : String) (mode : Lock.Mode) : SharedStore :=
  { s with lock := s.lock.start name mode true, calls := s.calls.erase name }

def spawn (s : SharedStore) (name : String) (call : Store.Call) : SharedStore :=
  { s with lock := s.lock.start name (mode call) false, calls := s.calls.set name call }

def release (s : SharedStore) (name : String) : SharedStore :=
  { s with lock := s.lock.finish name .finished }

def cancel (s : SharedStore) (name : String) : SharedStore :=
  { s with lock := s.lock.cancel name }

def act (s : SharedStore) (name : String) : SharedStore × Event :=
  match s.calls.get? name with
  | none => (s, .held name)
  | some call =>
      let (store, answer) := s.store.run call
      ({ s with store := store }, .answered name answer)

def turn (s : SharedStore) : SharedStore × List Event :=
  match s.lock.turn with
  | (lock, none) => ({ s with lock := lock }, [])
  | (lock, some name) =>
      let (s, event) := { s with lock := lock }.act name
      (s, [event])

def turns : (rounds : Nat) → SharedStore → SharedStore × List Event
  | 0, s => (s, [])
  | rounds + 1, s =>
      if s.lock.ready.isEmpty then (s, [])
      else
        let (s, events) := s.turn
        let (s, more) := turns rounds s
        (s, events ++ more)

def settle (s : SharedStore) : SharedStore × List Event :=
  turns s.lock.roundBound s

end SharedStore
end TypedAnt
