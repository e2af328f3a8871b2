import TypedAnt.Store.Shared
import TypedAnt.Proofs.Lock.Counters
import TypedAnt.Proofs.Store.Documents

/-!
# Histories of a shared store

Tasks make calls to the store, hold its lock for a while and are cancelled, in any order.  Each
call that is answered is answered in the turn in which the lock lets its task in, so the store
can be looked at as a plain map to which calls are made in the order in which the lock lets
their tasks in.
-/

namespace TypedAnt
namespace SharedStore

open Store (Call Answer)

inductive Move where
  | hold (name : String) (mode : Lock.Mode)
  | spawn (name : String) (call : Call)
  | release (name : String)
  | cancel (name : String)
  | resume (name : String)
deriving DecidableEq, Repr

def step (s : SharedStore) : Move → SharedStore × List Event
  | .hold name mode => (if s.lock.free name then s.hold name mode else s, [])
  | .spawn name call => (if s.lock.free name then s.spawn name call else s, [])
  | .release name => (s.release name, [])
  | .cancel name => (s.cancel name, [])
  | .resume name =>
      if name ∈ s.lock.ready then { s with lock := s.lock.favour name }.turn else (s, [])

def run (s : SharedStore) (moves : List Move) : SharedStore :=
  moves.foldl (fun s move => (s.step move).1) s

def events (s : SharedStore) : List Move → List Event
  | [] => []
  | move :: rest => (s.step move).2 ++ events (s.step move).1 rest

/-- A call that was carried out when its task was let in, and its answer. -/
structure Grant where
  name : String
  call : Call
  answer : Answer

def grant? (s : SharedStore) : Event → Option Grant
  | .held _ => none
  | .answered name answer => (s.calls.get? name).map fun call => ⟨name, call, answer⟩

def granted (s : SharedStore) (move : Move) : List Grant :=
  (s.step move).2.filterMap s.grant?

def grants (s : SharedStore) : List Move → List Grant
  | [] => []
  | move :: rest => s.granted move ++ grants (s.step move).1 rest

def Event.name : Event → String
  | held name => name
  | answered name _ => name

def Event.answer? : Event → Option (String × Answer)
  | held _ => none
  | answered name answer => some (name, answer)

/-!
# The turn of a task
-/

inductive Resumed (s : SharedStore) (name : String) : SharedStore → List Event → Prop where
  | quiet {lock : Lock} :
      Lock.Resumed s.lock name lock none → Resumed s name { s with lock := lock } []
  | holds {lock : Lock} :
      Lock.Resumed s.lock name lock (some name) → s.calls.get? name = none →
      Resumed s name { s with lock := lock } [.held name]
  | answers {lock : Lock} {call : Call} :
      Lock.Resumed s.lock name lock (some name) → s.calls.get? name = some call →
      Resumed s name { s with lock := lock, store := (s.store.run call).1 }
        [.answered name (s.store.run call).2]

theorem resumed_step (s : SharedStore) (name : String) :
    Resumed s name (s.step (.resume name)).1 (s.step (.resume name)).2 := by
  have hresumed := Lock.resumed_step s.lock name
  unfold step
  unfold Lock.step at hresumed
  dsimp only at hresumed ⊢
  split
  · rename_i hready
    rw [if_pos hready] at hresumed
    unfold turn
    dsimp only
    generalize (s.lock.favour name).turn = result at hresumed ⊢
    rcases result with ⟨lock, _ | other⟩
    · exact .quiet hresumed
    · cases hresumed.turn.1
      unfold act
      dsimp only
      cases hcall : s.calls.get? name with
      | none => exact .holds hresumed hcall
      | some call => exact .answers hresumed hcall
  · exact .quiet .nothing

/-!
# The lock of a shared store
-/

def Move.onLock : Move → Lock.Move
  | hold name mode => .start name mode true
  | spawn name call => .start name (SharedStore.mode call) false
  | release name => .finish name .finished
  | cancel name => .cancel name
  | resume name => .resume name

/-- The lock moves as if there were no store, and what happens is that it lets tasks in. -/
theorem step_onLock (s : SharedStore) (move : Move) :
    (s.step move).1.lock = (s.lock.step move.onLock).1 ∧
      (s.step move).2.map Event.name = (s.lock.step move.onLock).2.toList := by
  cases move with
  | hold name mode =>
      refine ⟨?_, rfl⟩
      simp only [step, Move.onLock, Lock.step]
      split <;> rfl
  | spawn name call =>
      refine ⟨?_, rfl⟩
      simp only [step, Move.onLock, Lock.step]
      split <;> rfl
  | release name => exact ⟨rfl, rfl⟩
  | cancel name => exact ⟨rfl, rfl⟩
  | resume name =>
      simp only [step, Move.onLock, Lock.step]
      split
      · unfold turn
        dsimp only
        generalize (s.lock.favour name).turn = result
        rcases result with ⟨lock, _ | other⟩
        · exact ⟨rfl, rfl⟩
        · unfold act
          dsimp only
          cases s.calls.get? other <;> exact ⟨rfl, rfl⟩
      · exact ⟨rfl, rfl⟩

theorem run_onLock (s : SharedStore) (moves : List Move) :
    (s.run moves).lock = s.lock.run (moves.map Move.onLock) := by
  induction moves generalizing s with
  | nil => rfl
  | cons move rest ih =>
      have hrest := ih (s.step move).1
      rw [(step_onLock s move).1] at hrest
      exact hrest

theorem events_onLock (s : SharedStore) (moves : List Move) :
    (s.events moves).map Event.name = s.lock.entries (moves.map Move.onLock) := by
  induction moves generalizing s with
  | nil => rfl
  | cons move rest ih =>
      rcases step_onLock s move with ⟨hlock, hname⟩
      rw [events, List.map_append, ih, hlock, hname]
      rfl

/-!
# Grants and answers
-/

theorem answers_step (s : SharedStore) (move : Move) :
    (s.step move).2.filterMap Event.answer? =
      (s.granted move).map fun grant => (grant.name, grant.answer) := by
  cases move with
  | resume name =>
      have hresumed := resumed_step s name
      unfold granted
      generalize (s.step (.resume name)).1 = s', (s.step (.resume name)).2 = events at hresumed ⊢
      cases hresumed with
      | quiet _ => rfl
      | holds _ _ => rfl
      | answers _ hcall => simp [Event.answer?, grant?, hcall]
  | _ => rfl

theorem answers_events (s : SharedStore) (moves : List Move) :
    (s.events moves).filterMap Event.answer? =
      (s.grants moves).map fun grant => (grant.name, grant.answer) := by
  induction moves generalizing s with
  | nil => rfl
  | cons move rest ih =>
      rw [events, grants, List.filterMap_append, List.map_append, ih, answers_step]

/-!
# Calls of the tasks that are let in
-/

/-- The calls that tasks are to make after a move; a task that only holds the lock makes none. -/
def Move.assign (l : Lock) (calls : String → Option Call) : Move → String → Option Call
  | hold name _ => fun other => if l.free name ∧ other = name then none else calls other
  | spawn name call => fun other => if l.free name ∧ other = name then some call else calls other
  | _ => calls

/-- The tasks that a lock lets in in a run, each with the call that it was started to make. -/
def visits (l : Lock) (calls : String → Option Call) : List Move → List (String × Option Call)
  | [] => []
  | move :: rest =>
      ((l.step move.onLock).2.map fun name => (name, calls name)).toList ++
        visits (l.step move.onLock).1 (move.assign l calls) rest

theorem calls_step (s : SharedStore) (move : Move) :
    (s.step move).1.calls.get? = move.assign s.lock s.calls.get? := by
  funext other
  cases move with
  | hold name mode =>
      simp only [step, Move.assign]
      split
      · rename_i hfree
        simp only [hfree, true_and]
        exact Fields.get?_erase s.calls name other
      · rename_i hfree
        exact (if_neg fun h => hfree h.1).symm
  | spawn name call =>
      simp only [step, Move.assign]
      split
      · rename_i hfree
        simp only [hfree, true_and]
        exact Fields.get?_set s.calls name call other
      · rename_i hfree
        exact (if_neg fun h => hfree h.1).symm
  | release name => rfl
  | cancel name => rfl
  | resume name =>
      have hresumed := resumed_step s name
      generalize (s.step (.resume name)).1 = s', (s.step (.resume name)).2 = events at hresumed ⊢
      cases hresumed <;> rfl

theorem granted_calls (s : SharedStore) (move : Move) :
    (s.granted move).map (fun grant => (grant.name, grant.call)) =
      ((s.lock.step move.onLock).2.bind fun name =>
        (s.calls.get? name).map (Prod.mk name)).toList := by
  have hentered : (s.lock.step move.onLock).2 = ((s.step move).2.map Event.name).head? := by
    rw [(step_onLock s move).2]
    cases (s.lock.step move.onLock).2 <;> rfl
  rw [hentered]
  cases move with
  | resume name =>
      have hresumed := resumed_step s name
      unfold granted
      generalize (s.step (.resume name)).1 = s', (s.step (.resume name)).2 = events at hresumed ⊢
      cases hresumed with
      | quiet _ => rfl
      | holds _ hcall => simp [grant?, Event.name, hcall]
      | answers _ hcall => simp [grant?, Event.name, hcall]
  | _ => rfl

theorem grants_eq_visits (s : SharedStore) (moves : List Move) :
    (s.grants moves).map (fun grant => (grant.name, grant.call)) =
      (visits s.lock s.calls.get? moves).filterMap fun visit => visit.2.map (Prod.mk visit.1) := by
  induction moves generalizing s with
  | nil => rfl
  | cons move rest ih =>
      rw [grants, visits, List.map_append, List.filterMap_append, ih, granted_calls, calls_step,
        (step_onLock s move).1]
      congr 1
      cases (s.lock.step move.onLock).2 with
      | none => rfl
      | some name => cases hcall : s.calls.get? name <;> simp [hcall]

/-- A move makes the calls to the store that it grants, and no others. -/
theorem store_step (s : SharedStore) (move : Move) :
    Call.runAll Store.run s.store ((s.granted move).map Grant.call) =
      ((s.step move).1.store, (s.granted move).map Grant.answer) := by
  cases move with
  | hold name mode =>
      simp only [granted, step]
      split <;> rfl
  | spawn name call =>
      simp only [granted, step]
      split <;> rfl
  | release name => rfl
  | cancel name => rfl
  | resume name =>
      have hresumed := resumed_step s name
      unfold granted
      generalize (s.step (.resume name)).1 = s', (s.step (.resume name)).2 = events at hresumed ⊢
      cases hresumed with
      | quiet _ => rfl
      | holds _ _ => rfl
      | answers _ hcall =>
          simp only [List.filterMap_cons, List.filterMap_nil, grant?, hcall, Option.map_some]
          rfl

theorem store_run (s : SharedStore) (moves : List Move) :
    Call.runAll Store.run s.store ((s.grants moves).map Grant.call) =
      ((s.run moves).store, (s.grants moves).map Grant.answer) := by
  induction moves generalizing s with
  | nil => rfl
  | cons move rest ih =>
      rw [grants, List.map_append, List.map_append, Call.runAll_append, store_step, ih]
      rfl

end SharedStore
end TypedAnt
