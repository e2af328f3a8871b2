import TypedAnt.Session
import TypedAnt.Proofs.Store

/-!
# Many requests at once

Every request is handled by a task of its own, and tasks take turns.  A task lets others
run before each of its accesses to the store, where it may have to wait for the lock,
and while its job is worked off elsewhere.  Between two such places it runs without
interruption.

Nothing is assumed about who is let run next, about how long a lock is kept from a
task, or about the order in which jobs are finished: a run is any list of moves.
-/

namespace TypedAnt

/-!
# Tasks
-/

namespace Session

def Request.text? : Request → Option (String × String)
  | openDocument uri text => some (uri, text)
  | change uri texts => texts.getLast?.map fun text => (uri, text)
  | _ => none

def Request.change? (r : Request) : Option Store.Call :=
  match r with
  | close uri => some (.close uri)
  | shutdown => some .clear
  | _ => r.text?.map fun (uri, text) => .put uri text

def Request.keepsUnits : Request → Bool
  | connect _ _ _ => false
  | _ => true

inductive Stage where
  /-- It has not yet come to the store. -/
  | arrived (request : Request)
  /-- It has put a text into the store and is about to read it back. -/
  | stored (uri : String)
  /-- Its job is worked off, or is done and the outcome waits to be dealt with. -/
  | working (job : Job)

/-- Runs a task until it lets others run again: what it shows, and where it stands then. -/
def advance (files : FileTree) (limit : Nat) (s : Session) :
    Stage → Session × Effects × Option Stage
  | .arrived r =>
      match r.text? with
      | some (uri, text) =>
          let (s, log) := s.call (.put uri text)
          (s, { log := log }, some (.stored uri))
      | none =>
          let (s, effects, job) := s.start files limit r
          (s, effects, job.map .working)
  | .stored uri =>
      let (s, effects, job) := s.start files limit (.analyze uri)
      (s, effects, job.map .working)
  | .working job => (s, s.finish limit job, none)

/-- The first part of a request is what its task does if no other task comes in between. -/
theorem start_eq_advance (files : FileTree) (limit : Nat) (s : Session) (r : Request) :
    s.start files limit r =
      match s.advance files limit (.arrived r) with
      | (s, effects, some (.working job)) => (s, effects, some job)
      | (s, effects, none) => (s, effects, none)
      | (s, effects, some stage) =>
          match s.advance files limit stage with
          | (s, more, some (.working job)) => (s, { effects with log := effects.log ++ more.log }, job)
          | (s, more, _) => (s, { effects with log := effects.log ++ more.log }, none) := by
  cases htext : r.text? with
  | none =>
      rcases hstart : s.start files limit r with ⟨s', effects, job⟩
      cases job with
      | none => simp [advance, htext, hstart]
      | some job => simp [advance, htext, hstart]
  | some stored =>
      rcases stored with ⟨uri, text⟩
      have hput : s.start files limit r = s.put uri text := by
        cases r with
        | openDocument u t =>
            simp only [Request.text?, Option.some.injEq, Prod.mk.injEq] at htext
            rw [start, htext.1, htext.2]
        | change u texts =>
            cases hlast : texts.getLast? with
            | none => simp [Request.text?, hlast] at htext
            | some t =>
                simp only [Request.text?, hlast, Option.map_some, Option.some.injEq,
                  Prod.mk.injEq] at htext
                rw [start, hlast, htext.1, htext.2]
        | _ => simp [Request.text?] at htext
      rw [hput]
      cases hsnap : ((s.call (.put uri text)).1).analysisOf uri with
      | none => simp [advance, htext, put, start, hsnap]
      | some job => simp [advance, htext, put, start, hsnap]

end Session

/-!
# Runs
-/

def Store.Call.edits (uri : String) : Store.Call → Bool
  | put u _ => u == uri
  | close u => u == uri
  | _ => false

/-- A session with the tasks in it; a task that has ended has no stage any more. -/
structure Server where
  session : Session
  tasks : List (Option Session.Stage) := []
  /-- The changes of the store so far, the last one first. -/
  changes : List Store.Call := []
  /-- The lists of diagnostics sent so far, the last one first. -/
  published : List (String × List Diagnostic) := []

namespace Server

open Session

inductive Move where
  | arrive (request : Request)
  | resume (task : Nat)
  | cancel (task : Nat)

def fresh (s : Session) : Server :=
  { session := { s with store := {} } }

def changeOf : Stage → Option Store.Call
  | .arrived r => r.change?
  | _ => none

/-- A cancelled task never runs again, wherever it stands. -/
def step (files : FileTree) (limit : Nat) (v : Server) : Move → Server
  | .arrive r => { v with tasks := v.tasks ++ [some (.arrived r)] }
  | .cancel i => { v with tasks := v.tasks.set i none }
  | .resume i =>
      match v.tasks[i]? with
      | some (some stage) =>
          let (s, effects, next) := v.session.advance files limit stage
          { session := s
            tasks := v.tasks.set i next
            changes := (changeOf stage).toList ++ v.changes
            published := effects.published.reverse ++ v.published }
      | _ => v

def run (files : FileTree) (limit : Nat) (v : Server) (moves : List Move) : Server :=
  moves.foldl (step files limit) v

def At (v : Server) (i : Nat) (stage : Stage) : Prop :=
  v.tasks[i]? = some (some stage)

def Finished (v : Server) : Prop :=
  ∀ i stage, ¬ v.At i stage

def lastChange (v : Server) (uri : String) : Option Store.Call :=
  v.changes.find? (Store.Call.touches uri)

def lastEdit (v : Server) (uri : String) : Option Store.Call :=
  v.changes.find? (Store.Call.edits uri)

def lastPublished (v : Server) (uri : String) : Option (List Diagnostic) :=
  (v.published.find? (·.1 == uri)).map Prod.snd

end Server
end TypedAnt
