import TypedAnt.Proofs.Store.Histories

/-!
# A shared store is a plain map

Whatever tasks do and whenever they are cancelled, the calls that are answered are answered as by
a plain map to which they are made in the order of their grants.
-/

namespace TypedAnt
namespace SharedStore

open Store (Call Answer)

variable {s s' : SharedStore} {name : String}

/-!
# Every call is granted once
-/

def Move.call? (name : String) : Move → Option Call
  | spawn other call => if other = name then some call else none
  | _ => none

def callsOf (name : String) (grants : List Grant) : List Call :=
  (grants.filter (·.name == name)).map Grant.call

/-- The call that a task has made and that may still be granted. -/
def due (s : SharedStore) (name : String) : Option Call :=
  if s.lock.awaits name then s.calls.get? name else none

theorem due_sublist (hcalls : s'.calls.get? name = s.calls.get? name)
    (hawaits : s'.lock.awaits name = true → s.lock.awaits name = true) :
    (s'.due name).toList.Sublist (s.due name).toList := by
  unfold due
  by_cases h : s'.lock.awaits name = true
  · rw [if_pos h, if_pos (hawaits h), hcalls]
  · rw [if_neg h]
    exact List.nil_sublist _

theorem due_hold (s : SharedStore) (other name : String) (mode : Lock.Mode) :
    ((s.hold other mode).due name).toList.Sublist (s.due name).toList := by
  by_cases hname : name = other
  · have hnone : (s.hold other mode).due name = none := by
      unfold due hold
      rw [Fields.get?_erase, if_pos hname, ite_self]
    rw [hnone]
    exact List.nil_sublist _
  · apply due_sublist
    · unfold hold
      rw [Fields.get?_erase, if_neg hname]
    · intro hawaits
      unfold hold at hawaits
      rw [Lock.awaits_start, if_neg hname] at hawaits
      exact hawaits

theorem due_spawn (s : SharedStore) (other name : String) (call : Call) :
    ((s.spawn other call).due name).toList.Sublist
      ((s.due name).toList ++ ((Move.spawn other call).call? name).toList) := by
  by_cases hname : name = other
  · have hspawn : (s.spawn other call).due name = some call := by
      unfold due spawn
      rw [Lock.awaits_start, if_pos hname, Fields.get?_set, if_pos hname]
      rfl
    have hcall : (Move.spawn other call).call? name = some call := if_pos hname.symm
    rw [hspawn, hcall]
    exact List.sublist_append_right _ _
  · refine List.Sublist.trans (due_sublist ?_ ?_) (List.sublist_append_left _ _)
    · unfold spawn
      rw [Fields.get?_set, if_neg hname]
    · intro hawaits
      unfold spawn at hawaits
      rw [Lock.awaits_start, if_neg hname] at hawaits
      exact hawaits

theorem due_resumed {other : String} {events : List Event} (h : Resumed s other s' events) :
    (callsOf name (events.filterMap s.grant?) ++ (s'.due name).toList).Sublist
      (s.due name).toList := by
  cases h with
  | quiet hresumed => exact due_sublist rfl fun hawaits => (hresumed.awaits hawaits).1
  | holds hresumed _ => exact due_sublist rfl fun hawaits => (hresumed.awaits hawaits).1
  | @answers lock call hresumed hcall =>
      have hgranted : [Event.answered other (s.store.run call).2].filterMap s.grant? =
          [⟨other, call, (s.store.run call).2⟩] := by
        simp [grant?, hcall]
      rw [hgranted]
      by_cases hname : name = other
      · have hbefore : s.due name = some call := by
          unfold due
          rw [hname, if_pos hresumed.awaited, hcall]
        have hawaits : ¬ lock.awaits name = true := by
          intro hawaits
          exact (hresumed.awaits hawaits).2 (congrArg some hname.symm)
        have hafter : due { s with lock := lock, store := (s.store.run call).1 } name = none :=
          if_neg hawaits
        rw [hbefore, hafter]
        simp [callsOf, hname]
      · have hother : callsOf name [⟨other, call, (s.store.run call).2⟩] = [] := by
          simp [callsOf, Ne.symm hname]
        rw [hother, List.nil_append]
        exact due_sublist rfl fun hawaits => (hresumed.awaits hawaits).1

theorem due_step (s : SharedStore) (move : Move) (name : String) :
    (callsOf name (s.granted move) ++ ((s.step move).1.due name).toList).Sublist
      ((s.due name).toList ++ (move.call? name).toList) := by
  have hgrow : (s.due name).toList.Sublist ((s.due name).toList ++ (move.call? name).toList) :=
    List.sublist_append_left _ _
  have htold : ∀ {lock : Lock}, Lock.Told s.lock lock →
      (due { s with lock := lock } name).toList.Sublist (s.due name).toList :=
    fun htold => due_sublist rfl htold.alike.awaits
  cases move with
  | hold other mode =>
      simp only [granted, step]
      split
      · exact (due_hold s other name mode).trans hgrow
      · exact hgrow
  | spawn other call =>
      simp only [granted, step]
      split
      · exact due_spawn s other name call
      · exact hgrow
  | release other => exact (htold (Lock.told_finish s.lock other .finished)).trans hgrow
  | cancel other => exact (htold (Lock.told_cancel s.lock other)).trans hgrow
  | resume other => exact (due_resumed (resumed_step s other)).trans hgrow

theorem callsOf_grants (s : SharedStore) (moves : List Move) (name : String) :
    (callsOf name (s.grants moves)).Sublist
      ((s.due name).toList ++ moves.filterMap (Move.call? name)) := by
  induction moves generalizing s with
  | nil => exact List.nil_sublist _
  | cons move rest ih =>
      have happend : callsOf name (s.grants (move :: rest)) =
          callsOf name (s.granted move) ++ callsOf name ((s.step move).1.grants rest) := by
        simp [callsOf, grants]
      have hcons : (move :: rest).filterMap (Move.call? name) =
          (move.call? name).toList ++ rest.filterMap (Move.call? name) := by
        rw [List.filterMap_cons]
        cases move.call? name <;> rfl
      rw [happend, hcons, ← List.append_assoc]
      have hrest := (ih (s.step move).1).append_left (callsOf name (s.granted move))
      rw [← List.append_assoc] at hrest
      exact hrest.trans ((due_step s move name).append_right _)

/-!
# Calls are made under the lock
-/

/-- Every task that makes a call takes the lock as the call demands. -/
def Agrees (s : SharedStore) : Prop :=
  ∀ name task call, s.lock.tasks.get? name = some task → s.calls.get? name = some call →
    task.mode = mode call

theorem Agrees.of_mode_eq (h : Agrees s) (hcalls : s'.calls = s.calls)
    (hmode : ∀ name task, s'.lock.tasks.get? name = some task →
      ∃ before, s.lock.tasks.get? name = some before ∧ task.mode = before.mode) : Agrees s' := by
  intro name task call htask hcall
  rcases hmode name task htask with ⟨before, hbefore, heq⟩
  rw [heq]
  rw [hcalls] at hcall
  exact h name before call hbefore hcall

theorem Agrees.step (h : Agrees s) (move : Move) : Agrees (s.step move).1 := by
  have htold : ∀ {lock : Lock}, Lock.Told s.lock lock → Agrees { s with lock := lock } := by
    intro lock htold
    refine h.of_mode_eq rfl ?_
    intro name task htask
    rcases htold.alike.get? htask with ⟨before, hbefore, halike⟩
    exact ⟨before, hbefore, halike.mode_eq⟩
  cases move with
  | hold other mode =>
      simp only [SharedStore.step]
      split
      · intro name task call htask hcall
        simp only [hold, Fields.get?_erase] at hcall
        split at hcall
        · cases hcall
        · rename_i hname
          simp only [hold, Lock.start, Lock.makeReady, Fields.get?_set, if_neg hname] at htask
          exact h name task call htask hcall
      · exact h
  | spawn other made =>
      simp only [SharedStore.step]
      split
      · intro name task call htask hcall
        simp only [spawn, Lock.start, Lock.makeReady, Fields.get?_set] at htask hcall
        split at hcall
        · rename_i hname
          rw [if_pos hname] at htask
          cases htask
          cases hcall
          rfl
        · rename_i hname
          rw [if_neg hname] at htask
          exact h name task call htask hcall
      · exact h
  | release other => exact htold (Lock.told_finish s.lock other .finished)
  | cancel other => exact htold (Lock.told_cancel s.lock other)
  | resume other =>
      have hresumed := resumed_step s other
      generalize (s.step (.resume other)).1 = s', (s.step (.resume other)).2 = events at hresumed ⊢
      cases hresumed with
      | quiet hlock => exact h.of_mode_eq rfl fun _ _ => hlock.mode_eq
      | holds hlock _ => exact h.of_mode_eq rfl fun _ _ => hlock.mode_eq
      | answers hlock _ => exact h.of_mode_eq rfl fun _ _ => hlock.mode_eq

theorem agrees_run (moves : List Move) : Agrees (run {} moves) := by
  have hrun : ∀ s, Agrees s → Agrees (s.run moves) := by
    induction moves with
    | nil =>
        intro s h
        exact h
    | cons move rest ih =>
        intro s h
        exact ih _ (h.step move)
  refine hrun {} ?_
  intro name task call htask
  cases htask

theorem admits_of_granted (h : Agrees s) {move : Move} {grant : Grant}
    (hgrant : grant ∈ s.granted move) : s.lock.admits (mode grant.call) = true := by
  cases move with
  | resume other =>
      have hresumed := resumed_step s other
      unfold granted at hgrant
      generalize (s.step (.resume other)).1 = s', (s.step (.resume other)).2 = events
        at hresumed hgrant
      cases hresumed with
      | quiet _ => cases hgrant
      | holds _ _ => cases hgrant
      | @answers lock call hlock hcall =>
          rcases hlock.admits with ⟨task, htask, hadmits⟩
          simp only [List.filterMap_cons, List.filterMap_nil, grant?, hcall, Option.map_some,
            List.mem_singleton] at hgrant
          rw [hgrant]
          dsimp only
          rw [← h other task call htask hcall]
          exact hadmits
  | _ => cases hgrant

/-!
# Cancelled calls
-/

theorem name_mem_entries {moves : List Move} {grant : Grant} (h : grant ∈ s.grants moves) :
    grant.name ∈ s.lock.entries (moves.map Move.onLock) := by
  rw [← events_onLock]
  have hmem : (grant.name, grant.answer) ∈ (s.events moves).filterMap Event.answer? := by
    rw [answers_events]
    exact List.mem_map.mpr ⟨grant, h, rfl⟩
  rcases List.mem_filterMap.mp hmem with ⟨event, hevent, hanswer⟩
  refine List.mem_map.mpr ⟨event, hevent, ?_⟩
  cases event with
  | held name => cases hanswer
  | answered name answer =>
      cases hanswer
      rfl

/-- A call that was cancelled is not granted, as long as its task makes no new one. -/
theorem name_ne_of_cancelled {moves : List Move}
    (hmoves : ∀ move ∈ moves, move.onLock.starts name = false) {grant : Grant}
    (h : grant ∈ (s.cancel name).grants moves) : grant.name ≠ name := by
  rintro rfl
  have hawaits : (s.cancel grant.name).lock.awaits grant.name = false :=
    Lock.awaits_cancel s.lock grant.name
  refine Lock.not_mem_entries hawaits ?_ (name_mem_entries h)
  intro move hmove
  rcases List.mem_map.mp hmove with ⟨move', hmove', rfl⟩
  exact hmoves move' hmove'

/-!
# The order of grants
-/

/--
For every run, with `calls` the calls granted in it, in order:

* the lock moves as if it were alone, what happens happens in the order in which it lets tasks in,
  a task that it lets in to make a call is granted this call, every answer is one to a granted
  call, and the granted calls of a task are calls that it has made, each at most once;
* the answers are those of a plain map to which the calls are made one after the other, and in the
  end the store holds what the map holds;
* a text that is put gets as its generation its number among all puts granted, and a read is
  answered by the last put granted for its document, if it was not closed or cleared since;
* all generations in the store differ and are below the next one;
* a cancelled call that was not granted before is never granted, and a move that grants no call
  leaves the store as it is;
* a call that may change the store is granted while nobody is inside, and any other while no
  writer is inside or waiting.
-/
theorem store_linearizes_in_grant_order (moves : List Move) :
    let s := run {} moves
    let granted := grants {} moves
    let calls := granted.map Grant.call
    (s.lock = Lock.run {} (moves.map Move.onLock) ∧
      (events {} moves).map Event.name = Lock.entries {} (moves.map Move.onLock) ∧
      granted.map (fun grant => (grant.name, grant.call)) =
        (visits {} (fun _ => none) moves).filterMap (fun visit => visit.2.map (Prod.mk visit.1)) ∧
      (events {} moves).filterMap Event.answer? =
        granted.map (fun grant => (grant.name, grant.answer)) ∧
      ∀ name, (callsOf name granted).Sublist (moves.filterMap (Move.call? name))) ∧
    (granted.map Grant.answer = (Call.runAll Documents.run {} calls).2 ∧
      s.store.Shows (Documents.after calls)) ∧
    ((∀ before grant after, granted = before ++ grant :: after →
        grant.call.Answered (before.map Grant.call) grant.answer) ∧
      ∀ uri snap, s.store.snapshot? uri = some snap ↔
        snap.uri = uri ∧ Store.LastPut calls uri snap.text snap.generation) ∧
    ((s.store.documents.map fun field => field.2.generation).Nodup ∧
      ∀ field ∈ s.store.documents, field.2.generation < Store.puts calls + 1) ∧
    ((∀ name more, (∀ move ∈ more, move.onLock.starts name = false) →
        ∀ grant ∈ (s.cancel name).grants more, grant.name ≠ name) ∧
      ∀ move, s.granted move = [] → (s.step move).1.store = s.store) ∧
    ∀ move, ∀ grant ∈ s.granted move,
      (mode grant.call = .write → ∀ other mode, ¬ s.lock.Stands other mode .inside) ∧
      (mode grant.call = .read → ∀ other,
        ¬ s.lock.Stands other .write .inside ∧ ¬ s.lock.Stands other .write .waiting) := by
  intro s granted calls
  have hstore : Call.runAll Store.run {} calls = (s.store, granted.map Grant.answer) :=
    store_run {} moves
  have hshows := Store.shows_empty.runAll calls
  have hlock : s.lock = Lock.run {} (moves.map Move.onLock) := run_onLock {} moves
  rw [hstore] at hshows
  refine ⟨⟨hlock, events_onLock {} moves, grants_eq_visits {} moves, answers_events {} moves,
    callsOf_grants {} moves⟩, ⟨hshows.2, hshows.1⟩, ⟨?_, ?_⟩, ⟨?_, ?_⟩, ⟨?_, ?_⟩, ?_⟩
  · intro before grant after hgranted
    have hanswers := congrArg Prod.snd hstore
    have hcalls : calls = before.map Grant.call ++ grant.call :: after.map Grant.call := by
      simp only [calls, hgranted, List.map_append, List.map_cons]
    rw [hcalls, hgranted, List.map_append, List.map_cons] at hanswers
    exact Store.answered_runAll (by rw [List.length_map, List.length_map]) hanswers
  · intro uri snap
    rw [← Store.snapshot?_runAll_iff, hstore]
  · have hnodup := Store.nodup_generations calls
    rw [hstore] at hnodup
    exact hnodup
  · intro field hfield
    apply Store.generation_lt
    rw [hstore]
    exact hfield
  · intro name more hmore grant hgrant
    exact name_ne_of_cancelled hmore hgrant
  · intro move hnone
    have hstep := store_step s move
    rw [hnone] at hstep
    exact (congrArg Prod.fst hstep).symm
  · intro move grant hgrant
    have hadmits := admits_of_granted (agrees_run moves) hgrant
    have hcounted : Lock.Counted s.lock := hlock ▸ Lock.counted_run _
    constructor
    · intro hmode
      rw [hmode] at hadmits
      exact hcounted.admits_write_iff.mp hadmits
    · intro hmode
      rw [hmode] at hadmits
      exact hcounted.admits_read_iff.mp hadmits

-- While one task holds the lock, three wait with calls, and the second of these is cancelled.
example :
    let moves : List Move :=
      [.hold "holder" .write, .resume "holder", .spawn "first" (.put "a" "x"),
        .spawn "second" (.put "a" "y"), .spawn "third" (.snapshot "a"), .resume "first",
        .resume "second", .resume "third", .cancel "second", .release "holder", .resume "holder",
        .resume "second", .resume "first", .resume "third"]
    (events {} moves).map Event.name = ["holder", "first", "third"] ∧
      (grants {} moves).map (fun grant => (grant.name, grant.answer)) =
        [("first", .generation 1), ("third", .snapshot (some ⟨"a", "x", 1⟩))] := by
  decide +kernel

end SharedStore
end TypedAnt
