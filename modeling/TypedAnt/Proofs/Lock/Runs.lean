import TypedAnt.Lock
import TypedAnt.Proofs.Fields

/-!
# Runs of a lock

Tasks are started, told to end and cancelled at any time, and whichever of the ready tasks
may be the one that takes the next turn.  A run is any list of such moves.

What a move does to a lock is said here once.  It starts a task, or tells one something that
it will act on later, or it is the turn of a task.
-/

namespace TypedAnt
namespace Lock

/-!
# Where tasks stand
-/

inductive Place where
  | outside
  | waiting
  | inside
deriving DecidableEq, Repr

def Phase.place : Phase → Place
  | starting _ | ended _ => .outside
  | waiting _ => .waiting
  | inside _ => .inside

def Phase.pending : Phase → Bool
  | starting _ => true
  | waiting signal => signal.isSome
  | inside ending => ending.isSome
  | ended _ => false

def Phase.awaits : Phase → Bool
  | starting cancelled => !cancelled
  | waiting signal => signal != some .cancelled
  | inside _ | ended _ => false

def Task.stands (mode : Mode) (place : Place) (t : Task) : Bool :=
  t.mode == mode && t.phase.place == place

def Stands (l : Lock) (name : String) (mode : Mode) (place : Place) : Prop :=
  ∃ task, l.tasks.get? name = some task ∧ task.mode = mode ∧ task.phase.place = place

def number (l : Lock) (mode : Mode) (place : Place) : Nat :=
  l.tasks.tally (Task.stands mode place)

/-!
# Moves
-/

inductive Move where
  | start (name : String) (mode : Mode) (stays : Bool)
  | finish (name : String) (ending : Ending)
  | cancel (name : String)
  | resume (name : String)
deriving DecidableEq, Repr

def free (l : Lock) (name : String) : Bool :=
  match l.tasks.get? name with
  | none => true
  | some task =>
      match task.phase with
      | .ended _ => true
      | _ => false

def favour (l : Lock) (name : String) : Lock :=
  { l with ready := name :: l.ready.erase name }

def step (l : Lock) : Move → Lock × Option String
  | .start name mode stays => (if l.free name then l.start name mode stays else l, none)
  | .finish name ending => (l.finish name ending, none)
  | .cancel name => (l.cancel name, none)
  | .resume name => if name ∈ l.ready then (l.favour name).turn else (l, none)

def run (l : Lock) (moves : List Move) : Lock :=
  moves.foldl (fun l move => (l.step move).1) l

/-!
# Telling a task something
-/

def put (l : Lock) (name : String) (task : Task) (phase : Phase) : Lock :=
  { l with tasks := l.tasks.set name { task with phase := phase } }

theorem setPhase_eq_put {l : Lock} {name : String} {task : Task}
    (h : l.tasks.get? name = some task) (phase : Phase) :
    l.setPhase name phase = l.put name task phase := by
  unfold setPhase
  rw [h]
  rfl

/-- There is something new to act on for a task, which stays where it is until then. -/
structure Phase.Tells (old new : Phase) : Prop where
  pending : new.pending = true
  place_eq : new.place = old.place
  awaits : new.awaits = true → old.awaits = true

theorem Phase.tells_starting (cancelled : Bool) :
    (Phase.starting cancelled).Tells (.starting true) :=
  ⟨rfl, rfl, by simp [Phase.awaits]⟩

theorem Phase.tells_waiting (signal : Option Signal) :
    (Phase.waiting signal).Tells (.waiting (some .cancelled)) :=
  ⟨rfl, rfl, by simp [Phase.awaits]⟩

theorem Phase.tells_notified : (Phase.waiting none).Tells (.waiting (some .notified)) :=
  ⟨rfl, rfl, id⟩

theorem Phase.tells_inside (told : Option Ending) (ending : Ending) :
    (Phase.inside told).Tells (.inside (some ending)) :=
  ⟨rfl, rfl, id⟩

/-- At most one task is told something, and it is put on the list if it was not due a turn. -/
inductive Told (l : Lock) : Lock → Prop where
  | nothing : Told l l
  | again {name : String} {task : Task} {phase : Phase} :
      l.tasks.get? name = some task → task.phase.pending = true → task.phase.Tells phase →
      Told l (l.put name task phase)
  | woken {name : String} {task : Task} {phase : Phase} :
      l.tasks.get? name = some task → task.phase.Tells phase →
      Told l ((l.put name task phase).makeReady name)

theorem told_setPhase {l : Lock} {name : String} {task : Task} {phase : Phase}
    (htask : l.tasks.get? name = some task) (hpending : task.phase.pending = true)
    (htells : task.phase.Tells phase) : Told l (l.setPhase name phase) := by
  rw [setPhase_eq_put htask]
  exact .again htask hpending htells

theorem told_makeReady {l : Lock} {name : String} {task : Task} {phase : Phase}
    (htask : l.tasks.get? name = some task) (htells : task.phase.Tells phase) :
    Told l ((l.setPhase name phase).makeReady name) := by
  rw [setPhase_eq_put htask]
  exact .woken htask htells

theorem told_finish (l : Lock) (name : String) (ending : Ending) :
    Told l (l.finish name ending) := by
  unfold finish
  cases htask : l.tasks.get? name with
  | none => exact .nothing
  | some task =>
      rw [Option.map_some]
      split
      · rename_i hphase
        exact told_makeReady htask (Option.some.inj hphase ▸ Phase.tells_inside none ending)
      · exact .nothing

theorem told_notify (l : Lock) (name : String) : Told l (l.notify name) := by
  unfold notify
  cases htask : l.tasks.get? name with
  | none => exact .nothing
  | some task =>
      rw [Option.map_some]
      split
      · rename_i hphase
        exact told_makeReady htask (Option.some.inj hphase ▸ Phase.tells_notified)
      · exact .nothing

theorem told_cancel (l : Lock) (name : String) : Told l (l.cancel name) := by
  unfold cancel
  cases htask : l.tasks.get? name with
  | none => exact .nothing
  | some task =>
      rcases task with ⟨mode, stays, phase⟩
      cases phase with
      | starting cancelled => exact told_setPhase htask rfl (Phase.tells_starting cancelled)
      | waiting signal =>
          cases signal with
          | none => exact told_makeReady htask (Phase.tells_waiting none)
          | some signal => exact told_setPhase htask rfl (Phase.tells_waiting (some signal))
      | inside told =>
          cases told with
          | none => exact told_makeReady htask (Phase.tells_inside none .cancelled)
          | some ending =>
              exact told_setPhase htask rfl (Phase.tells_inside (some ending) .cancelled)
      | ended ending => exact .nothing

theorem get?_put (l : Lock) (name : String) (task : Task) (phase : Phase) :
    (l.put name task phase).tasks.get? name = some { task with phase := phase } := by
  unfold put
  rw [Fields.get?_set, if_pos rfl]

theorem get?_put_other {name other : String} (h : other ≠ name) (l : Lock) (task : Task)
    (phase : Phase) : (l.put name task phase).tasks.get? other = l.tasks.get? other := by
  unfold put
  rw [Fields.get?_set, if_neg h]

structure Task.Alike (t t' : Task) : Prop where
  mode_eq : t'.mode = t.mode
  stays_eq : t'.stays = t.stays
  place_eq : t'.phase.place = t.phase.place
  awaits : t'.phase.awaits = true → t.phase.awaits = true

theorem Task.alike_refl (t : Task) : t.Alike t :=
  ⟨rfl, rfl, rfl, id⟩

theorem Task.Alike.trans {t t' t'' : Task} (h : t.Alike t') (h' : t'.Alike t'') : t.Alike t'' :=
  ⟨h'.mode_eq.trans h.mode_eq, h'.stays_eq.trans h.stays_eq, h'.place_eq.trans h.place_eq,
    fun hawaits => h.awaits (h'.awaits hawaits)⟩

def Alike (l l' : Lock) : Prop :=
  ∀ name, Option.Rel Task.Alike (l.tasks.get? name) (l'.tasks.get? name)

theorem alike_of_tasks_eq {l l' : Lock} (h : l'.tasks = l.tasks) : l.Alike l' := by
  intro name
  rw [h]
  cases l.tasks.get? name with
  | none => exact .none
  | some task => exact .some task.alike_refl

theorem Alike.trans {l l' l'' : Lock} (h : l.Alike l') (h' : l'.Alike l'') : l.Alike l'' := by
  intro name
  have hfirst := h name
  have hsecond := h' name
  generalize l.tasks.get? name = first, l'.tasks.get? name = second,
    l''.tasks.get? name = third at hfirst hsecond ⊢
  cases hfirst with
  | none => exact hsecond
  | some hfirst =>
      cases hsecond with
      | some hsecond => exact .some (hfirst.trans hsecond)

theorem alike_put {l : Lock} {name : String} {task : Task} {phase : Phase}
    (htask : l.tasks.get? name = some task) (htells : task.phase.Tells phase) :
    l.Alike (l.put name task phase) := by
  intro other
  by_cases hname : other = name
  · rw [hname, get?_put, htask]
    exact .some ⟨rfl, rfl, htells.place_eq, htells.awaits⟩
  · rw [get?_put_other hname]
    exact alike_of_tasks_eq rfl other

theorem Told.alike {l l' : Lock} (h : Told l l') : l.Alike l' := by
  cases h with
  | nothing => exact alike_of_tasks_eq rfl
  | again htask _ htells => exact alike_put htask htells
  | woken htask htells => exact alike_put htask htells

/-- What holds on whatever tasks are told holds when all sleeping tasks have been woken. -/
theorem notifyAll_induction {P : Lock → Prop} (h : ∀ {l l'}, Told l l' → P l → P l') {l : Lock}
    (hl : P l) : P l.notifyAll := by
  have hfold : ∀ (names : List String) (l : Lock), P l → P (names.foldl notify l) := by
    intro names
    induction names with
    | nil =>
        intro l hl
        exact hl
    | cons name rest ih =>
        intro l hl
        exact ih (l.notify name) (h (told_notify l name) hl)
  exact hfold l.sleepers l hl

theorem alike_notifyAll (l : Lock) : l.Alike l.notifyAll :=
  notifyAll_induction (P := l.Alike) (fun htold h => h.trans htold.alike) (alike_of_tasks_eq rfl)

/-!
# The turn of a task
-/

/-- A task comes to look at the lock, for the first time or after it was woken. -/
inductive Comes (l : Lock) (name : String) (task : Task) : Lock → Prop where
  | first : task.phase = .starting false → Comes l name task (l.announce task.mode)
  | again : task.phase = .waiting (some .notified) → Comes l name task (l.rise name)

def lieDown (l : Lock) (name : String) : Lock :=
  { l with sleepers := l.sleepers ++ [name] }

def vacate (l : Lock) : Mode → Lock
  | .read => { l with readers := l.readers - 1 }
  | .write => { l with writing := false }

theorem leave_eq (l : Lock) (mode : Mode) :
    l.leave mode =
      if mode = .read ∧ (l.vacate mode).readers ≠ 0 then l.vacate mode
      else (l.vacate mode).notifyAll := by
  cases mode with
  | read =>
      by_cases hlast : l.readers - 1 = 0
      · simp [leave, vacate, hlast]
      · simp [leave, vacate, hlast]
  | write => simp [leave, vacate]

def withdraw (l : Lock) : Mode → Lock
  | .read => l
  | .write => { l with writersWaiting := l.writersWaiting - 1 }

theorem giveUp_eq (l : Lock) (mode : Mode) :
    l.giveUp mode = if mode = .read then l.withdraw mode else (l.withdraw mode).notifyAll := by
  cases mode <;> rfl

/-- All that the turn of a task can do, once the task is no longer among those that are ready. -/
inductive Turn (l : Lock) (name : String) (task : Task) : Lock → Bool → Prop where
  | nothing : task.phase.pending = false → Turn l name task l false
  | dropped :
      task.phase = .starting true → Turn l name task (l.put name task (.ended .cancelled)) false
  | sleeps {l₀ : Lock} :
      Comes l name task l₀ → l₀.admits task.mode = false →
      Turn l name task ((l₀.lieDown name).put name task (.waiting none)) false
  | enters {l₀ : Lock} :
      Comes l name task l₀ → l₀.admits task.mode = true → task.stays = true →
      Turn l name task ((l₀.enter task.mode).put name task (.inside none)) true
  | passes {l₀ : Lock} :
      Comes l name task l₀ → l₀.admits task.mode = true → task.stays = false →
      Turn l name task
        (((l₀.enter task.mode).put name task (.ended .finished)).leave task.mode) true
  | givesUp :
      task.phase = .waiting (some .cancelled) →
      Turn l name task
        (((l.rise name).put name task (.ended .cancelled)).giveUp task.mode) false
  | leaves {ending : Ending} :
      task.phase = .inside (some ending) →
      Turn l name task ((l.put name task (.ended ending)).leave task.mode) false

@[simp] theorem announce_tasks (l : Lock) (mode : Mode) : (l.announce mode).tasks = l.tasks := by
  cases mode <;> rfl

@[simp] theorem enter_tasks (l : Lock) (mode : Mode) : (l.enter mode).tasks = l.tasks := by
  cases mode <;> rfl

@[simp] theorem vacate_tasks (l : Lock) (mode : Mode) : (l.vacate mode).tasks = l.tasks := by
  cases mode <;> rfl

@[simp] theorem withdraw_tasks (l : Lock) (mode : Mode) : (l.withdraw mode).tasks = l.tasks := by
  cases mode <;> rfl

theorem Comes.tasks_eq {l l₀ : Lock} {name : String} {task : Task} (h : Comes l name task l₀) :
    l₀.tasks = l.tasks := by
  cases h with
  | first _ => exact announce_tasks l task.mode
  | again _ => rfl

theorem tryEnter_refused {l : Lock} {name : String} {task : Task}
    (htask : l.tasks.get? name = some task) (hadmits : l.admits task.mode = false) :
    l.tryEnter name task = ((l.lieDown name).put name task (.waiting none), false) := by
  have hlie : (l.lieDown name).tasks.get? name = some task := htask
  rw [← setPhase_eq_put hlie]
  unfold tryEnter
  rw [hadmits]
  rfl

theorem tryEnter_admitted {l : Lock} {name : String} {task : Task}
    (htask : l.tasks.get? name = some task) (hadmits : l.admits task.mode = true) :
    l.tryEnter name task =
      if task.stays then ((l.enter task.mode).put name task (.inside none), true)
      else (((l.enter task.mode).put name task (.ended .finished)).leave task.mode, true) := by
  have henter : (l.enter task.mode).tasks.get? name = some task := by
    rw [enter_tasks]
    exact htask
  rw [← setPhase_eq_put henter, ← setPhase_eq_put henter]
  unfold tryEnter
  rw [hadmits]
  rfl

theorem Comes.turn {l l₀ : Lock} {name : String} {task : Task} (h : Comes l name task l₀)
    (htask : l.tasks.get? name = some task) :
    Turn l name task (l₀.tryEnter name task).1 (l₀.tryEnter name task).2 := by
  have hcome : l₀.tasks.get? name = some task := by
    rw [h.tasks_eq]
    exact htask
  cases hadmits : l₀.admits task.mode with
  | false =>
      rw [tryEnter_refused hcome hadmits]
      exact .sleeps h hadmits
  | true =>
      rw [tryEnter_admitted hcome hadmits]
      cases hstays : task.stays with
      | true => exact .enters h hadmits hstays
      | false => exact .passes h hadmits hstays

theorem resume_eq {l : Lock} {name : String} {task : Task}
    (htask : l.tasks.get? name = some task) :
    l.resume name =
      match task.phase with
      | .starting false => (l.announce task.mode).tryEnter name task
      | .starting true => (l.put name task (.ended .cancelled), false)
      | .waiting (some .notified) => (l.rise name).tryEnter name task
      | .waiting (some .cancelled) =>
          (((l.rise name).put name task (.ended .cancelled)).giveUp task.mode, false)
      | .inside (some ending) => ((l.put name task (.ended ending)).leave task.mode, false)
      | _ => (l, false) := by
  have hrise : (l.rise name).tasks.get? name = some task := htask
  unfold resume
  rw [htask]
  rcases task with ⟨mode, stays, phase⟩
  cases phase with
  | starting cancelled =>
      cases cancelled with
      | false => rfl
      | true => exact congrArg (fun l => (l, false)) (setPhase_eq_put htask _)
  | waiting signal =>
      cases signal with
      | none => rfl
      | some signal =>
          cases signal with
          | notified => rfl
          | cancelled =>
              exact congrArg (fun l => (l.giveUp mode, false)) (setPhase_eq_put hrise _)
  | inside told =>
      cases told with
      | none => rfl
      | some ending => exact congrArg (fun l => (l.leave mode, false)) (setPhase_eq_put htask _)
  | ended ending => rfl

theorem turn_resume {l : Lock} {name : String} {task : Task}
    (htask : l.tasks.get? name = some task) :
    Turn l name task (l.resume name).1 (l.resume name).2 := by
  rw [resume_eq htask]
  split <;> rename_i hphase
  · exact (Comes.first hphase).turn htask
  · exact .dropped hphase
  · exact (Comes.again hphase).turn htask
  · exact .givesUp hphase
  · exact .leaves hphase
  · rename_i hfresh hcancelled hnotified hawaits
    refine .nothing ?_
    cases hcase : task.phase with
    | starting cancelled =>
        cases cancelled
        · exact absurd hcase hfresh
        · exact absurd hcase hcancelled
    | waiting signal =>
        cases signal with
        | none => rfl
        | some signal =>
            cases signal
            · exact absurd hcase hnotified
            · exact absurd hcase hawaits
    | inside ending =>
        cases ending with
        | none => rfl
        | some ending => exact absurd hcase (hphase ending)
    | ended ending => rfl

theorem alike_leave (l : Lock) (mode : Mode) : l.Alike (l.leave mode) := by
  rw [leave_eq]
  split
  · exact alike_of_tasks_eq (vacate_tasks l mode)
  · exact (alike_of_tasks_eq (vacate_tasks l mode)).trans (alike_notifyAll _)

theorem alike_giveUp (l : Lock) (mode : Mode) : l.Alike (l.giveUp mode) := by
  rw [giveUp_eq]
  split
  · exact alike_of_tasks_eq (withdraw_tasks l mode)
  · exact (alike_of_tasks_eq (withdraw_tasks l mode)).trans (alike_notifyAll _)

inductive Phase.Comes : Phase → Prop where
  | first : Comes (.starting false)
  | again : Comes (.waiting (some .notified))

inductive Task.Next (t : Task) : Phase → Bool → Prop where
  | nothing : t.phase.pending = false → Next t t.phase false
  | dropped : t.phase = .starting true → Next t (.ended .cancelled) false
  | sleeps : t.phase.Comes → Next t (.waiting none) false
  | enters : t.phase.Comes → t.stays = true → Next t (.inside none) true
  | passes : t.phase.Comes → t.stays = false → Next t (.ended .finished) true
  | givesUp : t.phase = .waiting (some .cancelled) → Next t (.ended .cancelled) false
  | leaves {ending : Ending} : t.phase = .inside (some ending) → Next t (.ended ending) false

theorem Comes.phase {l l₀ : Lock} {name : String} {task : Task} (h : Comes l name task l₀) :
    task.phase.Comes := by
  cases h with
  | first hphase =>
      rw [hphase]
      exact .first
  | again hphase =>
      rw [hphase]
      exact .again

theorem Turn.next {l l' : Lock} {name : String} {task : Task} {entered : Bool}
    (h : Turn l name task l' entered) (htask : l.tasks.get? name = some task) :
    ∃ phase, task.Next phase entered ∧ (l.put name task phase).Alike l' := by
  have hput : ∀ {l₀ : Lock} (phase : Phase), l₀.tasks = l.tasks →
      (l.put name task phase).Alike (l₀.put name task phase) := by
    intro l₀ phase htasks
    apply alike_of_tasks_eq
    unfold put
    rw [htasks]
  cases h with
  | nothing hpending =>
      refine ⟨task.phase, .nothing hpending, alike_of_tasks_eq ?_⟩
      exact (Fields.set_get? htask).symm
  | dropped hphase => exact ⟨_, .dropped hphase, hput _ rfl⟩
  | sleeps hcomes _ => exact ⟨_, .sleeps hcomes.phase, hput _ hcomes.tasks_eq⟩
  | enters hcomes _ hstays =>
      exact ⟨_, .enters hcomes.phase hstays, hput _ ((enter_tasks _ _).trans hcomes.tasks_eq)⟩
  | passes hcomes _ hstays =>
      exact ⟨_, .passes hcomes.phase hstays,
        (hput _ ((enter_tasks _ _).trans hcomes.tasks_eq)).trans (alike_leave _ _)⟩
  | givesUp hphase =>
      have hrise : (l.rise name).tasks = l.tasks := rfl
      exact ⟨_, .givesUp hphase, (hput _ hrise).trans (alike_giveUp _ _)⟩
  | leaves hphase => exact ⟨_, .leaves hphase, alike_leave _ _⟩

/-!
# One move, and many
-/

def callUp (l : Lock) (name : String) : Lock :=
  { l with ready := l.ready.erase name }

/-- All that can come of a turn given to a task. -/
inductive Resumed (l : Lock) (name : String) : Lock → Option String → Prop where
  | nothing : Resumed l name l none
  | skipped : l.tasks.get? name = none → Resumed l name (l.callUp name) none
  | turned {l' : Lock} {task : Task} {entered : Bool} :
      l.tasks.get? name = some task → Turn (l.callUp name) name task l' entered →
      Resumed l name l' (if entered then some name else none)

/-- All that a move can do, with the name of the task that goes inside. -/
inductive Change (l : Lock) : Lock → Option String → Prop where
  | told {l' : Lock} : Told l l' → Change l l' none
  | started {name : String} {mode : Mode} {stays : Bool} :
      l.free name = true → Change l (l.start name mode stays) none
  | resumed {name : String} {l' : Lock} {entered : Option String} :
      Resumed l name l' entered → Change l l' entered

theorem favour_turn (l : Lock) (name : String) :
    (l.favour name).turn =
      (((l.callUp name).resume name).1,
        if ((l.callUp name).resume name).2 then some name else none) := rfl

theorem resumed_step (l : Lock) (name : String) :
    Resumed l name (l.step (.resume name)).1 (l.step (.resume name)).2 := by
  unfold step
  dsimp only
  split
  · rw [favour_turn]
    cases htask : l.tasks.get? name with
    | some task => exact .turned htask (turn_resume htask)
    | none =>
        have hnone : (l.callUp name).tasks.get? name = none := htask
        simp only [resume, hnone]
        exact .skipped htask
  · exact .nothing

theorem change_step (l : Lock) (move : Move) : Change l (l.step move).1 (l.step move).2 := by
  cases move with
  | start name mode stays =>
      unfold step
      dsimp only
      split
      · rename_i hfree
        exact .started hfree
      · exact .told .nothing
  | finish name ending => exact .told (told_finish l name ending)
  | cancel name => exact .told (told_cancel l name)
  | resume name => exact .resumed (resumed_step l name)

theorem run_induction {P : Lock → Prop} (h : ∀ {l l' entered}, Change l l' entered → P l → P l')
    {l : Lock} (hl : P l) (moves : List Move) : P (l.run moves) := by
  induction moves generalizing l with
  | nil => exact hl
  | cons move rest ih => exact ih (h (change_step l move) hl)

end Lock
end TypedAnt
