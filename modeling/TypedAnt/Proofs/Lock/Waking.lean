import TypedAnt.Proofs.Lock.Counters

/-!
# No task sleeps for nothing

A task that has something to act on is among those that are ready, and a task that sleeps
undisturbed is one that the lock does not admit.  For most moves the second is plain, since they
make it no easier to get in.  The others wake all who sleep.
-/

namespace TypedAnt
namespace Lock

variable {l l' l₀ : Lock} {name : String} {task : Task}

/-- The task will have a turn if it is due one, and will be woken with the others if it waits. -/
structure Marked (l : Lock) (name : String) (task : Task) : Prop where
  ready : task.phase.pending = true → name ∈ l.ready
  asleep : task.phase.place = .waiting → name ∈ l.sleepers

def Listed (l : Lock) : Prop :=
  ∀ name task, l.tasks.get? name = some task → l.Marked name task

def ListedBut (l : Lock) (name : String) : Prop :=
  ∀ other task, other ≠ name → l.tasks.get? other = some task → l.Marked other task

/-- Every task that sleeps undisturbed is kept out by the lock. -/
def Kept (l : Lock) : Prop :=
  ∀ name task, l.tasks.get? name = some task → task.phase = .waiting none →
    l.admits task.mode = false

/-!
# The lists of a lock
-/

theorem Marked.congr (h : l.Marked name task) (hready : name ∈ l.ready → name ∈ l'.ready)
    (hsleepers : name ∈ l.sleepers → name ∈ l'.sleepers) : l'.Marked name task :=
  ⟨fun hpending => hready (h.ready hpending), fun hplace => hsleepers (h.asleep hplace)⟩

theorem ListedBut.put {phase : Phase} (h : l.ListedBut name)
    (hname : l.Marked name { task with phase := phase }) : Listed (l.put name task phase) := by
  intro other task' htask
  by_cases hother : other = name
  · rw [hother, get?_put, Option.some.injEq] at htask
    rw [hother, ← htask]
    exact hname.congr id id
  · rw [get?_put_other hother] at htask
    exact (h other task' hother htask).congr id id

theorem ListedBut.congr (h : l.ListedBut name) (htasks : l'.tasks = l.tasks)
    (hready : ∀ other, other ≠ name → other ∈ l.ready → other ∈ l'.ready)
    (hsleepers : ∀ other, other ≠ name → other ∈ l.sleepers → other ∈ l'.sleepers) :
    l'.ListedBut name := by
  intro other task hother htask
  rw [htasks] at htask
  exact (h other task hother htask).congr (hready other hother) (hsleepers other hother)

theorem Listed.but (h : Listed l) (name : String) : l.ListedBut name :=
  fun other task _ htask => h other task htask

theorem Listed.callUp (h : Listed l) (name : String) : (l.callUp name).ListedBut name :=
  (h.but name).congr rfl (fun _ hother => (List.mem_erase_of_ne hother).mpr) (fun _ _ => id)

theorem Listed.makeReady (h : Listed l) (name : String) : (l.makeReady name).ListedBut name :=
  (h.but name).congr rfl (fun _ _ => List.mem_append_left _) (fun _ _ => id)

theorem ListedBut.rise (h : l.ListedBut name) : (l.rise name).ListedBut name :=
  h.congr rfl (fun _ _ => id) (fun _ hother => (List.mem_erase_of_ne hother).mpr)

theorem ListedBut.lieDown (h : l.ListedBut name) : (l.lieDown name).ListedBut name :=
  h.congr rfl (fun _ _ => id) (fun _ _ => List.mem_append_left _)

theorem ListedBut.enter (h : l.ListedBut name) (mode : Mode) : (l.enter mode).ListedBut name := by
  cases mode <;> exact h.congr rfl (fun _ _ => id) (fun _ _ => id)

theorem ListedBut.comes (hcomes : Comes l name task l₀) (h : l.ListedBut name) :
    l₀.ListedBut name := by
  cases hcomes with
  | first _ => cases task.mode <;> exact h.congr rfl (fun _ _ => id) (fun _ _ => id)
  | again _ => exact h.rise

theorem Listed.congr (h : Listed l) (htasks : l'.tasks = l.tasks)
    (hready : ∀ name, name ∈ l.ready → name ∈ l'.ready)
    (hsleepers : l'.sleepers = l.sleepers) : Listed l' := by
  intro name task htask
  rw [htasks] at htask
  refine (h name task htask).congr (hready name) ?_
  rw [hsleepers]
  exact id

theorem Listed.told (htold : Told l l') (h : Listed l) : Listed l' := by
  cases htold with
  | nothing => exact h
  | @again name task phase htask hbefore htells =>
      have hname := h name task htask
      refine (h.but name).put ⟨?_, ?_⟩
      · intro _
        exact hname.ready hbefore
      · intro hwaiting
        exact hname.asleep (htells.place_eq ▸ hwaiting)
  | @woken name task phase htask htells =>
      -- The task is told and put on the list at once; the order is of no matter.
      have hlisted : Listed ((l.makeReady name).put name task phase) := by
        refine (h.makeReady name).put ⟨?_, ?_⟩
        · intro _
          exact List.mem_append_right _ (List.mem_singleton.mpr rfl)
        · intro hwaiting
          exact (h name task htask).asleep (htells.place_eq ▸ hwaiting)
      exact hlisted

theorem Listed.notifyAll (h : Listed l) : Listed l.notifyAll :=
  notifyAll_induction Listed.told h

/-!
# Who is left asleep
-/

theorem asleep_of_notify {woken : String} (h : (l.notify woken).tasks.get? name = some task)
    (hphase : task.phase = .waiting none) : l.tasks.get? name = some task ∧ name ≠ woken := by
  unfold notify at h
  cases hwoken : l.tasks.get? woken with
  | none =>
      rw [hwoken] at h
      refine ⟨h, ?_⟩
      rintro rfl
      cases hwoken.symm.trans h
  | some task' =>
      rw [hwoken, Option.map_some] at h
      split at h
      · rw [setPhase_eq_put hwoken] at h
        change (l.put woken task' (.waiting (some .notified))).tasks.get? name = some task at h
        by_cases hname : name = woken
        · rw [hname, get?_put, Option.some.injEq] at h
          rw [← h] at hphase
          cases hphase
        · rw [get?_put_other hname] at h
          exact ⟨h, hname⟩
      · rename_i hnot
        refine ⟨h, ?_⟩
        rintro rfl
        cases hwoken.symm.trans h
        exact hnot (congrArg some hphase)

theorem asleep_of_notify_all (names : List String)
    (h : (names.foldl notify l).tasks.get? name = some task)
    (hphase : task.phase = .waiting none) : l.tasks.get? name = some task ∧ name ∉ names := by
  induction names generalizing l with
  | nil => exact ⟨h, List.not_mem_nil⟩
  | cons woken rest ih =>
      rcases ih h with ⟨hrest, hmem⟩
      rcases asleep_of_notify hrest hphase with ⟨hbefore, hname⟩
      exact ⟨hbefore, List.not_mem_cons_of_ne_of_not_mem hname hmem⟩

theorem Listed.kept_notifyAll (h : Listed l) : Kept l.notifyAll := by
  intro name task htask hphase
  rcases asleep_of_notify_all l.sleepers htask hphase with ⟨hbefore, hmem⟩
  exact absurd ((h name task hbefore).asleep (by rw [hphase]; rfl)) hmem

/-!
# Moves that wake nobody
-/

theorem Kept.put {phase : Phase} (h : Kept l)
    (hname : phase = .waiting none → l.admits task.mode = false) :
    Kept (l.put name task phase) := by
  intro other task' htask hphase
  by_cases hother : other = name
  · rw [hother, get?_put, Option.some.injEq] at htask
    rw [← htask] at hphase ⊢
    exact hname hphase
  · rw [get?_put_other hother] at htask
    exact h other task' htask hphase

/-- Sleeping tasks that were kept out are kept out where the lock admits no more than before. -/
theorem Kept.congr (h : Kept l) (htasks : l'.tasks = l.tasks)
    (hadmits : ∀ mode, l'.admits mode = true → l.admits mode = true) : Kept l' := by
  intro name task htask hphase
  rw [htasks] at htask
  have hbefore := h name task htask hphase
  cases hcase : l'.admits task.mode with
  | false => rfl
  | true =>
      rw [hadmits task.mode hcase] at hbefore
      cases hbefore

theorem Kept.told (htold : Told l l') (h : Kept l) : Kept l' := by
  have hput : ∀ {name : String} {task : Task} {phase : Phase}, phase.pending = true →
      Kept (l.put name task phase) := by
    intro name task phase hpending
    refine h.put ?_
    rintro rfl
    cases hpending
  cases htold with
  | nothing => exact h
  | again _ _ htells => exact hput htells.pending
  | woken _ htells => exact (hput htells.pending).congr rfl (fun _ => id)

theorem Kept.comes (hcomes : Comes l name task l₀) (h : Kept l) : Kept l₀ :=
  h.congr hcomes.tasks_eq (fun _ => hcomes.admits)

theorem Kept.enter (h : Kept l) (mode : Mode) : Kept (l.enter mode) := by
  refine h.congr (enter_tasks l mode) ?_
  intro other hadmits
  cases mode with
  | read =>
      cases other with
      | read => exact hadmits
      | write => simp [admits, Lock.enter] at hadmits
  | write => cases other <;> simp [admits, Lock.enter] at hadmits

/-!
# Every run keeps its sleepers in view
-/

structure Watched (l : Lock) : Prop where
  listed : Listed l
  kept : Kept l

theorem watched_empty : Watched {} where
  listed := by
    intro name task htask
    cases htask
  kept := by
    intro name task htask
    cases htask

theorem watched_put {phase : Phase} (hothers : l.ListedBut name) (hkept : Kept l)
    (hpending : phase.pending = false) (hplace : phase.place ≠ .waiting) :
    Watched (l.put name task phase) := by
  refine ⟨hothers.put ⟨?_, fun hwaiting => absurd hwaiting hplace⟩, hkept.put ?_⟩
  · intro hdue
    rw [hpending] at hdue
    cases hdue
  · rintro rfl
    exact absurd rfl hplace

theorem Listed.watched_notifyAll (h : Listed l) : Watched l.notifyAll :=
  ⟨h.notifyAll, h.kept_notifyAll⟩

theorem Watched.leave (h : Watched l) (mode : Mode) : Watched (l.leave mode) := by
  have hlisted : Listed (l.vacate mode) := by
    cases mode <;> exact h.listed.congr rfl (fun _ => id) rfl
  rw [leave_eq]
  split
  · rename_i hlast
    rcases hlast with ⟨rfl, hreaders⟩
    refine ⟨hlisted, h.kept.congr rfl ?_⟩
    intro mode hadmits
    cases mode with
    | read => exact hadmits
    | write =>
        simp only [admits, Bool.and_eq_true, beq_iff_eq] at hadmits
        exact absurd hadmits.2 hreaders
  · exact hlisted.watched_notifyAll

theorem Watched.giveUp (h : Watched l) (mode : Mode) : Watched (l.giveUp mode) := by
  cases mode with
  | read => exact h
  | write =>
      have hlisted : Listed (l.withdraw .write) := h.listed.congr rfl (fun _ => id) rfl
      exact hlisted.watched_notifyAll

theorem Watched.turn {entered : Bool} (hturn : Turn (l.callUp name) name task l' entered)
    (h : Watched l) (htask : l.tasks.get? name = some task) : Watched l' := by
  have hothers : (l.callUp name).ListedBut name := h.listed.callUp name
  have hkept : Kept (l.callUp name) := h.kept
  cases hturn with
  | nothing hpending =>
      refine ⟨?_, hkept⟩
      intro other task' htask'
      by_cases hother : other = name
      · rw [hother] at htask' ⊢
        cases htask.symm.trans htask'
        exact ⟨fun hdue => absurd hdue (by simp [hpending]), (h.listed name task htask).asleep⟩
      · exact hothers other task' hother htask'
  | dropped _ => exact watched_put hothers hkept rfl (by simp [Phase.place])
  | @sleeps l₀ hcomes hadmits =>
      have hlooking : Kept l₀ := hkept.comes hcomes
      have hlain : Kept (l₀.lieDown name) := hlooking
      refine ⟨(hothers.comes hcomes).lieDown.put ⟨by simp [Phase.pending], ?_⟩,
        hlain.put (fun _ => hadmits)⟩
      intro _
      exact List.mem_append_right _ (List.mem_singleton.mpr rfl)
  | enters hcomes _ _ =>
      exact watched_put ((hothers.comes hcomes).enter _) ((hkept.comes hcomes).enter _) rfl
        (by simp [Phase.place])
  | passes hcomes _ _ =>
      exact Watched.leave (watched_put ((hothers.comes hcomes).enter _)
        ((hkept.comes hcomes).enter _) rfl (by simp [Phase.place])) _
  | givesUp _ =>
      have hrisen : Kept ((l.callUp name).rise name) := hkept
      exact Watched.giveUp (watched_put hothers.rise hrisen rfl (by simp [Phase.place])) _
  | leaves _ => exact Watched.leave (watched_put hothers hkept rfl (by simp [Phase.place])) _

theorem Watched.started (h : Watched l) (name : String) (mode : Mode) (stays : Bool) :
    Watched (l.start name mode stays) := by
  have hput : Watched ((l.makeReady name).put name ⟨mode, stays, .starting false⟩
      (.starting false)) := by
    refine ⟨(h.listed.makeReady name).put ⟨?_, by simp [Phase.place]⟩, Kept.put h.kept (by simp)⟩
    intro _
    exact List.mem_append_right _ (List.mem_singleton.mpr rfl)
  exact hput

theorem Watched.change {entered : Option String} (hchange : Change l l' entered)
    (h : Watched l) : Watched l' := by
  cases hchange with
  | told htold => exact ⟨h.listed.told htold, h.kept.told htold⟩
  | started _ => exact h.started _ _ _
  | @resumed name _ _ hresumed =>
      cases hresumed with
      | nothing => exact h
      | turned htask hturn => exact h.turn hturn htask
      | skipped hnone =>
          refine ⟨?_, h.kept⟩
          intro other task' htask'
          have hother : other ≠ name := by
            rintro rfl
            cases hnone.symm.trans htask'
          exact h.listed.callUp name other task' hother htask'

theorem watched_run (moves : List Move) : Watched (run {} moves) :=
  run_induction Watched.change watched_empty moves

theorem Watched.not_admits (h : Watched l) (hready : l.ready = []) {mode : Mode}
    (hwaits : l.Stands name mode .waiting) : l.admits mode = false := by
  rcases hwaits with ⟨task, htask, hmode, hplace⟩
  rw [← hmode]
  apply h.kept name task htask
  cases hphase : task.phase with
  | waiting signal =>
      cases signal with
      | none => rfl
      | some signal =>
          have hmem := (h.listed name task htask).ready (by rw [hphase]; rfl)
          rw [hready] at hmem
          cases hmem
  | starting cancelled =>
      rw [hphase] at hplace
      cases hplace
  | inside ending =>
      rw [hphase] at hplace
      cases hplace
  | ended ending =>
      rw [hphase] at hplace
      cases hplace

/--
In every run, when no task is ready: a writer that waits faces a task inside, a reader that waits
faces a writer inside or waiting, and so somebody is inside whenever anybody waits.
-/
theorem settled_waiters_face_holders (moves : List Move) (hready : (run {} moves).ready = []) :
    let l := run {} moves
    (∀ name, l.Stands name .write .waiting → ∃ other mode, l.Stands other mode .inside) ∧
    (∀ name, l.Stands name .read .waiting →
      ∃ other, l.Stands other .write .inside ∨ l.Stands other .write .waiting) ∧
    ∀ name mode, l.Stands name mode .waiting → ∃ other mode', l.Stands other mode' .inside := by
  intro l
  have hcounted : Counted l := counted_run moves
  have hwatched : Watched l := watched_run moves
  have hwriter : ∀ name, l.Stands name .write .waiting →
      ∃ other mode, l.Stands other mode .inside := by
    intro name hwaits
    apply Classical.byContradiction
    intro hnone
    simp only [not_exists] at hnone
    have hadmits := hcounted.admits_write_iff.mpr hnone
    rw [hwatched.not_admits hready hwaits] at hadmits
    cases hadmits
  have hreader : ∀ name, l.Stands name .read .waiting →
      ∃ other, l.Stands other .write .inside ∨ l.Stands other .write .waiting := by
    intro name hwaits
    apply Classical.byContradiction
    intro hnone
    simp only [not_exists, not_or] at hnone
    have hadmits := hcounted.admits_read_iff.mpr hnone
    rw [hwatched.not_admits hready hwaits] at hadmits
    cases hadmits
  refine ⟨hwriter, hreader, ?_⟩
  intro name mode hwaits
  cases mode with
  | write => exact hwriter name hwaits
  | read =>
      rcases hreader name hwaits with ⟨other, hinside | hwaiting⟩
      · exact ⟨other, .write, hinside⟩
      · exact hwriter other hwaiting

theorem settled_waiters_face_holders_after_cancel :
    let moves : List Move :=
      [.start "first" .read true, .resume "first", .start "lost" .write true, .resume "lost",
        .start "reader" .read true, .resume "reader", .start "writer" .write true,
        .resume "writer", .cancel "lost", .resume "lost", .resume "reader", .resume "writer"]
    (run {} moves).ready = [] ∧ (run {} moves).Stands "reader" .read .waiting ∧
      (run {} moves).Stands "writer" .write .waiting ∧
      ∃ other mode, (run {} moves).Stands other mode .inside := by
  intro moves
  have hready : (run {} moves).ready = [] := by decide
  have hreader : (run {} moves).Stands "reader" .read .waiting := ⟨_, rfl, by decide, by decide⟩
  have hwriter : (run {} moves).Stands "writer" .write .waiting := ⟨_, rfl, by decide, by decide⟩
  exact ⟨hready, hreader, hwriter,
    (settled_waiters_face_holders moves hready).2.2 "reader" .read hreader⟩

end Lock
end TypedAnt
