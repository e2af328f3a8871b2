import TypedAnt.Proofs.Lock.Entries

/-!
# The counters of a lock

In every run the counters tell how many tasks stand where, a writer is inside alone, and no
reader is let in while a writer waits.
-/

namespace TypedAnt
namespace Lock

variable {l l' l₀ : Lock} {name : String} {task : Task}

structure Counted (l : Lock) : Prop where
  distinct : l.tasks.names.Nodup
  readers_eq : l.readers = l.number .read .inside
  writing_eq : l.writing.toNat = l.number .write .inside
  waiting_eq : l.writersWaiting = l.number .write .waiting
  alone : l.writing = true → l.readers = 0

theorem counted_empty : Counted {} where
  distinct := List.nodup_nil
  readers_eq := rfl
  writing_eq := rfl
  waiting_eq := rfl
  alone := by
    intro h
    cases h

/-!
# Counters move with the tasks
-/

/-- As long as the counters change by what a task changes, they are right. -/
theorem Counted.shift {new : Task} (h : Counted l) (htasks : l'.tasks = l.tasks.set name new)
    (hreaders : l'.readers + ((l.tasks.get? name).any (Task.stands .read .inside)).toNat =
      l.readers + (new.stands .read .inside).toNat)
    (hwriting : l'.writing.toNat + ((l.tasks.get? name).any (Task.stands .write .inside)).toNat =
      l.writing.toNat + (new.stands .write .inside).toNat)
    (hwaiting : l'.writersWaiting +
        ((l.tasks.get? name).any (Task.stands .write .waiting)).toNat =
      l.writersWaiting + (new.stands .write .waiting).toNat)
    (halone : l'.writing = true → l'.readers = 0) : Counted l' := by
  have hnumber : ∀ mode place, l'.number mode place +
      ((l.tasks.get? name).any (Task.stands mode place)).toNat =
        l.number mode place + (new.stands mode place).toNat := by
    intro mode place
    unfold number
    rw [htasks]
    exact Fields.tally_set _ l.tasks name new
  have hdistinct : l'.tasks.names.Nodup := by
    rw [htasks]
    exact Fields.nodup_names_set h.distinct name new
  refine ⟨hdistinct, ?_, ?_, ?_, halone⟩
  · have hinside := hnumber .read .inside
    have hbefore := h.readers_eq
    omega
  · have hinside := hnumber .write .inside
    have hbefore := h.writing_eq
    omega
  · have hwait := hnumber .write .waiting
    have hbefore := h.waiting_eq
    omega

theorem Counted.go {old new : Phase} (h : Counted (l.put name task old))
    (htasks : l'.tasks = l.tasks.set name { task with phase := new })
    (hreaders : l'.readers + ({ task with phase := old }.stands .read .inside).toNat =
      l.readers + ({ task with phase := new }.stands .read .inside).toNat)
    (hwriting : l'.writing.toNat + ({ task with phase := old }.stands .write .inside).toNat =
      l.writing.toNat + ({ task with phase := new }.stands .write .inside).toNat)
    (hwaiting : l'.writersWaiting + ({ task with phase := old }.stands .write .waiting).toNat =
      l.writersWaiting + ({ task with phase := new }.stands .write .waiting).toNat)
    (halone : l'.writing = true → l'.readers = 0) : Counted l' := by
  have hset : l'.tasks = (l.put name task old).tasks.set name { task with phase := new } := by
    rw [htasks]
    exact (Fields.set_set l.tasks name _ _).symm
  apply h.shift hset
  · rw [get?_put]
    exact hreaders
  · rw [get?_put]
    exact hwriting
  · rw [get?_put]
    exact hwaiting
  · exact halone

theorem Counted.stay {old new : Phase} (h : Counted (l.put name task old))
    (hplace : new.place = old.place) : Counted (l.put name task new) := by
  have hstands : ∀ mode place, { task with phase := new }.stands mode place =
      { task with phase := old }.stands mode place := by
    intro mode place
    simp [Task.stands, hplace]
  apply h.go rfl
  · rw [hstands]
    rfl
  · rw [hstands]
    rfl
  · rw [hstands]
    rfl
  · exact h.alone

theorem Counted.again (h : Counted l) (htask : l.tasks.get? name = some task) :
    Counted (l.put name task task.phase) := by
  have hself : l.put name task task.phase = l := by
    unfold put
    rw [Fields.set_get? htask]
  rw [hself]
  exact h

theorem number_pos_iff (h : l.tasks.names.Nodup) {mode : Mode} {place : Place} :
    0 < l.number mode place ↔ ∃ name, l.Stands name mode place := by
  unfold number Stands
  rw [Fields.tally_pos_iff h]
  simp [Task.stands]

theorem Counted.readers_pos (h : Counted l) (hstands : l.Stands name .read .inside) :
    0 < l.readers := by
  rw [h.readers_eq]
  exact (number_pos_iff h.distinct).mpr ⟨name, hstands⟩

theorem Counted.writersWaiting_pos (h : Counted l) (hstands : l.Stands name .write .waiting) :
    0 < l.writersWaiting := by
  rw [h.waiting_eq]
  exact (number_pos_iff h.distinct).mpr ⟨name, hstands⟩

theorem Counted.writing_of_inside (h : Counted l) (hstands : l.Stands name .write .inside) :
    l.writing = true := by
  have hpos := (number_pos_iff h.distinct).mpr ⟨name, hstands⟩
  rw [← h.writing_eq] at hpos
  cases hwriting : l.writing with
  | true => rfl
  | false =>
      rw [hwriting] at hpos
      cases hpos

theorem stands_put (l : Lock) (name : String) (task : Task) (phase : Phase) :
    (l.put name task phase).Stands name task.mode phase.place :=
  stands_put_iff.mpr (by simp)

/-!
# What a turn does to the counters
-/

theorem Counted.announce (h : Counted (l.put name task (.starting false))) :
    Counted ((l.announce task.mode).put name task (.waiting none)) := by
  rcases task with ⟨mode, stays, phase⟩
  cases mode with
  | read => exact h.go rfl rfl rfl rfl h.alone
  | write => exact h.go rfl rfl rfl rfl h.alone

theorem Counted.enter (h : Counted (l.put name task (.waiting none)))
    (hadmits : l.admits task.mode = true) :
    Counted ((l.enter task.mode).put name task (.inside none)) := by
  have hstands := stands_put l name task (.waiting none)
  rcases task with ⟨mode, stays, phase⟩
  cases mode with
  | read =>
      simp only [admits, Bool.and_eq_true, Bool.not_eq_true', beq_iff_eq] at hadmits
      refine h.go rfl rfl rfl rfl ?_
      intro hwriting
      exact absurd hwriting (by simp [put, Lock.enter, hadmits.1])
  | write =>
      simp only [admits, Bool.and_eq_true, Bool.not_eq_true', beq_iff_eq] at hadmits
      have hwaiting : 0 < l.writersWaiting := h.writersWaiting_pos hstands
      refine h.go rfl rfl ?_ (Nat.succ_pred_eq_of_pos hwaiting) (fun _ => hadmits.2)
      rw [hadmits.1]
      rfl

theorem Counted.vacate {ending : Option Ending} {last : Ending}
    (h : Counted (l.put name task (.inside ending))) :
    Counted ((l.put name task (.ended last)).vacate task.mode) := by
  have hstands := stands_put l name task (.inside ending)
  rcases task with ⟨mode, stays, phase⟩
  cases mode with
  | read =>
      have hreaders : 0 < l.readers := h.readers_pos hstands
      refine h.go rfl (Nat.succ_pred_eq_of_pos hreaders) rfl rfl ?_
      intro hwriting
      exact absurd (h.alone hwriting) (Nat.ne_of_gt hreaders)
  | write =>
      have hwriting : l.writing = true := h.writing_of_inside hstands
      refine h.go rfl rfl ?_ rfl (fun hwriting => by cases hwriting)
      rw [hwriting]
      rfl

theorem Counted.withdraw {signal : Option Signal} {last : Ending}
    (h : Counted (l.put name task (.waiting signal))) :
    Counted ((l.put name task (.ended last)).withdraw task.mode) := by
  have hstands := stands_put l name task (.waiting signal)
  rcases task with ⟨mode, stays, phase⟩
  cases mode with
  | read => exact h.go rfl rfl rfl rfl h.alone
  | write =>
      have hwaiting : 0 < l.writersWaiting := h.writersWaiting_pos hstands
      exact h.go rfl rfl rfl (Nat.succ_pred_eq_of_pos hwaiting) h.alone

theorem Counted.started (h : Counted l) (hfree : l.free name = true) (mode : Mode)
    (stays : Bool) : Counted (l.start name mode stays) := by
  -- Neither the task that had the name before nor the new one is counted anywhere.
  have hold : ∀ mode place, place ≠ .outside →
      (l.tasks.get? name).any (Task.stands mode place) = false := by
    intro mode place hplace
    unfold free at hfree
    cases htask : l.tasks.get? name with
    | none => rfl
    | some task =>
        rw [htask] at hfree
        dsimp only at hfree
        split at hfree
        · rename_i hphase
          simp [Task.stands, hphase, Phase.place, Ne.symm hplace]
        · cases hfree
  have hnew : ∀ mode' place, place ≠ .outside →
      (Task.mk mode stays (.starting false)).stands mode' place = false := by
    intro mode' place hplace
    simp [Task.stands, Phase.place, Ne.symm hplace]
  have htasks : (l.start name mode stays).tasks =
      l.tasks.set name ⟨mode, stays, .starting false⟩ := rfl
  refine h.shift htasks ?_ ?_ ?_ h.alone
  · rw [hold _ _ (by decide), hnew _ _ (by decide)]
    rfl
  · rw [hold _ _ (by decide), hnew _ _ (by decide)]
    rfl
  · rw [hold _ _ (by decide), hnew _ _ (by decide)]
    rfl

theorem Counted.told (htold : Told l l') (h : Counted l) : Counted l' := by
  cases htold with
  | nothing => exact h
  | again htask _ htells => exact (h.again htask).stay htells.place_eq
  | woken htask htells =>
      have hput := (h.again htask).stay htells.place_eq
      exact ⟨hput.distinct, hput.readers_eq, hput.writing_eq, hput.waiting_eq, hput.alone⟩

theorem Counted.notifyAll (h : Counted l) : Counted l.notifyAll :=
  notifyAll_induction Counted.told h

theorem Counted.leave {mode : Mode} (h : Counted (l.vacate mode)) : Counted (l.leave mode) := by
  rw [leave_eq]
  split
  · exact h
  · exact h.notifyAll

theorem Counted.giveUp {mode : Mode} (h : Counted (l.withdraw mode)) :
    Counted (l.giveUp mode) := by
  rw [giveUp_eq]
  split
  · exact h
  · exact h.notifyAll

theorem Counted.comes (hcomes : Comes l name task l₀) (h : Counted l)
    (htask : l.tasks.get? name = some task) : Counted (l₀.put name task (.waiting none)) := by
  have hput := h.again htask
  cases hcomes with
  | first hphase =>
      rw [hphase] at hput
      exact hput.announce
  | again hphase =>
      rw [hphase] at hput
      exact hput.go rfl rfl rfl rfl h.alone

theorem Counted.turn {entered : Bool} (hturn : Turn l name task l' entered) (h : Counted l)
    (htask : l.tasks.get? name = some task) : Counted l' := by
  cases hturn with
  | nothing _ => exact h
  | dropped hphase =>
      have hput := h.again htask
      rw [hphase] at hput
      exact hput.stay rfl
  | sleeps hcomes _ =>
      have hput := h.comes hcomes htask
      exact ⟨hput.distinct, hput.readers_eq, hput.writing_eq, hput.waiting_eq, hput.alone⟩
  | enters hcomes hadmits _ => exact (h.comes hcomes htask).enter hadmits
  | passes hcomes hadmits _ => exact ((h.comes hcomes htask).enter hadmits).vacate.leave
  | givesUp hphase =>
      have hrise : Counted (l.rise name) :=
        ⟨h.distinct, h.readers_eq, h.writing_eq, h.waiting_eq, h.alone⟩
      have hput := hrise.again htask
      rw [hphase] at hput
      exact hput.withdraw.giveUp
  | leaves hphase =>
      have hput := h.again htask
      rw [hphase] at hput
      exact hput.vacate.leave

theorem Counted.change {entered : Option String} (hchange : Change l l' entered)
    (h : Counted l) : Counted l' := by
  cases hchange with
  | told htold => exact h.told htold
  | started hfree => exact h.started hfree _ _
  | @resumed name _ _ hresumed =>
      have hcalled : Counted (l.callUp name) :=
        ⟨h.distinct, h.readers_eq, h.writing_eq, h.waiting_eq, h.alone⟩
      cases hresumed with
      | nothing => exact h
      | skipped _ => exact hcalled
      | turned htask hturn => exact hcalled.turn hturn htask

theorem counted_run (moves : List Move) : Counted (run {} moves) :=
  run_induction Counted.change counted_empty moves

/-!
# Who keeps whom out
-/

theorem Counted.number_eq_zero_iff (h : Counted l) {mode : Mode} {place : Place} :
    l.number mode place = 0 ↔ ∀ name, ¬ l.Stands name mode place := by
  rw [← not_exists, ← number_pos_iff h.distinct, Nat.not_lt, Nat.le_zero]

theorem Counted.not_writing_iff (h : Counted l) :
    l.writing = false ↔ ∀ name, ¬ l.Stands name .write .inside := by
  rw [← h.number_eq_zero_iff, ← h.writing_eq]
  cases l.writing <;> decide

theorem Counted.admits_read_iff (h : Counted l) :
    l.admits .read = true ↔
      ∀ name, ¬ l.Stands name .write .inside ∧ ¬ l.Stands name .write .waiting := by
  have hwaiting : l.writersWaiting = 0 ↔ ∀ name, ¬ l.Stands name .write .waiting := by
    rw [h.waiting_eq]
    exact h.number_eq_zero_iff
  simp only [admits, Bool.and_eq_true, Bool.not_eq_true', beq_iff_eq]
  rw [h.not_writing_iff, hwaiting, forall_and]

theorem Counted.admits_write_iff (h : Counted l) :
    l.admits .write = true ↔ ∀ name mode, ¬ l.Stands name mode .inside := by
  have hreaders : l.readers = 0 ↔ ∀ name, ¬ l.Stands name .read .inside := by
    rw [h.readers_eq]
    exact h.number_eq_zero_iff
  simp only [admits, Bool.and_eq_true, Bool.not_eq_true', beq_iff_eq]
  rw [h.not_writing_iff, hreaders]
  constructor
  · intro hnone name mode
    cases mode with
    | read => exact hnone.2 name
    | write => exact hnone.1 name
  · intro hnone
    exact ⟨fun name => hnone name .write, fun name => hnone name .read⟩

theorem Counted.writer_alone (h : Counted l) {writer other : String} {mode : Mode}
    (hwriter : l.Stands writer .write .inside) (hother : l.Stands other mode .inside) :
    other = writer := by
  have hwriting := h.writing_of_inside hwriter
  cases mode with
  | read => exact absurd (h.alone hwriting) (Nat.ne_of_gt (h.readers_pos hother))
  | write =>
      rcases hwriter with ⟨task, htask, hmode, hplace⟩
      rcases hother with ⟨task', htask', hmode', hplace'⟩
      have hone : l.number .write .inside ≤ 1 := by
        rw [← h.writing_eq]
        exact Bool.toNat_le l.writing
      exact Fields.eq_of_tally_le_one h.distinct hone htask htask'
        (by simp [Task.stands, hmode, hplace]) (by simp [Task.stands, hmode', hplace'])

/--
In every run, between any two moves: the counters tell how many tasks are inside to read, whether
one is inside to write and how many wait to write; a task inside to write is inside alone; a
counter that a task will take one from is not zero.  A task that a move lets in to read finds no
writer inside or waiting, one that it lets in to write finds nobody inside, and nobody else comes
to be inside.
-/
theorem counters_tell_places (moves : List Move) :
    let l := run {} moves
    l.tasks.names.Nodup ∧
    l.readers = l.number .read .inside ∧
    (l.writing = true ↔ l.number .write .inside = 1) ∧
    (l.writing = false ↔ l.number .write .inside = 0) ∧
    l.writersWaiting = l.number .write .waiting ∧
    (∀ writer other mode, l.Stands writer .write .inside → l.Stands other mode .inside →
      other = writer) ∧
    (∀ name, l.Stands name .read .inside → 0 < l.readers) ∧
    (∀ name, l.Stands name .write .waiting → 0 < l.writersWaiting) ∧
    ∀ move,
      (∀ name, (l.step move).2 = some name → ∃ task, l.tasks.get? name = some task ∧
        (task.mode = .read → ∀ other,
          ¬ l.Stands other .write .inside ∧ ¬ l.Stands other .write .waiting) ∧
        (task.mode = .write → ∀ other mode, ¬ l.Stands other mode .inside)) ∧
      ∀ name mode, (l.step move).1.Stands name mode .inside → ¬ l.Stands name mode .inside →
        (l.step move).2 = some name := by
  intro l
  have h : Counted l := counted_run moves
  have hwriting := h.writing_eq
  refine ⟨h.distinct, h.readers_eq, ?_, ?_, h.waiting_eq, fun _ _ _ => h.writer_alone,
    fun _ => h.readers_pos, fun _ => h.writersWaiting_pos, ?_⟩
  · rw [← hwriting]
    cases l.writing <;> decide
  · rw [← hwriting]
    cases l.writing <;> decide
  · intro move
    have hchange := change_step l move
    constructor
    · intro name hentered
      rw [hentered] at hchange
      rcases hchange.admits with ⟨task, htask, hadmits⟩
      refine ⟨task, htask, ?_, ?_⟩
      · intro hmode
        rw [hmode] at hadmits
        exact h.admits_read_iff.mp hadmits
      · intro hmode
        rw [hmode] at hadmits
        exact h.admits_write_iff.mp hadmits
    · intro name mode hinside hbefore
      exact (hchange.inside hinside).resolve_left hbefore

end Lock
end TypedAnt
