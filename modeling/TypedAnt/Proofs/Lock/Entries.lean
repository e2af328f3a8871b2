import TypedAnt.Proofs.Lock.Runs

/-!
# Who is let in

A move names the task that goes inside in it.  Nobody else comes to be inside, the task is one
that the lock admits, and a task that was cancelled before it was let in never is.
-/

namespace TypedAnt
namespace Lock

variable {l l' l₀ : Lock} {name : String} {task : Task}

/-!
# Where tasks stand after a move
-/

theorem stands_put_iff {other : String} {phase : Phase} {mode : Mode} {place : Place} :
    (l.put name task phase).Stands other mode place ↔
      if other = name then task.mode = mode ∧ phase.place = place
      else l.Stands other mode place := by
  unfold Stands
  by_cases hname : other = name
  · rw [hname, get?_put, if_pos rfl]
    simp
  · rw [get?_put_other hname, if_neg hname]

theorem Alike.stands_iff (h : l.Alike l') {mode : Mode} {place : Place} :
    l'.Stands name mode place ↔ l.Stands name mode place := by
  have hname := h name
  unfold Stands
  generalize l.tasks.get? name = before, l'.tasks.get? name = after at hname ⊢
  cases hname with
  | none => exact Iff.rfl
  | some halike => simp [halike.mode_eq, halike.place_eq]

theorem Alike.get? (h : l.Alike l') (htask : l'.tasks.get? name = some task) :
    ∃ before, l.tasks.get? name = some before ∧ before.Alike task := by
  have hname := h name
  rw [htask] at hname
  generalize l.tasks.get? name = before at hname ⊢
  cases hname with
  | some halike => exact ⟨_, rfl, halike⟩

theorem Resumed.mode_eq {other : String} {entered : Option String}
    (h : Resumed l other l' entered) (htask : l'.tasks.get? name = some task) :
    ∃ before, l.tasks.get? name = some before ∧ task.mode = before.mode := by
  cases h with
  | nothing => exact ⟨task, htask, rfl⟩
  | skipped _ => exact ⟨task, htask, rfl⟩
  | @turned _ turned entered hturned hturn =>
      rcases hturn.next hturned with ⟨phase, -, halike⟩
      rcases halike.get? htask with ⟨before, hbefore, hsame⟩
      by_cases hname : name = other
      · rw [hname, get?_put, Option.some.injEq] at hbefore
        rw [hname]
        refine ⟨turned, hturned, ?_⟩
        rw [hsame.mode_eq, ← hbefore]
      · rw [get?_put_other hname] at hbefore
        exact ⟨before, hbefore, hsame.mode_eq⟩

theorem Task.Next.inside {phase : Phase} {entered : Bool} (h : task.Next phase entered)
    (hinside : phase.place = .inside) : task.phase.place = .inside ∨ entered = true := by
  cases h with
  | nothing _ => exact .inl hinside
  | enters _ _ => exact .inr rfl
  | passes _ _ => exact .inr rfl
  | dropped _ => cases hinside
  | sleeps _ => cases hinside
  | givesUp _ => cases hinside
  | leaves _ => cases hinside

/-- Whoever is inside after a move was inside before, or is the one that the move names. -/
theorem Change.inside {entered : Option String} {mode : Mode} (h : Change l l' entered)
    (hinside : l'.Stands name mode .inside) :
    l.Stands name mode .inside ∨ entered = some name := by
  cases h with
  | told htold => exact .inl (htold.alike.stands_iff.mp hinside)
  | @started other mode' stays _ =>
      have hstands : (l.put other ⟨mode', stays, .starting false⟩ (.starting false)).Stands
          name mode .inside := hinside
      rw [stands_put_iff] at hstands
      split at hstands
      · cases hstands.2
      · exact .inl hstands
  | @resumed other _ _ hresumed =>
      cases hresumed with
      | nothing => exact .inl hinside
      | skipped _ => exact .inl hinside
      | @turned _ task' entered htask hturn =>
          rcases hturn.next htask with ⟨phase, hnext, halike⟩
          have hstands := halike.stands_iff.mp hinside
          rw [stands_put_iff] at hstands
          split at hstands
          · rename_i hname
            rcases hnext.inside hstands.2 with hbefore | hentered
            · exact .inl ⟨task', hname ▸ htask, hstands.1, hbefore⟩
            · rw [hentered, hname]
              exact .inr rfl
          · exact .inl hstands

/-!
# The lock admits whom it lets in
-/

theorem Comes.admits {mode : Mode} (h : Comes l name task l₀) (hadmits : l₀.admits mode = true) :
    l.admits mode = true := by
  cases h with
  | again _ => exact hadmits
  | first _ =>
      cases hmode : task.mode with
      | read =>
          rw [hmode] at hadmits
          exact hadmits
      | write =>
          rw [hmode] at hadmits
          cases mode with
          | read => simp [Lock.admits, announce] at hadmits
          | write => exact hadmits

theorem Turn.admits (h : Turn l name task l' true) : l.admits task.mode = true := by
  cases h with
  | enters hcomes hadmits _ => exact hcomes.admits hadmits
  | passes hcomes hadmits _ => exact hcomes.admits hadmits

theorem Resumed.turn {other : String} (h : Resumed l other l' (some name)) :
    name = other ∧
      ∃ task, l.tasks.get? name = some task ∧ Turn (l.callUp name) name task l' true := by
  generalize hentered : some name = entered at h
  cases h with
  | nothing => cases hentered
  | skipped _ => cases hentered
  | @turned _ task entered htask hturn =>
      cases entered with
      | false => cases hentered
      | true =>
          cases hentered
          exact ⟨rfl, task, htask, hturn⟩

theorem Resumed.admits {other : String} (h : Resumed l other l' (some name)) :
    ∃ task, l.tasks.get? name = some task ∧ l.admits task.mode = true := by
  rcases h.turn with ⟨-, task, htask, hturn⟩
  exact ⟨task, htask, hturn.admits⟩

theorem Change.admits (h : Change l l' (some name)) :
    ∃ task, l.tasks.get? name = some task ∧ l.admits task.mode = true := by
  cases h with
  | resumed hresumed => exact hresumed.admits

/-!
# The order of entries
-/

def entries (l : Lock) : List Move → List String
  | [] => []
  | move :: rest => (l.step move).2.toList ++ entries (l.step move).1 rest

def Move.starts (name : String) : Move → Bool
  | start other _ _ => other == name
  | _ => false

/-- The task of this name may still be let in. -/
def awaits (l : Lock) (name : String) : Bool :=
  (l.tasks.get? name).any fun task => task.phase.awaits

theorem awaits_put (l : Lock) (name : String) (task : Task) (phase : Phase) (other : String) :
    (l.put name task phase).awaits other =
      if other = name then phase.awaits else l.awaits other := by
  unfold awaits
  split
  · rename_i hname
    rw [hname, get?_put, Option.any_some]
  · rename_i hname
    rw [get?_put_other hname]

theorem Alike.awaits (h : l.Alike l') (hawaits : l'.awaits name = true) :
    l.awaits name = true := by
  have hname := h name
  unfold Lock.awaits at hawaits ⊢
  generalize l.tasks.get? name = before, l'.tasks.get? name = after at hname hawaits ⊢
  cases hname with
  | none => exact hawaits
  | some halike => exact halike.awaits hawaits

theorem Phase.Comes.awaits {phase : Phase} (h : phase.Comes) : phase.awaits = true := by
  cases h <;> rfl

theorem Task.Next.awaits {phase : Phase} {entered : Bool} (h : task.Next phase entered) :
    (entered = true → task.phase.awaits = true ∧ phase.awaits = false) ∧
      (phase.awaits = true → task.phase.awaits = true) := by
  cases h with
  | nothing _ => exact ⟨by simp, id⟩
  | sleeps hcomes => exact ⟨by simp, fun _ => hcomes.awaits⟩
  | enters hcomes _ => exact ⟨fun _ => ⟨hcomes.awaits, rfl⟩, by simp [Phase.awaits]⟩
  | passes hcomes _ => exact ⟨fun _ => ⟨hcomes.awaits, rfl⟩, by simp [Phase.awaits]⟩
  | dropped _ => exact ⟨by simp, by simp [Phase.awaits]⟩
  | givesUp _ => exact ⟨by simp, by simp [Phase.awaits]⟩
  | leaves _ => exact ⟨by simp, by simp [Phase.awaits]⟩

theorem awaits_of_get? (h : l.tasks.get? name = some task) :
    l.awaits name = task.phase.awaits := by
  unfold awaits
  rw [h, Option.any_some]

theorem Resumed.awaited {other : String} (h : Resumed l other l' (some name)) :
    l.awaits name = true := by
  rcases h.turn with ⟨-, task, htask, hturn⟩
  rcases hturn.next htask with ⟨phase, hnext, -⟩
  rw [awaits_of_get? htask]
  exact (hnext.awaits.1 rfl).1

/-- Whoever may still be let in after a turn could be before, and was not let in. -/
theorem Resumed.awaits {other : String} {entered : Option String}
    (h : Resumed l other l' entered) (hawaits : l'.awaits name = true) :
    l.awaits name = true ∧ entered ≠ some name := by
  cases h with
  | nothing => exact ⟨hawaits, by simp⟩
  | skipped _ => exact ⟨hawaits, by simp⟩
  | @turned _ task entered htask hturn =>
      rcases hturn.next htask with ⟨phase, hnext, halike⟩
      have hput := halike.awaits hawaits
      rw [awaits_put] at hput
      split at hput
      · rename_i hname
        rw [hname, awaits_of_get? htask]
        refine ⟨hnext.awaits.2 hput, ?_⟩
        intro hentered
        split at hentered
        · rename_i hflag
          rw [(hnext.awaits.1 hflag).2] at hput
          cases hput
        · cases hentered
      · rename_i hname
        refine ⟨hput, ?_⟩
        intro hentered
        split at hentered
        · exact hname (Option.some.inj hentered).symm
        · cases hentered

theorem awaits_start (l : Lock) (name : String) (mode : Mode) (stays : Bool) (other : String) :
    (l.start name mode stays).awaits other = if other = name then true else l.awaits other :=
  awaits_put l name ⟨mode, stays, .starting false⟩ (.starting false) other

theorem awaits_step {move : Move} (hmove : move.starts name = false)
    (h : (l.step move).1.awaits name = true ∨ (l.step move).2 = some name) :
    l.awaits name = true := by
  cases move with
  | start other mode stays =>
      have hother : name ≠ other := by
        rintro rfl
        simp [Move.starts] at hmove
      unfold step at h
      dsimp only at h
      rcases h with hawaits | hentered
      · split at hawaits
        · rw [awaits_start, if_neg hother] at hawaits
          exact hawaits
        · exact hawaits
      · cases hentered
  | finish other ending =>
      rcases h with hawaits | hentered
      · exact (told_finish l other ending).alike.awaits hawaits
      · cases hentered
  | cancel other =>
      rcases h with hawaits | hentered
      · exact (told_cancel l other).alike.awaits hawaits
      · cases hentered
  | resume other =>
      have hresumed := resumed_step l other
      rcases h with hawaits | hentered
      · exact (hresumed.awaits hawaits).1
      · rw [hentered] at hresumed
        exact hresumed.awaited

theorem not_mem_entries (h : l.awaits name = false) {moves : List Move}
    (hmoves : ∀ move ∈ moves, move.starts name = false) : name ∉ l.entries moves := by
  induction moves generalizing l with
  | nil => exact List.not_mem_nil
  | cons move rest ih =>
      rcases List.forall_mem_cons.mp hmoves with ⟨hmove, hrest⟩
      have hstep : ¬ ((l.step move).1.awaits name = true ∨ (l.step move).2 = some name) := by
        intro hstep
        rw [awaits_step hmove hstep] at h
        cases h
      rw [not_or, Bool.not_eq_true] at hstep
      rw [entries, List.mem_append, not_or]
      exact ⟨fun hmem => hstep.2 (Option.mem_toList.mp hmem), ih hstep.1 hrest⟩

theorem awaits_cancel (l : Lock) (name : String) : (l.cancel name).awaits name = false := by
  unfold cancel
  cases htask : l.tasks.get? name with
  | none =>
      rw [Option.map_none]
      unfold awaits
      rw [htask]
      rfl
  | some task =>
      have hset : ∀ phase, (l.setPhase name phase).awaits name = phase.awaits := by
        intro phase
        rw [setPhase_eq_put htask, awaits_put, if_pos rfl]
      rcases task with ⟨mode, stays, phase⟩
      cases phase with
      | starting cancelled => exact hset (.starting true)
      | waiting signal => cases signal <;> exact hset (.waiting (some .cancelled))
      | inside told => cases told <;> exact hset (.inside (some .cancelled))
      | ended ending => exact awaits_of_get? htask

end Lock
end TypedAnt
