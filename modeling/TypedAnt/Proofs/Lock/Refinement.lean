import TypedAnt.Proofs.Lock.FairQueue
import TypedAnt.Proofs.Lock.Settling

/-!
# The lock is fair

The sleepers of a lock form one line and are all woken at once.  Where the lock comes to rest
after every request, it lets the same tasks in, and in the same order, as a lock with one queue
for its writers and one for its readers.
-/

namespace TypedAnt
namespace Lock

open FairLock (ofLines ofMode)

variable {l l' : Lock} {name : String} {mode : Mode} {task : Task} {phase : Phase}
  {inside woken queue : Fields Mode}

/-!
# Requests
-/

/-- What a request sets going; the task that it starts stays inside until it is told to end. -/
def Request.move : Request → Move
  | read name => .start name .read true
  | write name => .start name .write true
  | release name => .finish name .finished
  | fail name => .finish name .failed
  | cancel name => .cancel name

def serve (l : Lock) (request : Request) : Lock × List String :=
  (l.step request.move).1.settle

def serveAll {σ : Type} (serve : σ → Request → σ × List String) (s : σ) :
    List Request → σ × List (List String)
  | [] => (s, [])
  | request :: rest =>
      let (s, entered) := serve s request
      let (s, more) := serveAll serve s rest
      (s, entered :: more)

/-!
# What every run keeps
-/

structure Sound (l : Lock) : Prop where
  counted : Counted l
  watched : Watched l

theorem Sound.change {entered : Option String} (hchange : Change l l' entered) (h : Sound l) :
    Sound l' :=
  ⟨h.counted.change hchange, h.watched.change hchange⟩

theorem Sound.turns (h : Sound l) (rounds : Nat) : Sound (turns rounds l).1 := by
  induction rounds generalizing l with
  | zero => exact h
  | succ rounds ih =>
      by_cases hready : l.ready = []
      · rw [turns_of_ready_nil hready]
        exact h
      · rw [turns_succ hready rfl]
        exact ih (h.change (change_turn l))

namespace Scene

theorem distinct (h : Scene l [] inside woken queue) :
    inside.names.Nodup ∧ (woken ++ queue).names.Nodup := by
  have hnodup := h.cast.distinct
  rw [List.nil_append, names_lines, List.nodup_append] at hnodup
  exact ⟨hnodup.1, hnodup.2.1⟩

theorem shared (h : Scene l [] inside woken queue) (hl : Counted l) :
    FairLock.Shared inside := by
  by_cases hwriter : ∃ name, (name, .write) ∈ inside
  · left
    rcases hwriter with ⟨name, hmem⟩
    have hname : ∀ field ∈ inside, field.1 = name := by
      rintro ⟨other, mode⟩ hother
      exact hl.writer_alone (h.stands_inside_iff.mpr hmem) (h.stands_inside_iff.mpr hother)
    refine ⟨name, ?_⟩
    match inside, h.distinct.1, hname, hmem with
    | [field], _, _, hmem => rw [List.mem_singleton.mp hmem]
    | first :: second :: rest, hdistinct, hname, _ =>
        have hfirst := hname first (by simp)
        have hsecond := hname second (by simp)
        simp [Fields.names, hfirst, hsecond] at hdistinct
  · right
    rintro ⟨name, mode⟩ hmem
    cases mode with
    | read => rfl
    | write => exact absurd ⟨name, hmem⟩ hwriter

theorem inside_ne_nil (h : Scene l [] inside [] queue) (hl : Sound l)
    (hmem : (name, .write) ∈ queue) : inside ≠ [] := by
  have hwaits : l.Stands name .write .waiting := h.stands_waiting_iff.mpr hmem
  have hadmits := hl.watched.not_admits h.ready_eq hwaits
  intro hnobody
  rw [(h.admits_write_iff hl.counted).mpr hnobody] at hadmits
  cases hadmits

theorem exists_writer (h : Scene l [] inside [] queue) (hl : Sound l)
    (hmem : (name, .read) ∈ queue) :
    ∃ other, (other, .write) ∈ inside ∨ (other, .write) ∈ queue := by
  have hwaits : l.Stands name .read .waiting := h.stands_waiting_iff.mpr hmem
  have hadmits := hl.watched.not_admits h.ready_eq hwaits
  apply Classical.byContradiction
  intro hnobody
  simp only [not_exists, not_or] at hnobody
  rw [(h.admits_read_iff hl.counted).mpr hnobody] at hadmits
  cases hadmits

end Scene

/-!
# Coming to rest as the fair lock does
-/

/--
After so many turns the lock is at rest, its tasks stand as in the given fair lock, and those on
the list have gone inside.
-/
def Settles (l : Lock) (rounds : Nat) (fair : FairLock × List String) : Prop :=
  ∃ l' inside queue, turns rounds l = (l', fair.2) ∧ Scene l' [] inside [] queue ∧
    ofLines inside queue = fair.1

theorem Scene.settles (h : Scene l [] inside [] queue) : l.Settles 0 (ofLines inside queue, []) :=
  ⟨l, inside, queue, rfl, h, rfl⟩

theorem Settles.after_turn {rounds : Nat} {fair : FairLock × List String}
    (h : l'.Settles rounds fair) (hready : l.ready ≠ []) (hturn : l.turn = (l', none)) :
    l.Settles (rounds + 1) fair := by
  rcases h with ⟨last, inside, queue, hturns, hscene, hfair⟩
  refine ⟨last, inside, queue, ?_, hscene, hfair⟩
  rw [turns_succ hready hturn, hturns]
  rfl

theorem Scene.settles_readers (h : Scene l [] inside queue []) (hl : Counted l)
    (hinside : ∀ field ∈ inside, field.2 = .read) (hqueue : ∀ field ∈ queue, field.2 = .read) :
    l.Settles queue.length (ofLines inside queue).letIn := by
  have hadmits : l.admits .read = true := by
    rw [h.admits_read_iff hl, List.append_nil]
    intro name
    constructor
    · intro hmem
      cases hinside _ hmem
    · intro hmem
      cases hqueue _ hmem
  rcases h.turns_readers hqueue hadmits with ⟨l', hturns, hscene⟩
  rw [FairLock.letIn_readers hinside hqueue]
  exact ⟨l', inside ++ queue, [], hturns, hscene, rfl⟩

/-- Where nobody is inside, those who were woken do as the fair lock lets them. -/
theorem Scene.settles_empty (h : Scene l [] [] queue []) (hl : Counted l) :
    l.Settles queue.length (ofLines [] queue).letIn := by
  rcases FairLock.readers_or_first_writer queue with hreaders | ⟨readers, name, rest, rfl, hreaders⟩
  · exact h.settles_readers hl (by simp) hreaders
  · have hread : l.admits .read = false := by
      rw [← Bool.not_eq_true, h.admits_read_iff hl]
      intro hnone
      exact (hnone name).2 (by simp)
    have hwrite : l.admits .write = true := (h.admits_write_iff hl).mpr rfl
    rcases h.turns_writer hreaders hread hwrite with ⟨l', hturns, hscene⟩
    rw [FairLock.letIn_writer hreaders]
    exact ⟨l', [(name, .write)], readers ++ rest, hturns, hscene, rfl⟩

/-- Where a writer is inside, or another waits while readers are, nobody gets in. -/
theorem Scene.settles_refused (h : Scene l [] inside queue []) (hl : Counted l)
    (hinside : inside ≠ []) (hwriter : ∃ name, (name, .write) ∈ inside ∨ (name, .write) ∈ queue) :
    l.Settles queue.length (ofLines inside queue, []) := by
  have hread : l.admits .read = false := by
    rw [← Bool.not_eq_true, h.admits_read_iff hl]
    intro hnone
    rcases hwriter with ⟨name, hmem | hmem⟩
    · exact (hnone name).1 hmem
    · exact (hnone name).2 (List.mem_append_left _ hmem)
  have hwrite : l.admits .write = false := by
    rw [← Bool.not_eq_true, h.admits_write_iff hl]
    exact hinside
  have hnobody : ∀ field ∈ queue, l.admits field.2 = false := by
    rintro ⟨name, mode⟩ _
    cases mode with
    | read => exact hread
    | write => exact hwrite
  have hscene : Scene l [] inside (queue ++ []) [] := by
    rw [List.append_nil]
    exact h
  rcases hscene.turns_refused hnobody with ⟨l', hturns, -, hscene'⟩
  exact ⟨l', inside, queue, hturns, hscene', rfl⟩

/-!
# A task is started
-/

theorem turn_makeReady (h : l.ready = []) (name : String) :
    (l.makeReady name).ready ≠ [] ∧
      (l.makeReady name).turn =
        ((l.resume name).1, if (l.resume name).2 then some name else none) := by
  have hready : (l.makeReady name).ready = [name] := by
    simp [makeReady, h]
  have hcall : (l.makeReady name).callUp name = l := by
    rcases l with ⟨readers, writing, writersWaiting, sleepers, ready, tasks⟩
    cases (show ready = [] from h)
    simp [makeReady, callUp]
  constructor
  · rw [hready]
    exact List.cons_ne_nil _ _
  · rw [turn_eq hready, hcall]

theorem Scene.settles_start (h : Scene l [] inside [] queue) (hfree : l.free name = true)
    (mode : Mode) :
    (l.start name mode true).Settles 1
      (if l.admits mode then (ofLines (inside ++ [(name, mode)]) queue, [name])
        else (ofLines inside (queue ++ [(name, mode)]), [])) := by
  let task : Task := ⟨mode, true, .starting false⟩
  let started : Lock := { l with tasks := l.tasks.set name task }
  have hname : name ∉ (lines inside [] queue).names := by
    simpa using h.free_iff.mp hfree
  have hacting : Scene started [(name, task)] inside [] queue :=
    ⟨h.ready_eq, h.sleepers_eq, h.cast.add hname task⟩
  have hlooks : Scene (started.announce mode) [(name, task)] inside [] queue := by
    cases mode <;> exact hacting.congr rfl rfl rfl
  -- A writer that makes itself known bars no writer, so that the lock admits it as before.
  have hadmits : (started.announce mode).admits mode = l.admits mode := by
    cases mode <;> rfl
  rcases turn_makeReady hacting.ready_eq name with ⟨hready, hturn⟩
  have hresume : started.resume name = (started.announce mode).tryEnter name task :=
    resume_eq hacting.get?_acting
  rw [hresume] at hturn
  cases hcase : l.admits mode with
  | true =>
      rw [tryEnter_admitted hlooks.get?_acting (hadmits.trans hcase)] at hturn
      exact ⟨_, _, _, turns_succ hready hturn 0, hlooks.enters, rfl⟩
  | false =>
      rw [tryEnter_refused hlooks.get?_acting (hadmits.trans hcase)] at hturn
      exact ⟨_, _, _, turns_succ hready hturn 0, hlooks.sleeps, rfl⟩

/-!
# A task leaves
-/

theorem finish_inside (htask : l.tasks.get? name = some task) (hphase : task.phase = .inside none)
    (ending : Ending) :
    l.finish name ending = (l.put name task (.inside (some ending))).makeReady name := by
  unfold finish
  rw [htask, Option.map_some, hphase, ← setPhase_eq_put htask]

theorem cancel_inside (htask : l.tasks.get? name = some task) (hphase : task.phase = .inside none) :
    l.cancel name = l.finish name .cancelled := by
  rw [finish_inside htask hphase]
  unfold cancel
  rw [htask, Option.map_some, hphase, ← setPhase_eq_put htask]

theorem Scene.turn_leaves (h : Scene l [] inside [] queue) (hmem : (name, mode) ∈ inside)
    (ending : Ending) :
    (l.finish name ending).ready ≠ [] ∧
      ∃ l₁, (l.finish name ending).turn = (l₁.leave mode, none) ∧
        Scene l₁ [] (inside.erase name) [] queue := by
  have hcast : Cast l ((name, ⟨mode, true, .inside none⟩) :: lines (inside.erase name) [] queue) :=
    h.cast.perm (lines_inside (Fields.perm_cons_erase h.distinct.1 hmem) [] queue)
  have htold : Scene (l.put name ⟨mode, true, .inside none⟩ (.inside (some ending)))
      [(name, ⟨mode, true, .inside (some ending)⟩)] (inside.erase name) [] queue :=
    ⟨h.ready_eq, h.sleepers_eq, hcast.put (.inside (some ending))⟩
  rcases turn_makeReady htold.ready_eq name with ⟨hready, hturn⟩
  rw [resume_eq htold.get?_acting] at hturn
  rw [finish_inside (h.get?_inside hmem) rfl]
  exact ⟨hready, _, hturn, htold.ends ending⟩

theorem notifyAll_readers (l : Lock) : l.notifyAll.readers = l.readers :=
  notifyAll_induction (P := fun l' => l'.readers = l.readers)
    (fun htold h => by cases htold <;> exact h) rfl

theorem Scene.leave_last (h : Scene l [] [] [] queue) (hl : Counted (l.leave mode)) :
    Scene (l.leave mode) [] [] queue [] := by
  have hvacate : Scene (l.vacate mode) [] [] [] queue := by
    cases mode <;> exact h.congr rfl rfl rfl
  rw [leave_eq] at hl ⊢
  split at hl
  · rename_i hreaders
    have hpos := Nat.pos_of_ne_zero hreaders.2
    rw [hl.readers_eq, number_pos_iff hl.distinct] at hpos
    rcases hpos with ⟨name, hstands⟩
    cases hvacate.stands_inside_iff.mp hstands
  · rename_i hlast
    rw [if_neg hlast]
    exact hvacate.notifyAll

theorem Scene.leave_others (h : Scene l [] inside [] queue) (hl : Counted (l.leave .read))
    (hmem : (name, .read) ∈ inside) : Scene (l.leave .read) [] inside [] queue := by
  have hvacate : Scene (l.vacate .read) [] inside [] queue := h.congr rfl rfl rfl
  rw [leave_eq] at hl ⊢
  split at hl
  · rename_i hreaders
    rw [if_pos hreaders]
    exact hvacate
  · rename_i hlast
    have hpos := hl.readers_pos (hvacate.notifyAll.stands_inside_iff.mpr hmem)
    rw [notifyAll_readers] at hpos
    exact absurd ⟨rfl, Nat.ne_of_gt hpos⟩ hlast

theorem Scene.settles_leave (h : Scene l [] inside [] queue) (hl : Sound l)
    (hmem : (name, mode) ∈ inside) (ending : Ending) :
    ∃ rounds ≤ queue.length + 1,
      (l.finish name ending).Settles rounds ((ofLines inside queue).leave name) := by
  rcases h.turn_leaves hmem ending with ⟨hready, l₁, hturn, hscene⟩
  have hcounted : Counted (l₁.leave mode) := by
    have hsound := (hl.change (.told (told_finish l name ending))).change (change_turn _)
    rw [hturn] at hsound
    exact hsound.counted
  have hlast : inside.erase name = [] →
      (l.finish name ending).Settles (queue.length + 1) (ofLines [] queue).letIn := by
    intro hempty
    rw [hempty] at hscene
    exact ((hscene.leave_last hcounted).settles_empty hcounted).after_turn hready hturn
  rcases h.shared hl.counted with ⟨writer, rfl⟩ | hreaders
  · cases List.mem_singleton.mp hmem
    rw [FairLock.leave_writer]
    exact ⟨queue.length + 1, Nat.le_refl _, hlast (by simp [Fields.erase])⟩
  · cases (show mode = .read from hreaders _ hmem)
    rw [FairLock.leave_reader hreaders h.distinct.1 (Fields.mem_names.mpr ⟨.read, hmem⟩)]
    split
    · rename_i hempty
      exact ⟨queue.length + 1, Nat.le_refl _, hlast hempty⟩
    · rename_i hothers
      rcases List.exists_mem_of_ne_nil _ hothers with ⟨⟨other, mode⟩, hother⟩
      cases (show mode = .read from hreaders _ (Fields.mem_erase.mp hother).1)
      exact ⟨1, Nat.le_add_left 1 _,
        (hscene.leave_others hcounted hother).settles.after_turn hready hturn⟩

/-!
# A task gives up
-/

theorem cancel_waiting (htask : l.tasks.get? name = some task)
    (hphase : task.phase = .waiting none) :
    l.cancel name = (l.put name task (.waiting (some .cancelled))).makeReady name := by
  unfold cancel
  rw [htask, Option.map_some, hphase, ← setPhase_eq_put htask]

theorem Scene.turn_givesUp (h : Scene l [] inside [] queue) (hmem : (name, mode) ∈ queue) :
    (l.cancel name).ready ≠ [] ∧
      ∃ l₁, (l.cancel name).turn = (l₁.giveUp mode, none) ∧
        Scene l₁ [] inside [] (queue.erase name) := by
  have hdistinct : queue.names.Nodup := h.distinct.2
  have hcast : Cast l ((name, ⟨mode, true, .waiting none⟩) :: lines inside [] (queue.erase name)) :=
    h.cast.perm (lines_queue (Fields.perm_cons_erase hdistinct hmem) inside [])
  have htask := hcast.present _ _ List.mem_cons_self
  let told : Lock := l.put name ⟨mode, true, .waiting none⟩ (.waiting (some .cancelled))
  have htold : Cast told ((name, ⟨mode, true, .waiting (some .cancelled)⟩) ::
      lines inside [] (queue.erase name)) :=
    hcast.put (.waiting (some .cancelled))
  have hrisen : Scene (told.rise name) [(name, ⟨mode, true, .waiting (some .cancelled)⟩)] inside []
      (queue.erase name) := by
    refine ⟨h.ready_eq, ?_, htold.congr rfl⟩
    have hsleepers : l.sleepers.erase name = (queue.erase name).names := by
      rw [h.sleepers_eq, List.nil_append, Fields.names_erase hdistinct]
    exact hsleepers
  have hrest : told.ready = [] := h.ready_eq
  rcases turn_makeReady hrest name with ⟨hready, hturn⟩
  rw [resume_eq (htold.present _ _ List.mem_cons_self)] at hturn
  rw [cancel_waiting htask rfl]
  exact ⟨hready, _, hturn, hrisen.ends .cancelled⟩

theorem Scene.giveUp_writer (h : Scene l [] inside [] queue) :
    Scene (l.giveUp .write) [] inside queue [] := by
  have hwithdraw : Scene (l.withdraw .write) [] inside [] queue := h.congr rfl rfl rfl
  exact hwithdraw.notifyAll

/-- The writer that a reader was waiting for is still there when that reader has gone. -/
theorem Scene.exists_writer_erase (h : Scene l [] inside [] queue) (hl : Sound l)
    (hmem : (name, .read) ∈ queue) :
    ∃ other, (other, .write) ∈ inside ∨ (other, .write) ∈ queue.erase name := by
  have hdistinct : queue.names.Nodup := h.distinct.2
  rcases h.exists_writer hl hmem with ⟨other, hother | hother⟩
  · exact ⟨other, .inl hother⟩
  · refine ⟨other, .inr (Fields.mem_erase.mpr ⟨hother, ?_⟩)⟩
    rintro rfl
    cases (Fields.get?_of_mem hdistinct hmem).symm.trans (Fields.get?_of_mem hdistinct hother)

theorem Scene.settles_cancel (h : Scene l [] inside [] queue) (hl : Sound l)
    (hmem : (name, mode) ∈ queue) :
    ∃ rounds ≤ queue.length + 1,
      (l.cancel name).Settles rounds ((ofLines inside queue).cancel name) := by
  have hdistinct : queue.names.Nodup := h.distinct.2
  rcases h.turn_givesUp hmem with ⟨hready, l₁, hturn, hscene⟩
  rw [FairLock.cancel_waiting hdistinct (Fields.mem_names.mpr ⟨mode, hmem⟩)]
  cases mode with
  | read =>
      rw [if_neg (FairLock.exists_writer_iff.mp (h.exists_writer_erase hl hmem))]
      exact ⟨1, Nat.le_add_left 1 _, hscene.settles.after_turn hready hturn⟩
  | write =>
      have hwoken := hscene.giveUp_writer
      have hcounted : Counted (l₁.giveUp .write) := by
        have hsound := (hl.change (.told (told_cancel l name))).change (change_turn _)
        rw [hturn] at hsound
        exact hsound.counted
      have hlength : (queue.erase name).length ≤ queue.length := List.length_filter_le _ _
      refine ⟨_, Nat.succ_le_succ hlength, Settles.after_turn ?_ hready hturn⟩
      split
      · rename_i hreaders
        exact hwoken.settles_readers hcounted (FairLock.ofMode_write_eq_nil_iff.mp hreaders.2)
          (FairLock.ofMode_write_eq_nil_iff.mp hreaders.1)
      · rename_i hwriter
        exact hwoken.settles_refused hcounted (h.inside_ne_nil hl hmem)
          (FairLock.exists_writer_iff.mpr hwriter)

/-!
# One request, and many
-/

theorem finish_eq_self (h : ∀ mode, ¬ l.Stands name mode .inside) (ending : Ending) :
    l.finish name ending = l := by
  unfold finish
  split
  · rename_i hphase
    rcases Option.map_eq_some_iff.mp hphase with ⟨task, htask, hphase⟩
    exact absurd ⟨task, htask, rfl, by rw [hphase]; rfl⟩ (h task.mode)
  · rfl

theorem cancel_eq_self (h : l.free name = true) : l.cancel name = l := by
  unfold free at h
  unfold cancel
  cases htask : l.tasks.get? name with
  | none => rfl
  | some task =>
      rw [htask] at h
      rcases task with ⟨mode, stays, phase⟩
      cases phase with
      | ended ending => rfl
      | starting cancelled => cases h
      | waiting signal => cases h
      | inside ending => cases h

theorem Scene.settles_finish (h : Scene l [] inside [] queue) (hl : Sound l) (name : String)
    (ending : Ending) :
    ∃ rounds ≤ queue.length + 1,
      (l.finish name ending).Settles rounds ((ofLines inside queue).leave name) := by
  by_cases hname : name ∈ inside.names
  · rcases Fields.mem_names.mp hname with ⟨mode, hmem⟩
    exact h.settles_leave hl hmem ending
  · have hstands : ∀ mode, ¬ l.Stands name mode .inside := by
      intro mode hstands
      exact hname (Fields.mem_names.mpr ⟨mode, h.stands_inside_iff.mp hstands⟩)
    rw [finish_eq_self hstands, FairLock.leave_absent hname]
    exact ⟨0, Nat.zero_le _, h.settles⟩

theorem Scene.settles_step_start (h : Scene l [] inside [] queue) (hl : Counted l) (name : String)
    (mode : Mode) {fair : FairLock × List String}
    (hfair : fair = if l.admits mode then (ofLines (inside ++ [(name, mode)]) queue, [name])
      else (ofLines inside (queue ++ [(name, mode)]), [])) :
    ∃ rounds ≤ queue.length + 1,
      (l.step (.start name mode true)).1.Settles rounds
        (if name ∈ (ofLines inside queue).names then (ofLines inside queue, []) else fair) := by
  have hfree : l.free name = true ↔ name ∉ (ofLines inside queue).names := by
    rw [h.free_iff, FairLock.mem_names_ofLines (h.shared hl), not_or, List.nil_append]
  unfold step
  dsimp only
  by_cases hname : name ∈ (ofLines inside queue).names
  · rw [if_pos hname, if_neg (fun htrue => hfree.mp htrue hname)]
    exact ⟨0, Nat.zero_le _, h.settles⟩
  · rw [if_neg hname, if_pos (hfree.mpr hname), hfair]
    exact ⟨1, Nat.le_add_left 1 _, h.settles_start (hfree.mpr hname) mode⟩

theorem Scene.settles_request (h : Scene l [] inside [] queue) (hl : Sound l) (request : Request) :
    ∃ rounds ≤ queue.length + 1,
      (l.step request.move).1.Settles rounds ((ofLines inside queue).serve request) := by
  cases request with
  | read name =>
      exact h.settles_step_start hl.counted name .read
        (FairLock.read_ofLines (h.admits_read_iff hl.counted))
  | write name =>
      exact h.settles_step_start hl.counted name .write
        (FairLock.write_ofLines (h.admits_write_iff hl.counted))
  | release name => exact h.settles_finish hl name .finished
  | fail name => exact h.settles_finish hl name .failed
  | cancel name =>
      by_cases hqueue : name ∈ queue.names
      · rcases Fields.mem_names.mp hqueue with ⟨mode, hmem⟩
        exact h.settles_cancel hl hmem
      · show ∃ rounds ≤ queue.length + 1,
          (l.cancel name).Settles rounds ((ofLines inside queue).cancel name)
        rw [FairLock.cancel_absent hqueue]
        by_cases hinside : name ∈ inside.names
        · rcases Fields.mem_names.mp hinside with ⟨mode, hmem⟩
          rw [cancel_inside (h.get?_inside hmem) rfl]
          exact h.settles_leave hl hmem .cancelled
        · have hfree : l.free name = true := h.free_iff.mpr ⟨hinside, hqueue⟩
          rw [cancel_eq_self hfree, FairLock.leave_absent hinside]
          exact ⟨0, Nat.zero_le _, h.settles⟩

theorem length_tasks_put (l : Lock) (name : String) (task : Task) (phase : Phase) :
    l.tasks.length ≤ (l.put name task phase).tasks.length := by
  have hprefix := Fields.names_prefix_set l.tasks name { task with phase := phase }
  simpa [Fields.names, put] using hprefix.length_le

theorem Told.length_tasks (h : Told l l') : l.tasks.length ≤ l'.tasks.length := by
  cases h with
  | nothing => exact Nat.le_refl _
  | again _ _ _ => exact length_tasks_put _ _ _ _
  | woken _ _ => exact length_tasks_put _ _ _ _

theorem length_tasks_request (l : Lock) (request : Request) :
    l.tasks.length ≤ (l.step request.move).1.tasks.length := by
  have hstart : ∀ name mode, l.tasks.length ≤ (l.step (.start name mode true)).1.tasks.length := by
    intro name mode
    unfold step
    dsimp only
    split
    · exact length_tasks_put l name ⟨mode, true, .starting false⟩ (.starting false)
    · exact Nat.le_refl _
  cases request with
  | read name => exact hstart name .read
  | write name => exact hstart name .write
  | release name => exact (told_finish l name .finished).length_tasks
  | fail name => exact (told_finish l name .failed).length_tasks
  | cancel name => exact (told_cancel l name).length_tasks

structure Mirrors (l : Lock) (f : FairLock) : Prop where
  sound : Sound l
  scene : ∃ inside queue, Scene l [] inside [] queue ∧ ofLines inside queue = f

variable {f : FairLock}

theorem mirrors_empty : Mirrors {} {} where
  sound := ⟨counted_empty, watched_empty⟩
  scene := by
    refine ⟨[], [], ⟨rfl, rfl, List.nodup_nil, ?_, fun _ _ => rfl⟩, rfl⟩
    intro name task hmem
    cases hmem

theorem Mirrors.serve (h : Mirrors l f) (request : Request) :
    (l.serve request).2 = (f.serve request).2 ∧
      Mirrors (l.serve request).1 (f.serve request).1 := by
  rcases h.scene with ⟨inside, queue, hscene, rfl⟩
  rcases hscene.settles_request h.sound request with
    ⟨rounds, hrounds, l', inside', queue', hturns, hscene', hfair⟩
  have hbound : rounds ≤ (l.step request.move).1.roundBound := by
    have hqueue : queue.length ≤ l.tasks.length := by
      have hcast := hscene.cast.length_le
      simp only [List.nil_append, lines, staying, List.length_append, List.length_map] at hcast
      omega
    have htasks := length_tasks_request l request
    unfold roundBound
    calc rounds ≤ (l.step request.move).1.tasks.length + 1 := by omega
      _ ≤ _ := Nat.le_mul_self _
  have hserve : l.serve request = (l', ((ofLines inside queue).serve request).2) :=
    settle_eq hturns hscene'.ready_eq hbound
  have hsound : Sound l' := by
    have hsound := (h.sound.change (change_step l request.move)).turns rounds
    rw [hturns] at hsound
    exact hsound
  rw [hserve]
  exact ⟨rfl, hsound, inside', queue', hscene', hfair⟩

theorem Mirrors.serveAll (h : Mirrors l f) (requests : List Request) :
    (serveAll Lock.serve l requests).2 = (Lock.serveAll FairLock.serve f requests).2 ∧
      Mirrors (Lock.serveAll Lock.serve l requests).1
        (Lock.serveAll FairLock.serve f requests).1 := by
  induction requests generalizing l f with
  | nil => exact ⟨rfl, h⟩
  | cons request rest ih =>
      rcases h.serve request with ⟨hentered, hmirrors⟩
      rcases ih hmirrors with ⟨hmore, hlast⟩
      simp only [Lock.serveAll]
      exact ⟨List.cons_eq_cons.mpr ⟨hentered, hmore⟩, hlast⟩

/--
A lock that comes to rest after every request lets in the tasks that the fair lock lets in, in
the same order at every request.  The tasks inside and those that wait are then those of the fair
lock, and no task is ready.
-/
theorem serves_as_fair_lock (requests : List Request) :
    let (l, entered) := serveAll serve ({} : Lock) requests
    let (f, fairlyEntered) := serveAll FairLock.serve {} requests
    entered = fairlyEntered ∧ l.ready = [] ∧
      ∀ name,
        (l.Stands name .read .inside ↔ name ∈ f.readers) ∧
        (l.Stands name .write .inside ↔ f.writer = some name) ∧
        (l.Stands name .write .waiting ↔ name ∈ f.waitingWriters) ∧
        (l.Stands name .read .waiting ↔ name ∈ f.waitingReaders) := by
  rcases mirrors_empty.serveAll requests with ⟨hentered, hmirrors⟩
  rcases hmirrors.scene with ⟨inside, queue, hscene, hfair⟩
  refine ⟨hentered, hscene.ready_eq, ?_⟩
  intro name
  rw [← hfair, hscene.stands_inside_iff, hscene.stands_inside_iff, hscene.stands_waiting_iff,
    hscene.stands_waiting_iff, FairLock.writer_eq_some_iff (hscene.shared hmirrors.sound.counted)]
  exact ⟨FairLock.mem_ofMode.symm, Iff.rfl, FairLock.mem_ofMode.symm, FairLock.mem_ofMode.symm⟩

/-- The writer keeps later readers out until it is cancelled. -/
example :
    (serveAll serve ({} : Lock)
      [.read "first", .write "writer", .read "second", .read "third", .cancel "writer"]).2 =
        [["first"], [], [], [], ["second", "third"]] := by
  decide

end Lock
end TypedAnt
