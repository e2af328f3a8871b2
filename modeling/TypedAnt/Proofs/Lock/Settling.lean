import Mathlib.Data.List.Perm.Subperm
import TypedAnt.Proofs.Lock.Waking

/-!
# Turns until nothing moves

The tasks of a lock that have not ended stand in three lines: those inside, those that were woken
and those that sleep.  A woken task leaves the head of its line in its turn, and goes inside or
to the end of those that sleep.  So when all sleepers are woken, they either go inside in their
order or keep it.
-/

namespace TypedAnt
namespace Lock

variable {l l' : Lock} {name : String} {mode : Mode} {task : Task} {phase : Phase}

/-!
# Many turns
-/

theorem turns_of_ready_nil (h : l.ready = []) (rounds : Nat) : turns rounds l = (l, []) := by
  cases rounds with
  | zero => rfl
  | succ rounds => simp [turns, h]

theorem turns_succ {entered : Option String} (hready : l.ready ≠ [])
    (hturn : l.turn = (l', entered)) (rounds : Nat) :
    turns (rounds + 1) l =
      ((turns rounds l').1, entered.toList ++ (turns rounds l').2) := by
  simp [turns, hready, hturn]

theorem turns_add (first second : Nat) (l : Lock) :
    turns (first + second) l =
      ((turns second (turns first l).1).1,
        (turns first l).2 ++ (turns second (turns first l).1).2) := by
  induction first generalizing l with
  | zero =>
      rw [Nat.zero_add]
      rfl
  | succ first ih =>
      by_cases hready : l.ready = []
      · simp [turns_of_ready_nil hready]
      · rw [Nat.add_right_comm, turns_succ hready rfl, turns_succ hready rfl, ih]
        simp

theorem settle_eq {rounds : Nat} {entered : List String} (h : turns rounds l = (l', entered))
    (hready : l'.ready = []) (hrounds : rounds ≤ l.roundBound) : l.settle = (l', entered) := by
  rcases Nat.exists_eq_add_of_le hrounds with ⟨more, hmore⟩
  unfold settle
  rw [hmore, turns_add, h, turns_of_ready_nil hready]
  simp

theorem turn_eq {rest : List String} (h : l.ready = name :: rest) :
    l.turn = ((l.callUp name).resume name |>.1,
      if ((l.callUp name).resume name).2 then some name else none) := by
  have hcall : l.callUp name = { l with ready := rest } := by
    simp [callUp, h]
  rw [hcall]
  unfold turn
  rw [h]

theorem change_turn (l : Lock) : Change l l.turn.1 l.turn.2 := by
  cases hready : l.ready with
  | nil =>
      have hturn : l.turn = (l, none) := by
        unfold turn
        rw [hready]
      rw [hturn]
      exact .told .nothing
  | cons name rest =>
      have hstep : l.turn = l.step (.resume name) := by
        rw [turn_eq hready]
        simp [step, hready, favour_turn]
      rw [hstep]
      exact change_step l (.resume name)

/-!
# The tasks that have not ended
-/

/-- These are all the tasks that have not ended. -/
structure Cast (l : Lock) (cast : Fields Task) : Prop where
  distinct : cast.names.Nodup
  present : ∀ name task, (name, task) ∈ cast → l.tasks.get? name = some task
  absent : ∀ name, name ∉ cast.names → l.free name = true

theorem free_congr (h : l'.tasks.get? name = l.tasks.get? name) : l'.free name = l.free name := by
  unfold free
  rw [h]

theorem place_of_free (h : l.free name = true) (htask : l.tasks.get? name = some task) :
    task.phase.place = .outside := by
  unfold free at h
  rw [htask] at h
  cases hphase : task.phase with
  | ended ending => rfl
  | starting cancelled => simp [hphase] at h
  | waiting signal => simp [hphase] at h
  | inside ending => simp [hphase] at h

namespace Cast

variable {cast cast' : Fields Task}

theorem perm (h : Cast l cast) (hperm : cast.Perm cast') : Cast l cast' where
  distinct := (hperm.map Prod.fst).nodup_iff.mp h.distinct
  present := fun name task hmem => h.present name task (hperm.mem_iff.mpr hmem)
  absent := fun name hmem =>
    h.absent name (fun hcast => hmem ((hperm.map Prod.fst).mem_iff.mp hcast))

theorem congr (h : Cast l cast) (htasks : l'.tasks = l.tasks) : Cast l' cast where
  distinct := h.distinct
  present := by
    rw [htasks]
    exact h.present
  absent := by
    intro name hmem
    rw [free_congr (congrArg (Fields.get? · name) htasks)]
    exact h.absent name hmem

theorem not_mem_names (h : Cast l ((name, task) :: cast)) : name ∉ cast.names :=
  (List.nodup_cons.mp h.distinct).1

theorem ne_of_mem (h : Cast l ((name, task) :: cast)) {other : String} {task' : Task}
    (hmem : (other, task') ∈ cast) : other ≠ name := by
  rintro rfl
  exact h.not_mem_names (List.mem_map_of_mem hmem)

theorem put (h : Cast l ((name, task) :: cast)) (phase : Phase) :
    Cast (l.put name task phase) ((name, { task with phase := phase }) :: cast) where
  distinct := h.distinct
  present := by
    intro other task' hmem
    rcases List.mem_cons.mp hmem with heq | hrest
    · cases heq
      exact get?_put l name task phase
    · rw [get?_put_other (h.ne_of_mem hrest)]
      exact h.present other task' (List.mem_cons_of_mem _ hrest)
  absent := by
    intro other hmem
    have hother : other ≠ name := List.ne_of_not_mem_cons hmem
    rw [free_congr (get?_put_other hother l task phase)]
    exact h.absent other hmem

theorem drop (h : Cast l ((name, task) :: cast)) (ending : Ending) :
    Cast (l.put name task (.ended ending)) cast where
  distinct := (List.nodup_cons.mp h.distinct).2
  present := fun other task' hmem =>
    (h.put (.ended ending)).present other task' (List.mem_cons_of_mem _ hmem)
  absent := by
    intro other hmem
    by_cases hother : other = name
    · rw [hother]
      unfold free
      rw [get?_put]
    · exact (h.put (.ended ending)).absent other (List.not_mem_cons_of_ne_of_not_mem hother hmem)

theorem add (h : Cast l cast) (hname : name ∉ cast.names) (task : Task) :
    Cast { l with tasks := l.tasks.set name task } ((name, task) :: cast) where
  distinct := List.nodup_cons.mpr ⟨hname, h.distinct⟩
  present := by
    intro other task' hmem
    rw [Fields.get?_set]
    rcases List.mem_cons.mp hmem with heq | hrest
    · cases heq
      rw [if_pos rfl]
    · have hother : other ≠ name := by
        rintro rfl
        exact hname (List.mem_map_of_mem hrest)
      rw [if_neg hother]
      exact h.present other task' hrest
  absent := by
    intro other hmem
    rcases not_or.mp (fun h => hmem (List.mem_cons.mpr h)) with ⟨hother, hrest⟩
    have hget : (l.tasks.set name task).get? other = l.tasks.get? other := by
      rw [Fields.get?_set, if_neg hother]
    rw [free_congr (show _ = l.tasks.get? other from hget)]
    exact h.absent other hrest

theorem mem_of_get? (h : Cast l cast) (htask : l.tasks.get? name = some task)
    (hplace : task.phase.place ≠ .outside) : (name, task) ∈ cast := by
  by_cases hmem : name ∈ cast.names
  · rcases List.mem_map.mp hmem with ⟨⟨other, task'⟩, hfield, rfl⟩
    have hsame := (h.present other task' hfield).symm.trans htask
    cases hsame
    exact hfield
  · exact absurd (place_of_free (h.absent name hmem) htask) hplace

theorem free_iff (h : Cast l cast) (hcast : ∀ field ∈ cast, field.2.phase.place ≠ .outside) :
    l.free name = true ↔ name ∉ cast.names := by
  constructor
  · intro hfree hmem
    rcases List.mem_map.mp hmem with ⟨⟨other, task⟩, hfield, rfl⟩
    exact hcast _ hfield (place_of_free hfree (h.present other task hfield))
  · exact h.absent name

theorem length_le (h : Cast l cast) : cast.length ≤ l.tasks.length := by
  have hsubset : cast.names ⊆ l.tasks.names := by
    intro name hmem
    rcases List.mem_map.mp hmem with ⟨⟨other, task⟩, hfield, rfl⟩
    exact Fields.mem_names_iff.mpr ⟨task, h.present other task hfield⟩
  have hlength := (List.subperm_of_subset h.distinct hsubset).length_le
  simpa [Fields.names] using hlength

end Cast

/-!
# Lines of tasks
-/

def staying (phase : Phase) (line : Fields Mode) : Fields Task :=
  line.map fun field => (field.1, ⟨field.2, true, phase⟩)

@[simp] theorem names_staying (phase : Phase) (line : Fields Mode) :
    (staying phase line).names = line.names := by
  simp [staying, Fields.names]

theorem mem_staying {line : Fields Mode} :
    (name, task) ∈ staying phase line ↔
      (name, task.mode) ∈ line ∧ task.stays = true ∧ task.phase = phase := by
  rcases task with ⟨mode, stays, phase'⟩
  simp only [staying, List.mem_map, Prod.mk.injEq, Task.mk.injEq, Prod.exists]
  constructor
  · rintro ⟨other, mode', hmem, rfl, rfl, rfl, rfl⟩
    exact ⟨hmem, rfl, rfl⟩
  · rintro ⟨hmem, rfl, rfl⟩
    exact ⟨name, mode, hmem, rfl, rfl, rfl, rfl⟩

def lines (inside woken queue : Fields Mode) : Fields Task :=
  staying (.inside none) inside ++
    (staying (.waiting (some .notified)) woken ++ staying (.waiting none) queue)

variable {inside woken queue : Fields Mode} {acting : Fields Task}

@[simp] theorem names_lines (inside woken queue : Fields Mode) :
    (lines inside woken queue).names = inside.names ++ (woken ++ queue).names := by
  simp [lines]

theorem lines_inside {inside' : Fields Mode} (h : inside.Perm ((name, mode) :: inside'))
    (woken queue : Fields Mode) :
    (lines inside woken queue).Perm
      ((name, ⟨mode, true, .inside none⟩) :: lines inside' woken queue) :=
  (h.map _).append_right _

theorem lines_woken {woken' : Fields Mode} (h : woken.Perm ((name, mode) :: woken'))
    (inside queue : Fields Mode) :
    (lines inside woken queue).Perm
      ((name, ⟨mode, true, .waiting (some .notified)⟩) :: lines inside woken' queue) :=
  (((h.map _).append_right _).append_left _).trans List.perm_middle

theorem lines_queue {queue' : Fields Mode} (h : queue.Perm ((name, mode) :: queue'))
    (inside woken : Fields Mode) :
    (lines inside woken queue).Perm
      ((name, ⟨mode, true, .waiting none⟩) :: lines inside woken queue') :=
  ((((h.map _).append_left _).trans List.perm_middle).append_left _).trans List.perm_middle

/--
The tasks of a lock stand in lines, but for one that acts: it has been told something, or is
about to look at the lock.
-/
structure Scene (l : Lock) (acting : Fields Task) (inside woken queue : Fields Mode) : Prop where
  ready_eq : l.ready = woken.names
  sleepers_eq : l.sleepers = (woken ++ queue).names
  cast : Cast l (acting ++ lines inside woken queue)

namespace Scene

theorem congr (h : Scene l acting inside woken queue) (hready : l'.ready = l.ready)
    (hsleepers : l'.sleepers = l.sleepers) (htasks : l'.tasks = l.tasks) :
    Scene l' acting inside woken queue :=
  ⟨hready.trans h.ready_eq, hsleepers.trans h.sleepers_eq, h.cast.congr htasks⟩

theorem get?_acting (h : Scene l [(name, task)] inside woken queue) :
    l.tasks.get? name = some task :=
  h.cast.present name task List.mem_cons_self

theorem get?_inside (h : Scene l [] inside woken queue) (hmem : (name, mode) ∈ inside) :
    l.tasks.get? name = some ⟨mode, true, .inside none⟩ := by
  apply h.cast.present
  simp [lines, mem_staying, hmem]

theorem stands_inside_iff (h : Scene l [] inside woken queue) :
    l.Stands name mode .inside ↔ (name, mode) ∈ inside := by
  constructor
  · rintro ⟨task, htask, rfl, hplace⟩
    have hmem := h.cast.mem_of_get? htask (by simp [hplace])
    simp only [List.nil_append, lines, List.mem_append, mem_staying] at hmem
    rcases hmem with hinside | hwoken | hqueue
    · exact hinside.1
    · simp [hwoken.2.2, Phase.place] at hplace
    · simp [hqueue.2.2, Phase.place] at hplace
  · intro hmem
    exact ⟨⟨mode, true, .inside none⟩, h.get?_inside hmem, rfl, rfl⟩

theorem stands_waiting_iff (h : Scene l [] inside woken queue) :
    l.Stands name mode .waiting ↔ (name, mode) ∈ woken ++ queue := by
  constructor
  · rintro ⟨task, htask, rfl, hplace⟩
    have hmem := h.cast.mem_of_get? htask (by simp [hplace])
    simp only [List.nil_append, lines, List.mem_append, mem_staying] at hmem
    rcases hmem with hinside | hwoken | hqueue
    · simp [hinside.2.2, Phase.place] at hplace
    · exact List.mem_append_left _ hwoken.1
    · exact List.mem_append_right _ hqueue.1
  · intro hmem
    rcases List.mem_append.mp hmem with hwoken | hqueue
    · refine ⟨⟨mode, true, .waiting (some .notified)⟩, h.cast.present _ _ ?_, rfl, rfl⟩
      simp [lines, mem_staying, hwoken]
    · refine ⟨⟨mode, true, .waiting none⟩, h.cast.present _ _ ?_, rfl, rfl⟩
      simp [lines, mem_staying, hqueue]

theorem free_iff (h : Scene l [] inside woken queue) :
    l.free name = true ↔ name ∉ inside.names ∧ name ∉ (woken ++ queue).names := by
  rw [h.cast.free_iff]
  · simp
  · rintro ⟨name, task⟩ hmem
    simp only [List.nil_append, lines, List.mem_append, mem_staying] at hmem
    rcases hmem with hinside | hwoken | hqueue
    · simp [hinside.2.2, Phase.place]
    · simp [hwoken.2.2, Phase.place]
    · simp [hqueue.2.2, Phase.place]

theorem admits_write_iff (h : Scene l [] inside woken queue) (hl : Counted l) :
    l.admits .write = true ↔ inside = [] := by
  rw [hl.admits_write_iff]
  simp [h.stands_inside_iff, List.eq_nil_iff_forall_not_mem]

theorem admits_read_iff (h : Scene l [] inside woken queue) (hl : Counted l) :
    l.admits .read = true ↔
      ∀ name, (name, .write) ∉ inside ∧ (name, .write) ∉ woken ++ queue := by
  rw [hl.admits_read_iff]
  simp only [h.stands_inside_iff, h.stands_waiting_iff]

/-!
# The task that acts
-/

theorem sleeps (h : Scene l [(name, ⟨mode, true, phase⟩)] inside woken queue) :
    Scene ((l.lieDown name).put name ⟨mode, true, phase⟩ (.waiting none)) [] inside woken
      (queue ++ [(name, mode)]) where
  ready_eq := h.ready_eq
  sleepers_eq := by
    have hsleepers : l.sleepers ++ [name] = (woken ++ (queue ++ [(name, mode)])).names := by
      simp [h.sleepers_eq, Fields.names]
    exact hsleepers
  cast := by
    have hlie : Cast (l.lieDown name) ((name, ⟨mode, true, phase⟩) :: lines inside woken queue) :=
      h.cast.congr rfl
    exact (hlie.put (.waiting none)).perm
      (lines_queue (List.perm_append_singleton _ _) inside woken).symm

theorem enters (h : Scene l [(name, ⟨mode, true, phase⟩)] inside woken queue) :
    Scene ((l.enter mode).put name ⟨mode, true, phase⟩ (.inside none)) []
      (inside ++ [(name, mode)]) woken queue where
  ready_eq := by
    cases mode <;> exact h.ready_eq
  sleepers_eq := by
    cases mode <;> exact h.sleepers_eq
  cast := by
    have henter : Cast (l.enter mode) ((name, ⟨mode, true, phase⟩) :: lines inside woken queue) :=
      h.cast.congr (enter_tasks l mode)
    exact (henter.put (.inside none)).perm
      (lines_inside (List.perm_append_singleton _ _) woken queue).symm

theorem ends (h : Scene l [(name, task)] inside woken queue) (ending : Ending) :
    Scene (l.put name task (.ended ending)) [] inside woken queue :=
  ⟨h.ready_eq, h.sleepers_eq, h.cast.drop ending⟩

theorem rises (h : Scene l [] inside ((name, mode) :: woken) queue) :
    Scene ((l.callUp name).rise name) [(name, ⟨mode, true, .waiting (some .notified)⟩)] inside
      woken queue where
  ready_eq := by
    have hready : l.ready.erase name = woken.names := by
      simp [h.ready_eq, Fields.names_cons]
    exact hready
  sleepers_eq := by
    have hsleepers : l.sleepers.erase name = (woken ++ queue).names := by
      simp [h.sleepers_eq, Fields.names_cons]
    exact hsleepers
  cast := by
    have hrisen : Cast ((l.callUp name).rise name) (lines inside ((name, mode) :: woken) queue) :=
      h.cast.congr rfl
    exact hrisen.perm (lines_woken (List.Perm.refl _) inside queue)

theorem turn_woken (h : Scene l [] inside ((name, mode) :: woken) queue) :
    let looked := ((l.callUp name).rise name).tryEnter name ⟨mode, true, .waiting (some .notified)⟩
    l.turn = (looked.1, if looked.2 then some name else none) := by
  have htask : (l.callUp name).tasks.get? name =
      some ⟨mode, true, .waiting (some .notified)⟩ := h.rises.get?_acting
  rw [turn_eq h.ready_eq, resume_eq htask]

end Scene

theorem Scene.turn_refused (h : Scene l [] inside ((name, mode) :: woken) queue)
    (hadmits : l.admits mode = false) :
    ∃ l', l.turn = (l', none) ∧ l'.admits = l.admits ∧
      Scene l' [] inside woken (queue ++ [(name, mode)]) := by
  have hrises := h.rises
  have hturn := h.turn_woken
  rw [tryEnter_refused hrises.get?_acting hadmits] at hturn
  exact ⟨_, hturn, rfl, hrises.sleeps⟩

theorem Scene.turn_admitted (h : Scene l [] inside ((name, mode) :: woken) queue)
    (hadmits : l.admits mode = true) :
    ∃ l', l.turn = (l', some name) ∧ l'.admits = (l.enter mode).admits ∧
      Scene l' [] (inside ++ [(name, mode)]) woken queue := by
  have hrises := h.rises
  have hturn := h.turn_woken
  rw [tryEnter_admitted hrises.get?_acting hadmits] at hturn
  refine ⟨_, hturn, ?_, hrises.enters⟩
  cases mode <;> rfl

/-!
# A round of turns
-/

theorem Scene.ready_ne_nil (h : Scene l acting inside ((name, mode) :: woken) queue) :
    l.ready ≠ [] := by
  rw [h.ready_eq]
  exact List.cons_ne_nil _ _

theorem Scene.turns_refused {refused : Fields Mode}
    (h : Scene l [] inside (refused ++ woken) queue)
    (hadmits : ∀ field ∈ refused, l.admits field.2 = false) :
    ∃ l', turns refused.length l = (l', []) ∧ l'.admits = l.admits ∧
      Scene l' [] inside woken (queue ++ refused) := by
  induction refused generalizing l queue with
  | nil => exact ⟨l, rfl, rfl, by simpa using h⟩
  | cons field refused ih =>
      rcases field with ⟨name, mode⟩
      rcases List.forall_mem_cons.mp hadmits with ⟨hfirst, hrest⟩
      rcases h.turn_refused hfirst with ⟨l₁, hturn, hsame, hscene⟩
      rcases ih hscene (by rw [hsame]; exact hrest) with ⟨l', hturns, hsame', hscene'⟩
      refine ⟨l', ?_, hsame'.trans hsame, by simpa using hscene'⟩
      rw [List.length_cons, turns_succ h.ready_ne_nil hturn, hturns]
      rfl

/-- Readers that are admitted go inside in their order, since one reader does not bar another. -/
theorem Scene.turns_readers (h : Scene l [] inside woken queue)
    (hreaders : ∀ field ∈ woken, field.2 = .read) (hadmits : l.admits .read = true) :
    ∃ l', turns woken.length l = (l', woken.names) ∧
      Scene l' [] (inside ++ woken) [] queue := by
  induction woken generalizing l inside with
  | nil => exact ⟨l, rfl, by simpa using h⟩
  | cons field woken ih =>
      rcases field with ⟨name, mode⟩
      rcases List.forall_mem_cons.mp hreaders with ⟨hfirst, hrest⟩
      cases (show mode = .read from hfirst)
      rcases h.turn_admitted hadmits with ⟨l₁, hturn, hsame, hscene⟩
      have hstill : l₁.admits .read = true := by
        rw [hsame]
        exact hadmits
      rcases ih hscene hrest hstill with ⟨l', hturns, hscene'⟩
      refine ⟨l', ?_, by simpa using hscene'⟩
      rw [List.length_cons, turns_succ h.ready_ne_nil hturn, hturns]
      rfl

/-- The first writer goes inside past the readers in front of it, and bars all behind it. -/
theorem Scene.turns_writer {readers : Fields Mode}
    (h : Scene l [] inside (readers ++ (name, .write) :: woken) queue)
    (hreaders : ∀ field ∈ readers, field.2 = .read) (hread : l.admits .read = false)
    (hwrite : l.admits .write = true) :
    ∃ l', turns (readers ++ (name, .write) :: woken).length l = (l', [name]) ∧
      Scene l' [] (inside ++ [(name, .write)]) [] (queue ++ (readers ++ woken)) := by
  have hbarred : ∀ field ∈ readers, l.admits field.2 = false := by
    intro field hmem
    rw [hreaders field hmem]
    exact hread
  rcases h.turns_refused hbarred with ⟨l₁, hturns₁, hsame₁, hscene₁⟩
  rcases hscene₁.turn_admitted (by rw [hsame₁]; exact hwrite) with ⟨l₂, hturn, hsame₂, hscene₂⟩
  have hnobody : ∀ mode, l₂.admits mode = false := by
    intro mode
    rw [hsame₂]
    cases mode <;> rfl
  have hscene₂' : Scene l₂ [] (inside ++ [(name, .write)]) (woken ++ []) (queue ++ readers) := by
    simpa using hscene₂
  rcases hscene₂'.turns_refused (fun field _ => hnobody field.2) with ⟨l', hturns₂, -, hscene'⟩
  refine ⟨l', ?_, by simpa using hscene'⟩
  rw [List.length_append, List.length_cons, turns_add, hturns₁,
    turns_succ hscene₁.ready_ne_nil hturn, hturns₂]
  rfl

/-!
# Waking all who sleep
-/

theorem Scene.notify (h : Scene l acting inside woken ((name, mode) :: queue)) :
    Scene (l.notify name) acting inside (woken ++ [(name, mode)]) queue := by
  have hcast : Cast l ((name, ⟨mode, true, .waiting none⟩) ::
      (acting ++ lines inside woken queue)) :=
    h.cast.perm (((lines_queue (List.Perm.refl _) inside woken).append_left acting).trans
      List.perm_middle)
  have htask := hcast.present _ _ List.mem_cons_self
  have hnotify : l.notify name =
      (l.put name ⟨mode, true, .waiting none⟩ (.waiting (some .notified))).makeReady name := by
    unfold Lock.notify
    rw [htask]
    simp only [Option.map_some]
    rw [setPhase_eq_put htask]
  rw [hnotify]
  constructor
  · have hready : l.ready ++ [name] = (woken ++ [(name, mode)]).names := by
      simp [h.ready_eq, Fields.names]
    exact hready
  · have hsleepers : l.sleepers = ((woken ++ [(name, mode)]) ++ queue).names := by
      simp [h.sleepers_eq]
    exact hsleepers
  · have hput := hcast.put (.waiting (some .notified))
    have hlines := (lines_woken (List.perm_append_singleton (name, mode) woken) inside queue).symm
    exact (hput.perm (List.perm_middle.symm.trans (hlines.append_left acting))).congr rfl

theorem Scene.notifyAll (h : Scene l acting inside [] queue) :
    Scene l.notifyAll acting inside queue [] := by
  have hfold : ∀ {queue woken : Fields Mode} {l : Lock}, Scene l acting inside woken queue →
      Scene (queue.names.foldl Lock.notify l) acting inside (woken ++ queue) [] := by
    intro queue
    induction queue with
    | nil =>
        intro woken l h
        rw [List.append_nil]
        exact h
    | cons field queue ih =>
        intro woken l h
        have hrest := ih h.notify
        rw [List.append_assoc] at hrest
        exact hrest
  unfold Lock.notifyAll
  rw [h.sleepers_eq]
  exact hfold h

end Lock
end TypedAnt
