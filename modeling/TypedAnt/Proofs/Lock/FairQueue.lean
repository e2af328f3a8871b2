import TypedAnt.Lock
import TypedAnt.Proofs.Fields

/-!
# A fair lock

A lock whose writers and readers wait in two queues, first come, first served.  A writer that
waits goes before all readers that wait, and when there is none they all go inside together.
-/

namespace TypedAnt

inductive Lock.Request where
  | read (name : String)
  | write (name : String)
  | release (name : String)
  | fail (name : String)
  | cancel (name : String)
deriving DecidableEq, Repr

structure FairLock where
  readers : List String := []
  writer : Option String := none
  /-- The writers that wait, the oldest first. -/
  waitingWriters : List String := []
  /-- The readers that wait, the oldest first. -/
  waitingReaders : List String := []
deriving DecidableEq, Repr

namespace FairLock

open Lock (Mode Request)

def names (f : FairLock) : List String :=
  f.readers ++ f.writer.toList ++ f.waitingWriters ++ f.waitingReaders

def read (f : FairLock) (name : String) : FairLock × List String :=
  if f.writer = none ∧ f.waitingWriters = [] then
    ({ f with readers := f.readers ++ [name] }, [name])
  else ({ f with waitingReaders := f.waitingReaders ++ [name] }, [])

def write (f : FairLock) (name : String) : FairLock × List String :=
  if f.writer = none ∧ f.readers = [] then ({ f with writer := some name }, [name])
  else ({ f with waitingWriters := f.waitingWriters ++ [name] }, [])

/-- The oldest writer that waits goes inside or, if there is none, all readers that wait. -/
def letIn (f : FairLock) : FairLock × List String :=
  match f.waitingWriters with
  | name :: rest => ({ f with writer := some name, waitingWriters := rest }, [name])
  | [] => ({ f with readers := f.readers ++ f.waitingReaders, waitingReaders := [] },
      f.waitingReaders)

/-- A writer that leaves, and the last reader that does, make room for others. -/
def leave (f : FairLock) (name : String) : FairLock × List String :=
  if f.writer = some name then { f with writer := none }.letIn
  else if name ∈ f.readers then
    let left := { f with readers := f.readers.erase name }
    if left.readers = [] then left.letIn else (left, [])
  else (f, [])

/--
A task that waits is taken out of its queue.  If it was the last writer to wait and no writer
holds the lock, there is nothing left to keep readers out.
-/
def cancel (f : FairLock) (name : String) : FairLock × List String :=
  if name ∈ f.waitingWriters ∨ name ∈ f.waitingReaders then
    let left := { f with
      waitingWriters := f.waitingWriters.erase name
      waitingReaders := f.waitingReaders.erase name }
    if left.waitingWriters = [] ∧ left.writer = none then left.letIn else (left, [])
  else f.leave name

/--
Serves a request, and names those who go inside, in order.  A name is given to one task at a
time, and only one who holds the lock can release it or fail.
-/
def serve (f : FairLock) : Request → FairLock × List String
  | .read name => if name ∈ f.names then (f, []) else f.read name
  | .write name => if name ∈ f.names then (f, []) else f.write name
  | .release name => f.leave name
  | .fail name => f.leave name
  | .cancel name => f.cancel name

/-!
# Queues out of one line

Tasks of both modes may stand in one line.  The fair lock has the writers and the readers of the
line in queues of their own.
-/

def ofMode (mode : Mode) (line : Fields Mode) : List String :=
  Fields.names (line.filter fun field => field.2 = mode)

def ofLines (inside queue : Fields Mode) : FairLock where
  readers := ofMode .read inside
  writer := (ofMode .write inside).head?
  waitingWriters := ofMode .write queue
  waitingReaders := ofMode .read queue

variable {mode : Mode} {name : String} {line inside queue : Fields Mode}

theorem mem_ofMode : name ∈ ofMode mode line ↔ (name, mode) ∈ line := by
  simp [ofMode, Fields.names]

@[simp] theorem ofMode_nil (mode : Mode) : ofMode mode [] = [] := rfl

@[simp] theorem ofMode_append (mode : Mode) (line more : Fields Mode) :
    ofMode mode (line ++ more) = ofMode mode line ++ ofMode mode more := by
  simp [ofMode, Fields.names]

theorem ofMode_cons (mode : Mode) (field : String × Mode) (line : Fields Mode) :
    ofMode mode (field :: line) =
      if field.2 = mode then field.1 :: ofMode mode line else ofMode mode line := by
  by_cases h : field.2 = mode
  · simp [ofMode, Fields.names, h]
  · simp [ofMode, Fields.names, h]

theorem ofMode_eq_nil_iff : ofMode mode line = [] ↔ ∀ name, (name, mode) ∉ line := by
  simp [List.eq_nil_iff_forall_not_mem, mem_ofMode]

theorem ofMode_of_forall (h : ∀ field ∈ line, field.2 = mode) :
    ofMode mode line = line.names := by
  have hall : line.filter (fun field => field.2 = mode) = line := by
    rw [List.filter_eq_self]
    intro field hmem
    simpa using h field hmem
  rw [ofMode, hall]

theorem ofMode_erase (h : line.names.Nodup) (mode : Mode) (name : String) :
    ofMode mode (Fields.erase line name) = (ofMode mode line).erase name := by
  have hnodup : (ofMode mode line).Nodup := h.sublist (List.filter_sublist.map Prod.fst)
  rw [hnodup.erase_eq_filter]
  unfold ofMode Fields.erase Fields.names
  rw [List.filter_map, List.filter_filter, List.filter_filter]
  congr 1
  apply List.filter_congr
  intro field _
  exact Bool.and_comm _ _

theorem readers_or_first_writer (line : Fields Mode) :
    (∀ field ∈ line, field.2 = .read) ∨
      ∃ readers name rest, line = readers ++ (name, .write) :: rest ∧
        ∀ field ∈ readers, field.2 = .read := by
  induction line with
  | nil =>
      left
      intro field hmem
      cases hmem
  | cons field line ih =>
      rcases field with ⟨name, mode⟩
      cases mode with
      | write => exact .inr ⟨[], name, line, rfl, by simp⟩
      | read =>
          rcases ih with hreaders | ⟨readers, first, rest, rfl, hreaders⟩
          · left
            exact List.forall_mem_cons.mpr ⟨rfl, hreaders⟩
          · right
            exact ⟨(name, .read) :: readers, first, rest, rfl,
              List.forall_mem_cons.mpr ⟨rfl, hreaders⟩⟩

theorem ofMode_write_eq_nil_iff : ofMode .write line = [] ↔ ∀ field ∈ line, field.2 = .read := by
  rw [ofMode_eq_nil_iff]
  constructor
  · rintro hnone ⟨name, mode⟩ hmem
    cases mode with
    | read => rfl
    | write => exact absurd hmem (hnone name)
  · intro hreaders name hmem
    cases hreaders (name, .write) hmem

theorem exists_writer_iff :
    (∃ name, (name, .write) ∈ inside ∨ (name, .write) ∈ queue) ↔
      ¬ (ofMode .write queue = [] ∧ ofMode .write inside = []) := by
  rw [ofMode_eq_nil_iff, ofMode_eq_nil_iff]
  constructor
  · rintro ⟨name, hmem | hmem⟩ ⟨hqueue, hinside⟩
    · exact hinside name hmem
    · exact hqueue name hmem
  · intro hwriter
    apply Classical.byContradiction
    intro hnone
    simp only [not_exists, not_or] at hnone
    exact hwriter ⟨fun name => (hnone name).2, fun name => (hnone name).1⟩

/-- Where no writer waits and none is inside, the whole line goes inside. -/
theorem letIn_readers (hinside : ∀ field ∈ inside, field.2 = .read)
    (hqueue : ∀ field ∈ queue, field.2 = .read) :
    (ofLines inside queue).letIn = (ofLines (inside ++ queue) [], queue.names) := by
  simp [letIn, ofLines, ofMode_write_eq_nil_iff.mpr hinside, ofMode_write_eq_nil_iff.mpr hqueue,
    ofMode_of_forall hqueue]

/-- The first writer of a line goes inside past the readers in front of it. -/
theorem letIn_writer {readers rest : Fields Mode} (hreaders : ∀ field ∈ readers, field.2 = .read) :
    (ofLines [] (readers ++ (name, .write) :: rest)).letIn =
      (ofLines [(name, .write)] (readers ++ rest), [name]) := by
  simp [letIn, ofLines, ofMode_write_eq_nil_iff.mpr hreaders, ofMode_cons]

/-!
# Requests that find the tasks in lines
-/

theorem mem_ofMode_or :
    name ∈ ofMode .write line ∨ name ∈ ofMode .read line ↔ name ∈ line.names := by
  rw [mem_ofMode, mem_ofMode, Fields.mem_names]
  constructor
  · rintro (hmem | hmem)
    · exact ⟨.write, hmem⟩
    · exact ⟨.read, hmem⟩
  · rintro ⟨mode, hmem⟩
    cases mode with
    | read => exact .inr hmem
    | write => exact .inl hmem

def Shared (inside : Fields Mode) : Prop :=
  (∃ name, inside = [(name, .write)]) ∨ ∀ field ∈ inside, field.2 = .read

theorem mem_names_ofLines (hinside : Shared inside) :
    name ∈ (ofLines inside queue).names ↔ name ∈ inside.names ∨ name ∈ queue.names := by
  simp only [names, ofLines, List.mem_append, or_assoc, mem_ofMode_or]
  rw [← or_assoc]
  rcases hinside with ⟨writer, rfl⟩ | hreaders
  · simp [ofMode_cons, Fields.names]
  · simp [ofMode_write_eq_nil_iff.mpr hreaders, ofMode_of_forall hreaders]

theorem writer_eq_some_iff (hinside : Shared inside) :
    (ofLines inside queue).writer = some name ↔ (name, .write) ∈ inside := by
  rcases hinside with ⟨writer, rfl⟩ | hreaders
  · simp [ofLines, ofMode_cons, eq_comm]
  · have hnone : ofMode .write inside = [] := ofMode_write_eq_nil_iff.mpr hreaders
    simp [ofLines, hnone, ofMode_eq_nil_iff.mp hnone name]

theorem read_ofLines {admits : Bool}
    (h : admits = true ↔ ∀ name, (name, .write) ∉ inside ∧ (name, .write) ∉ queue) :
    (ofLines inside queue).read name =
      if admits then (ofLines (inside ++ [(name, .read)]) queue, [name])
      else (ofLines inside (queue ++ [(name, .read)]), []) := by
  have hiff : (ofLines inside queue).writer = none ∧ (ofLines inside queue).waitingWriters = [] ↔
      admits = true := by
    rw [h, forall_and]
    simp only [ofLines, List.head?_eq_none_iff, ofMode_eq_nil_iff]
  simp only [read, hiff]
  split
  · simp [ofLines, ofMode_cons]
  · simp [ofLines, ofMode_cons]

theorem write_ofLines {admits : Bool} (h : admits = true ↔ inside = []) :
    (ofLines inside queue).write name =
      if admits then (ofLines (inside ++ [(name, .write)]) queue, [name])
      else (ofLines inside (queue ++ [(name, .write)]), []) := by
  have hiff : (ofLines inside queue).writer = none ∧ (ofLines inside queue).readers = [] ↔
      admits = true := by
    rw [h]
    simp only [ofLines, List.head?_eq_none_iff, ofMode_write_eq_nil_iff]
    constructor
    · rintro ⟨hreaders, hnone⟩
      rw [ofMode_of_forall hreaders] at hnone
      exact List.map_eq_nil_iff.mp hnone
    · rintro rfl
      simp
  simp only [write, hiff]
  split
  · rename_i hempty
    simp [ofLines, ofMode_cons, h.mp hempty]
  · simp [ofLines, ofMode_cons]

theorem leave_writer (name : String) (queue : Fields Mode) :
    (ofLines [(name, .write)] queue).leave name = (ofLines [] queue).letIn := by
  simp [leave, ofLines, ofMode_cons]

theorem leave_reader (hinside : ∀ field ∈ inside, field.2 = .read) (hdistinct : inside.names.Nodup)
    (hmem : name ∈ inside.names) :
    (ofLines inside queue).leave name =
      if inside.erase name = [] then (ofLines [] queue).letIn
      else (ofLines (inside.erase name) queue, []) := by
  have hnone : ofMode .write inside = [] := ofMode_write_eq_nil_iff.mpr hinside
  have hreaders : (ofLines inside queue).readers = inside.names := ofMode_of_forall hinside
  have hwriter : (ofLines inside queue).writer ≠ some name := by
    simp [ofLines, hnone]
  have hleft : { ofLines inside queue with readers := inside.names.erase name } =
      ofLines (inside.erase name) queue := by
    simp [ofLines, ofMode_erase hdistinct, hnone, ofMode_of_forall hinside]
  have hlast : inside.names.erase name = [] ↔ inside.erase name = [] := by
    rw [← Fields.names_erase hdistinct]
    exact List.map_eq_nil_iff
  simp only [leave, hreaders, if_neg hwriter, if_pos hmem, hleft, hlast]
  split
  · rename_i hempty
    rw [hempty]
  · rfl

theorem leave_absent (hname : name ∉ inside.names) :
    (ofLines inside queue).leave name = (ofLines inside queue, []) := by
  have hmodes : name ∉ ofMode .write inside ∧ name ∉ ofMode .read inside := by
    rw [← not_or, mem_ofMode_or]
    exact hname
  have hwriter : (ofLines inside queue).writer ≠ some name := by
    intro hhead
    exact hmodes.1 (List.mem_of_mem_head? hhead)
  have hreaders : name ∉ (ofLines inside queue).readers := hmodes.2
  rw [leave, if_neg hwriter, if_neg hreaders]

theorem cancel_waiting (hdistinct : queue.names.Nodup) (hmem : name ∈ queue.names) :
    (ofLines inside queue).cancel name =
      if ofMode .write (queue.erase name) = [] ∧ ofMode .write inside = [] then
        (ofLines inside (queue.erase name)).letIn
      else (ofLines inside (queue.erase name), []) := by
  have hwaits : name ∈ (ofLines inside queue).waitingWriters ∨
      name ∈ (ofLines inside queue).waitingReaders :=
    mem_ofMode_or.mpr hmem
  simp only [cancel, if_pos hwaits]
  simp only [ofLines, ofMode_erase hdistinct, List.head?_eq_none_iff]

theorem cancel_absent (hname : name ∉ queue.names) :
    (ofLines inside queue).cancel name = (ofLines inside queue).leave name := by
  have hwaits : ¬ (name ∈ (ofLines inside queue).waitingWriters ∨
      name ∈ (ofLines inside queue).waitingReaders) := by
    intro hwaits
    exact hname (mem_ofMode_or.mp hwaits)
  rw [cancel, if_neg hwaits]

end FairLock
end TypedAnt
