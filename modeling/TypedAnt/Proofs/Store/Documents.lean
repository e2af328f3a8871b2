import Mathlib.Data.List.Induction
import Mathlib.Data.List.Nodup
import TypedAnt.Proofs.Store

/-!
# A store is a plain map

Calls made one after the other get from the store the answers that they would get from a map of
URIs to texts and generations.  What such a map holds for a document is said by the calls alone:
it is what the last of them to put a text there has put, if the document was not closed and the
map not cleared since.
-/

namespace TypedAnt

namespace Store

def Call.runAll {σ : Type} (run : σ → Call → σ × Answer) (s : σ) : List Call → σ × List Answer
  | [] => (s, [])
  | call :: rest =>
      let (s, answer) := run s call
      let (s, answers) := runAll run s rest
      (s, answer :: answers)

theorem Call.runAll_cons {σ : Type} (run : σ → Call → σ × Answer) (s : σ) (call : Call)
    (rest : List Call) :
    runAll run s (call :: rest) =
      ((runAll run (run s call).1 rest).1, (run s call).2 :: (runAll run (run s call).1 rest).2) :=
  rfl

theorem Call.runAll_append {σ : Type} (run : σ → Call → σ × Answer) (s : σ)
    (calls more : List Call) :
    runAll run s (calls ++ more) =
      ((runAll run (runAll run s calls).1 more).1,
        (runAll run s calls).2 ++ (runAll run (runAll run s calls).1 more).2) := by
  induction calls generalizing s with
  | nil => rfl
  | cons call rest ih => rw [List.cons_append, runAll_cons, runAll_cons, ih, List.cons_append]

@[simp] theorem Call.length_runAll {σ : Type} (run : σ → Call → σ × Answer) (s : σ)
    (calls : List Call) : (runAll run s calls).2.length = calls.length := by
  induction calls generalizing s with
  | nil => rfl
  | cons call rest ih => rw [runAll_cons, List.length_cons, List.length_cons, ih]

end Store

/-- The text and the generation of every open document, and how many generations were issued. -/
structure Documents where
  held : String → Option (String × Nat) := fun _ => none
  issued : Nat := 0

namespace Documents

def run (d : Documents) : Store.Call → Documents × Store.Answer
  | .put uri text =>
      let generation := d.issued + 1
      (⟨fun name => if name = uri then some (text, generation) else d.held name, generation⟩,
        .generation generation)
  | .close uri => ({ d with held := fun name => if name = uri then none else d.held name }, .done)
  | .clear => ({ d with held := fun _ => none }, .done)
  | .get uri => (d, .text ((d.held uri).map Prod.fst))
  | .snapshot uri => (d, .snapshot ((d.held uri).map fun entry => ⟨uri, entry.1, entry.2⟩))
  | .isCurrent uri generation =>
      (d, .current ((d.held uri).any fun entry => generation == entry.2))

def after (calls : List Store.Call) : Documents :=
  (Store.Call.runAll run {} calls).1

end Documents

namespace Store

structure Shows (s : Store) (d : Documents) : Prop where
  issued_eq : s.issued = d.issued
  snapshot_eq : ∀ uri, s.snapshot? uri = (d.held uri).map fun entry => ⟨uri, entry.1, entry.2⟩

theorem shows_empty : Shows {} {} :=
  ⟨rfl, fun _ => rfl⟩

theorem Shows.run {s : Store} {d : Documents} (h : s.Shows d) (call : Call) :
    (s.run call).1.Shows (d.run call).1 ∧ (s.run call).2 = (d.run call).2 := by
  cases call with
  | put uri text =>
      have hissued : s.issued + 1 = d.issued + 1 := congrArg (· + 1) h.issued_eq
      refine ⟨⟨hissued, ?_⟩, congrArg Answer.generation hissued⟩
      intro name
      change (s.put uri text).snapshot? name = _
      rw [snapshot?_put, h.snapshot_eq, hissued]
      by_cases hname : name = uri
      · simp [Documents.run, hname]
      · simp [Documents.run, hname]
  | close uri =>
      refine ⟨⟨h.issued_eq, ?_⟩, rfl⟩
      intro name
      change (s.close uri).snapshot? name = _
      rw [snapshot?_close, h.snapshot_eq]
      by_cases hname : name = uri
      · simp [Documents.run, hname]
      · simp [Documents.run, hname]
  | clear => exact ⟨⟨h.issued_eq, fun _ => rfl⟩, rfl⟩
  | get uri =>
      refine ⟨h, ?_⟩
      simp only [Store.run, Documents.run, h.snapshot_eq, Option.map_map]
      rfl
  | snapshot uri =>
      refine ⟨h, ?_⟩
      simp only [Store.run, Documents.run, h.snapshot_eq]
  | isCurrent uri generation =>
      refine ⟨h, ?_⟩
      simp only [Store.run, Documents.run, isCurrent, h.snapshot_eq, Option.any_map]

theorem Shows.runAll {s : Store} {d : Documents} (h : s.Shows d) (calls : List Call) :
    (Call.runAll Store.run s calls).1.Shows (Call.runAll Documents.run d calls).1 ∧
      (Call.runAll Store.run s calls).2 = (Call.runAll Documents.run d calls).2 := by
  induction calls generalizing s d with
  | nil => exact ⟨h, rfl⟩
  | cons call rest ih =>
      rcases h.run call with ⟨hshows, hanswer⟩
      rcases ih hshows with ⟨hrest, hanswers⟩
      rw [Call.runAll_cons, Call.runAll_cons, hanswer, hanswers]
      exact ⟨hrest, rfl⟩

/-!
# What the calls tell
-/

def Call.isPut : Call → Bool
  | put _ _ => true
  | _ => false

def puts (calls : List Call) : Nat :=
  calls.countP Call.isPut

/--
The last of the calls to touch a document has put the given text there, and with it the
generation that is its number among the calls that put a text.
-/
def LastPut (calls : List Call) (uri text : String) (generation : Nat) : Prop :=
  ∃ before after, calls = before ++ .put uri text :: after ∧
    (∀ call ∈ after, call.touches uri = false) ∧ generation = puts before + 1

theorem puts_concat (calls : List Call) (call : Call) :
    puts (calls ++ [call]) = puts calls + call.isPut.toNat := by
  unfold puts
  rw [List.countP_append, List.countP_singleton]
  cases call.isPut <;> rfl

theorem not_lastPut_nil {uri text : String} {generation : Nat} :
    ¬ LastPut [] uri text generation := by
  rintro ⟨before, after, hcalls, -⟩
  exact absurd hcalls (by simp)

theorem lastPut_concat_iff {calls : List Call} {call : Call} {uri text : String}
    {generation : Nat} :
    LastPut (calls ++ [call]) uri text generation ↔
      call = .put uri text ∧ generation = puts calls + 1 ∨
        call.touches uri = false ∧ LastPut calls uri text generation := by
  constructor
  · rintro ⟨before, after, hcalls, hafter, hgeneration⟩
    rcases List.eq_nil_or_concat after with rfl | ⟨middle, last, rfl⟩
    · rcases List.append_inj' hcalls rfl with ⟨rfl, hlast⟩
      exact .inl ⟨List.singleton_inj.mp hlast, hgeneration⟩
    · rw [List.concat_eq_append, ← List.cons_append, ← List.append_assoc] at hcalls
      rcases List.append_inj' hcalls rfl with ⟨rfl, hlast⟩
      cases List.singleton_inj.mp hlast
      refine .inr ⟨hafter call (by simp), before, middle, rfl, ?_, hgeneration⟩
      intro other hother
      exact hafter other (by simp [hother])
  · rintro (⟨rfl, hgeneration⟩ | ⟨htouches, before, after, rfl, hafter, hgeneration⟩)
    · exact ⟨calls, [], rfl, by simp, hgeneration⟩
    · refine ⟨before, after ++ [call], by simp, ?_, hgeneration⟩
      intro other hother
      rcases List.mem_append.mp hother with hmem | hmem
      · exact hafter other hmem
      · rw [List.mem_singleton.mp hmem]
        exact htouches

theorem LastPut.generation_le {calls : List Call} {uri text : String} {generation : Nat}
    (h : LastPut calls uri text generation) : generation ≤ puts calls := by
  rcases h with ⟨before, after, rfl, -, rfl⟩
  unfold puts
  rw [List.countP_append, List.countP_cons_of_pos rfl]
  omega

/-- No two documents have a text of the same generation. -/
theorem LastPut.unique {calls : List Call} {uri text other text' : String} {generation : Nat}
    (h : LastPut calls uri text generation) (h' : LastPut calls other text' generation) :
    other = uri := by
  induction calls using List.reverseRecOn with
  | nil => exact absurd h not_lastPut_nil
  | append_singleton calls call ih =>
      rw [lastPut_concat_iff] at h h'
      rcases h with ⟨rfl, hnew⟩ | ⟨_, hold⟩
      · rcases h' with ⟨hcall, _⟩ | ⟨_, hold'⟩
        · cases hcall
          rfl
        · have hle := hold'.generation_le
          omega
      · rcases h' with ⟨_, hnew'⟩ | ⟨_, hold'⟩
        · have hle := hold.generation_le
          omega
        · exact ih hold hold'

end Store

namespace Documents

open Store

theorem after_concat (calls : List Call) (call : Call) :
    after (calls ++ [call]) = ((after calls).run call).1 := by
  unfold after
  rw [Call.runAll_append]
  rfl

theorem issued_after (calls : List Call) : (after calls).issued = puts calls := by
  induction calls using List.reverseRecOn with
  | nil => rfl
  | append_singleton calls call ih =>
      rw [after_concat, puts_concat, ← ih]
      cases call <;> rfl

theorem held_after_iff {calls : List Call} {uri text : String} {generation : Nat} :
    (after calls).held uri = some (text, generation) ↔ LastPut calls uri text generation := by
  induction calls using List.reverseRecOn with
  | nil =>
      constructor
      · intro h
        cases h
      · intro h
        exact absurd h not_lastPut_nil
  | append_singleton calls call ih =>
      rw [after_concat, lastPut_concat_iff, ← ih, ← issued_after]
      cases call with
      | put name text' =>
          by_cases hname : uri = name
          · simp [run, Call.touches, hname, eq_comm]
          · simp [run, Call.touches, hname, Ne.symm hname]
      | close name =>
          by_cases hname : uri = name
          · simp [run, Call.touches, hname]
          · simp [run, Call.touches, hname, Ne.symm hname]
      | clear => simp [run, Call.touches]
      | get name => simp [run, Call.touches]
      | snapshot name => simp [run, Call.touches]
      | isCurrent name generation' => simp [run, Call.touches]

end Documents

namespace Store

/-- What a call is to be answered after other calls. -/
def Call.Answered (before : List Call) : Call → Answer → Prop
  | put _ _, answer => answer = .generation (puts before + 1)
  | close _, answer => answer = .done
  | clear, answer => answer = .done
  | get uri, answer =>
      ∃ found, answer = .text found ∧
        ∀ text, found = some text ↔ ∃ generation, LastPut before uri text generation
  | snapshot uri, answer =>
      ∃ found, answer = .snapshot found ∧
        ∀ snap, found = some snap ↔
          snap.uri = uri ∧ LastPut before uri snap.text snap.generation
  | isCurrent uri generation, answer =>
      ∃ yes, answer = .current yes ∧
        (yes = true ↔ ∃ text n, LastPut before uri text n ∧ generation = n)

theorem answered_run (before : List Call) (call : Call) :
    call.Answered before ((Documents.after before).run call).2 := by
  cases call with
  | put uri text =>
      have hissued := Documents.issued_after before
      exact congrArg (fun issued => Answer.generation (issued + 1)) hissued
  | close uri => rfl
  | clear => rfl
  | get uri =>
      refine ⟨_, rfl, ?_⟩
      intro text
      simp [← Documents.held_after_iff]
  | snapshot uri =>
      refine ⟨_, rfl, ?_⟩
      rintro ⟨name, text, generation⟩
      simp only [← Documents.held_after_iff, Option.map_eq_some_iff, Snapshot.mk.injEq]
      constructor
      · rintro ⟨entry, hentry, rfl, rfl, rfl⟩
        exact ⟨rfl, hentry⟩
      · rintro ⟨rfl, hentry⟩
        exact ⟨(text, generation), hentry, rfl, rfl, rfl⟩
  | isCurrent uri generation =>
      refine ⟨_, rfl, ?_⟩
      simp only [← Documents.held_after_iff, Option.any_eq_true, beq_iff_eq]
      constructor
      · rintro ⟨⟨text, n⟩, hentry, hgeneration⟩
        exact ⟨text, n, hentry, hgeneration⟩
      · rintro ⟨text, n, hentry, hgeneration⟩
        exact ⟨(text, n), hentry, hgeneration⟩

theorem answered_runAll {before after : List Call} {call : Call} {earlier later : List Answer}
    {answer : Answer} (hlength : earlier.length = before.length)
    (h : (Call.runAll run {} (before ++ call :: after)).2 = earlier ++ answer :: later) :
    call.Answered before answer := by
  rw [(shows_empty.runAll _).2, Call.runAll_append, Call.runAll_cons] at h
  have hsplit := List.append_inj h (by rw [Call.length_runAll, hlength])
  rw [← (List.cons_eq_cons.mp hsplit.2).1]
  exact answered_run before call

/-!
# Generations
-/

theorem nodup_names_run {s : Store} (h : s.documents.names.Nodup) (call : Call) :
    (s.run call).1.documents.names.Nodup := by
  cases call with
  | put uri text => exact Fields.nodup_names_set h uri _
  | close uri => exact Fields.nodup_names_erase h uri
  | clear => exact List.nodup_nil
  | get uri => exact h
  | snapshot uri => exact h
  | isCurrent uri generation => exact h

theorem nodup_names_runAll {s : Store} (h : s.documents.names.Nodup) (calls : List Call) :
    (Call.runAll run s calls).1.documents.names.Nodup := by
  induction calls generalizing s with
  | nil => exact h
  | cons call rest ih => exact ih (nodup_names_run h call)

theorem snapshot?_runAll_iff {calls : List Call} {uri : String} {snap : Snapshot} :
    (Call.runAll run {} calls).1.snapshot? uri = some snap ↔
      snap.uri = uri ∧ LastPut calls uri snap.text snap.generation := by
  rcases answered_run calls (.snapshot uri) with ⟨found, hanswer, hfound⟩
  have hshows := (shows_empty.runAll calls).1.snapshot_eq uri
  rw [← hfound snap, hshows]
  cases hanswer
  rfl

theorem nodup_names_calls (calls : List Call) :
    (Call.runAll run {} calls).1.documents.names.Nodup :=
  nodup_names_runAll (s := {}) List.nodup_nil calls

theorem nodup_generations (calls : List Call) :
    ((Call.runAll run {} calls).1.documents.map fun field => field.2.generation).Nodup := by
  have hnames := nodup_names_calls calls
  refine List.Nodup.map_on ?_ (List.Nodup.of_map _ hnames)
  rintro ⟨uri, snap⟩ hmem ⟨other, snap'⟩ hmem' hgeneration
  have hget := Fields.get?_of_mem hnames hmem
  have hget' := Fields.get?_of_mem hnames hmem'
  have hlast := (snapshot?_runAll_iff.mp hget).2
  have hlast' := (snapshot?_runAll_iff.mp hget').2
  rw [← hgeneration] at hlast'
  cases hlast.unique hlast'
  cases hget.symm.trans hget'
  rfl

theorem generation_lt {calls : List Call} {field : String × Snapshot}
    (h : field ∈ (Call.runAll run {} calls).1.documents) :
    field.2.generation < puts calls + 1 := by
  have hget := Fields.get?_of_mem (nodup_names_calls calls) h
  exact Nat.lt_succ_of_le (snapshot?_runAll_iff.mp hget).2.generation_le

end Store
end TypedAnt
