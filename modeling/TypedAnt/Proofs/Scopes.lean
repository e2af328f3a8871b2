import TypedAnt.Proofs.Fields
import TypedAnt.Proofs.Typing.Checking

/-!
# Scopes one by one

What a definition does to each of the open scopes, and which names are bound in any of them.
-/

namespace TypedAnt
namespace Scopes

def innermost (s : Scopes) : Fields Ty :=
  s.locals.headD s.globals

theorem stack_eq (s : Scopes) : s.stack = s.innermost :: s.stack.tail := by
  unfold stack innermost
  cases s.locals <;> rfl

theorem toList_eq (s : Scopes) : s.toList = s.stack.reverse := by
  simp [toList, stack]

theorem depth_eq (s : Scopes) : s.depth = s.stack.length := by
  rw [depth, toList_eq, List.length_reverse]

theorem stack_define (s : Scopes) (name : String) (type : Ty) :
    (s.define name type).stack = s.innermost.set name type :: s.stack.tail := by
  unfold stack innermost define
  cases s.locals <;> rfl

theorem innermost_define (s : Scopes) (name : String) (type : Ty) :
    (s.define name type).innermost = s.innermost.set name type := by
  unfold innermost define
  cases s.locals <;> rfl

theorem stack_define_of {s : Scopes} {inner : Fields Ty} {rest : List (Fields Ty)}
    (h : s.stack = inner :: rest) (name : String) (type : Ty) :
    (s.define name type).stack = inner.set name type :: rest := by
  have hcons := s.stack_eq
  rw [h, List.cons.injEq] at hcons
  rw [stack_define, ← hcons.1, h]
  rfl

theorem stack_exit_of {s : Scopes} {inner : Fields Ty} {rest : List (Fields Ty)}
    (h : s.stack = inner :: rest) (hrest : rest ≠ []) : s.exit.stack = rest := by
  unfold stack at h
  unfold exit stack
  cases hlocals : s.locals with
  | nil =>
      rw [hlocals] at h
      cases h
      exact absurd rfl hrest
  | cons first outer =>
      rw [hlocals] at h
      cases h
      rfl

theorem stack_of_below {s outer : Scopes} (h : s.below = some outer) :
    s.stack = s.innermost :: outer.stack := by
  unfold below at h
  unfold stack innermost
  cases hlocals : s.locals with
  | nil =>
      rw [hlocals] at h
      cases h
  | cons inner rest =>
      rw [hlocals] at h
      cases h
      rfl

/-- The scopes of `t` are open at the bottom of those of `s`, with `count` more on top of them. -/
def StandsOn (s t : Scopes) (count : Nat) : Prop :=
  ∃ opened, s.stack = opened ++ t.stack ∧ opened.length = count

theorem standsOn_refl (s : Scopes) : s.StandsOn s 0 :=
  ⟨[], rfl, rfl⟩

theorem StandsOn.below {s t outer : Scopes} {count : Nat} (h : s.StandsOn t count)
    (hbelow : t.below = some outer) : s.StandsOn outer (count + 1) := by
  rcases h with ⟨opened, hstack, rfl⟩
  refine ⟨opened ++ [t.innermost], ?_, by simp⟩
  rw [hstack, stack_of_below hbelow, List.append_assoc]
  rfl

/-- Every binding of every scope is still there, with its type. -/
def Retains (s t : Scopes) : Prop :=
  List.Forall₂ (fun (before after : Fields Ty) =>
    ∀ name type, before.get? name = some type → after.get? name = some type) s.stack t.stack

theorem retains_refl (s : Scopes) : s.Retains s := by
  apply List.forall₂_same.mpr
  intro scope _ name type h
  exact h

theorem retains_define {s : Scopes} {name : String} (h : s.Unbound name) (type : Ty) :
    s.Retains (s.define name type) := by
  have hnone : s.innermost.get? name = none := by
    apply h
    rw [stack_eq]
    exact List.mem_cons_self
  unfold Retains
  rw [stack_define, stack_eq]
  constructor
  · intro other found hget
    rw [Fields.get?_set]
    split
    · rename_i heq
      rw [heq, hnone] at hget
      cases hget
    · exact hget
  · apply List.forall₂_same.mpr
    intro scope _ other found hget
    exact hget

def All (P : Fields Ty → Prop) (s : Scopes) : Prop :=
  ∀ scope ∈ s.stack, P scope

section All

variable {P : Fields Ty → Prop} {s : Scopes}

theorem All.enter (h : s.All P) (hnew : P []) : s.enter.All P :=
  List.forall_mem_cons.mpr ⟨hnew, h⟩

theorem All.exit (h : s.All P) : s.exit.All P := by
  intro scope hscope
  apply h
  rcases List.mem_append.mp hscope with hlocal | hglobal
  · exact List.mem_append_left _ (List.mem_of_mem_tail hlocal)
  · exact List.mem_append_right _ hglobal

theorem All.define {name : String} {type : Ty} (h : s.All P)
    (hset : ∀ scope, P scope → P (scope.set name type)) : (s.define name type).All P := by
  unfold All at h ⊢
  rw [s.stack_eq, List.forall_mem_cons] at h
  rw [stack_define]
  exact List.forall_mem_cons.mpr ⟨hset _ h.1, h.2⟩

end All

/-!
# Names that are bound
-/

def Bound (s : Scopes) (name : String) : Prop :=
  ∃ scope ∈ s.stack, name ∈ scope.names

variable {s : Scopes} {name : String}

theorem not_unbound_iff : ¬ s.Unbound name ↔ s.Bound name := by
  unfold Unbound Bound
  constructor
  · intro h
    push Not at h
    rcases h with ⟨scope, hmem, hget⟩
    exact ⟨scope, hmem, Fields.mem_names_iff.mpr (Option.ne_none_iff_exists'.mp hget)⟩
  · intro h hnone
    rcases h with ⟨scope, hmem, hname⟩
    rcases Fields.mem_names_iff.mp hname with ⟨type, hget⟩
    rw [hnone scope hmem] at hget
    cases hget

theorem bound_define_iff {key : String} {type : Ty} :
    (s.define key type).Bound name ↔ s.Bound name ∨ name = key := by
  unfold Bound
  rw [stack_define, s.stack_eq]
  simp only [List.mem_cons, exists_eq_or_imp, Fields.mem_names_set, List.tail_cons]
  rw [or_assoc, or_comm]

theorem bound_enter_iff : s.enter.Bound name ↔ s.Bound name := by
  have hstack : s.enter.stack = [] :: s.stack := rfl
  unfold Bound
  rw [hstack]
  simp [Fields.names]

theorem bound_defineAll_iff {bindings : List (Param × Ty)} :
    (s.defineAll bindings).Bound name ↔
      s.Bound name ∨ name ∈ bindings.map fun binding => binding.1.name.value := by
  induction bindings generalizing s with
  | nil => simp [defineAll]
  | cons binding rest ih =>
      have hrest : s.defineAll (binding :: rest) =
          (s.define binding.1.name.value binding.2).defineAll rest := rfl
      rw [hrest, ih, bound_define_iff, List.map_cons, List.mem_cons, or_assoc]

theorem bound_initial_iff : initial.Bound name ↔ ∃ b : Builtin, b.name = name := by
  have hstack : initial.stack = [builtins] := rfl
  unfold Bound
  rw [hstack]
  simp only [List.mem_singleton, exists_eq_left]
  constructor
  · intro h
    rcases List.mem_map.mp h with ⟨field, hfield, rfl⟩
    rcases List.mem_map.mp hfield with ⟨b, _, rfl⟩
    exact ⟨b, rfl⟩
  · intro h
    rcases h with ⟨b, rfl⟩
    cases b <;> decide

theorem mem_names_foldl_setAll {scopes : List (Fields Ty)} {fs : Fields Ty} :
    name ∈ (scopes.foldl Fields.setAll fs).names ↔
      name ∈ fs.names ∨ ∃ scope ∈ scopes, name ∈ scope.names := by
  induction scopes generalizing fs with
  | nil => simp
  | cons scope rest ih =>
      rw [List.foldl_cons, ih, Fields.mem_names_setAll, or_assoc]
      simp

theorem mem_visible_iff : name ∈ s.visible.names ↔ s.Bound name := by
  unfold visible Bound
  rw [mem_names_foldl_setAll, toList_eq]
  simp [Fields.names]

theorem nodup_visible (s : Scopes) : s.visible.names.Nodup := by
  have hfold : ∀ (scopes : List (Fields Ty)) (fs : Fields Ty), fs.names.Nodup →
      (scopes.foldl Fields.setAll fs).names.Nodup := by
    intro scopes
    induction scopes with
    | nil =>
        intro fs h
        exact h
    | cons scope rest ih =>
        intro fs h
        exact ih (fs.setAll scope) (Fields.nodup_names_setAll h scope)
  exact hfold s.toList [] List.nodup_nil

/-!
# Visible bindings

The visible bindings are those of all open scopes put together, from the outside to the inside.
-/

def Proper (s : Scopes) : Prop :=
  s.All fun scope => scope.names.Nodup

theorem Proper.define (h : s.Proper) (name : String) (type : Ty) : (s.define name type).Proper :=
  All.define h fun _ hscope => Fields.nodup_names_set hscope name type

/-- The bindings of scopes, the innermost first, where inner ones replace outer ones. -/
def merged (scopes : List (Fields Ty)) : Fields Ty :=
  scopes.foldr (fun inner outer => outer.setAll inner) []

theorem merged_cons (inner : Fields Ty) (outer : List (Fields Ty)) :
    merged (inner :: outer) = (merged outer).setAll inner := rfl

theorem visible_eq_merged (s : Scopes) : s.visible = merged s.stack := by
  unfold visible merged
  rw [toList_eq, List.foldl_reverse]

theorem get?_merged {scopes : List (Fields Ty)} (h : ∀ scope ∈ scopes, scope.names.Nodup) :
    (merged scopes).get? name = scopes.findSome? fun scope => scope.get? name := by
  induction scopes with
  | nil => rfl
  | cons inner outer ih =>
      rcases List.forall_mem_cons.mp h with ⟨hinner, houter⟩
      rw [merged_cons, Fields.get?_setAll _ hinner, ih houter, List.findSome?_cons]
      cases inner.get? name <;> rfl

theorem lookup_eq (h : s.Proper) (name : String) : s.lookup name = s.visible.get? name := by
  rw [visible_eq_merged, get?_merged h]
  rfl

theorem ofName?_eq_some_iff {b : Builtin} :
    Builtin.ofName? name = some b ↔ b.name = name := by
  constructor
  · intro h
    have hfound := List.find?_some h
    simpa using hfound
  · intro h
    subst h
    cases b <;> rfl

theorem isBuiltin_iff : s.isBuiltin name = true ↔
    ∃ b : Builtin, b.name = name ∧ s.Binds name (.builtin b) := by
  unfold isBuiltin
  constructor
  · intro h
    split at h
    · rename_i b found hname hlookup
      cases beq_iff_eq.mp h
      exact ⟨b, ofName?_eq_some_iff.mp hname, lookup_eq_some_iff.mp hlookup⟩
    · cases h
  · intro h
    rcases h with ⟨b, hname, hbinds⟩
    rw [ofName?_eq_some_iff.mpr hname, lookup_eq_some_iff.mpr hbinds]
    exact beq_self_eq_true b

end Scopes
end TypedAnt
