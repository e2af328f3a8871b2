import TypedAnt.Proofs.Scopes

/-!
# Two views of the open scopes

A name can be looked up from the inside to the outside, and all visible bindings can be listed
from the outside to the inside.  However the scopes have come about, the two views agree.  What
is done between the opening of a scope and its closing leaves the other scopes alone, but
for the built-in functions, which are always bound in the global scope.
-/

namespace TypedAnt
namespace Scopes

/-!
# Operations
-/

inductive Op where
  | seed
  | define (name : String) (type : Ty)
  | enter
  | exit

namespace Op

def seeds : Op → Bool
  | seed => true
  | _ => false

def opens : Op → Bool
  | enter => true
  | _ => false

def closes : Op → Bool
  | exit => true
  | _ => false

/-- As many scopes are closed as are opened, and never one that was not opened before. -/
structure Balanced (ops : List Op) : Prop where
  all : ops.countP closes = ops.countP opens
  each : ∀ k, (ops.take k).countP closes ≤ (ops.take k).countP opens

theorem balanced_seed : Balanced [seed] := by
  refine ⟨rfl, ?_⟩
  intro k
  cases k <;> simp [closes]

end Op

def apply (s : Scopes) : Op → Scopes
  | .seed => s.seed
  | .define name type => s.define name type
  | .enter => s.enter
  | .exit => s.exit

def applyAll (s : Scopes) (ops : List Op) : Scopes :=
  ops.foldl apply s

variable {s t : Scopes} {count : Nat}

/-!
# Names and their types
-/

theorem stack_seed (s : Scopes) : s.seed.stack = s.locals ++ [s.globals.setAll builtins] :=
  rfl

theorem Proper.seed (h : s.Proper) : s.seed.Proper := by
  rcases List.forall_mem_append.mp h with ⟨hlocals, hglobals⟩
  refine List.forall_mem_append.mpr ⟨hlocals, List.forall_mem_singleton.mpr ?_⟩
  exact Fields.nodup_names_setAll (hglobals s.globals List.mem_cons_self) builtins

theorem Proper.apply (h : s.Proper) (op : Op) : (s.apply op).Proper := by
  cases op with
  | seed => exact h.seed
  | define name type => exact h.define name type
  | enter => exact All.enter h List.nodup_nil
  | exit => exact All.exit h

theorem Proper.applyAll (h : s.Proper) (ops : List Op) : (s.applyAll ops).Proper := by
  induction ops generalizing s with
  | nil => exact h
  | cons op ops ih => exact ih (h.apply op)

theorem proper_empty : ({} : Scopes).Proper :=
  List.forall_mem_singleton.mpr List.nodup_nil

theorem mem_visible_iff_lookup (h : s.Proper) {name : String} {type : Ty} :
    (name, type) ∈ s.visible ↔ s.lookup name = some type := by
  rw [lookup_eq h]
  exact ⟨Fields.get?_of_mem s.nodup_visible, Fields.mem_of_get?⟩

/-!
# The order of the visible names
-/

theorem names_merged (scopes : List (Fields Ty)) :
    (merged scopes).names = (scopes.reverse.flatMap Fields.names).eraseDups := by
  induction scopes with
  | nil => rfl
  | cons inner outer ih =>
      have hsame : inner.names.removeAll (merged outer).names =
          inner.names.removeAll (outer.reverse.flatMap Fields.names) := by
        unfold List.removeAll
        apply List.filter_congr
        intro name _
        rw [ih]
        simp
      rw [merged_cons, Fields.names_setAll, hsame, ih, List.reverse_cons, List.flatMap_append,
        List.flatMap_singleton, List.eraseDups_append]

theorem names_visible (s : Scopes) :
    s.visible.names = (s.toList.flatMap Fields.names).eraseDups := by
  rw [visible_eq_merged, names_merged, toList_eq]

theorem visible_define (h : s.Proper) (name : String) (type : Ty) :
    (s.define name type).visible = s.visible.set name type := by
  have hinner : s.innermost.names.Nodup := by
    apply h
    rw [stack_eq]
    exact List.mem_cons_self
  rw [visible_eq_merged, visible_eq_merged, stack_define, s.stack_eq, merged_cons, merged_cons,
    List.tail_cons, Fields.setAll_set _ hinner]

/-!
# Between the opening and the closing of a scope
-/

theorem stack_inj (h : s.stack = t.stack) : s = t := by
  rcases List.append_inj' h rfl with ⟨hlocals, hglobals⟩
  rcases s with ⟨globals, locals⟩
  rcases t with ⟨globals', locals'⟩
  cases hlocals
  cases hglobals
  rfl

theorem seed_seed (s : Scopes) : s.seed.seed = s.seed := by
  have hnames : builtins.names.Nodup := by
    decide
  unfold seed
  rw [Fields.setAll_setAll _ hnames]

theorem StandsOn.enter (h : s.StandsOn t count) : s.enter.StandsOn t (count + 1) := by
  rcases h with ⟨opened, hstack, rfl⟩
  exact ⟨[] :: opened, congrArg ([] :: ·) hstack, rfl⟩

theorem StandsOn.define (h : s.StandsOn t (count + 1)) (name : String) (type : Ty) :
    (s.define name type).StandsOn t (count + 1) := by
  rcases h with ⟨opened, hstack, hcount⟩
  cases opened with
  | nil => cases hcount
  | cons inner opened =>
      exact ⟨inner.set name type :: opened, stack_define_of hstack name type, hcount⟩

theorem StandsOn.exit (h : s.StandsOn t (count + 1)) : s.exit.StandsOn t count := by
  rcases h with ⟨opened, hstack, hcount⟩
  cases opened with
  | nil => cases hcount
  | cons inner opened =>
      have hrest : opened ++ t.stack ≠ [] := by
        simp [stack]
      exact ⟨opened, stack_exit_of hstack hrest, Nat.succ.inj hcount⟩

theorem StandsOn.seed (h : s.StandsOn t count) : s.seed.StandsOn t.seed count := by
  rcases h with ⟨opened, hstack, rfl⟩
  refine ⟨opened, ?_, rfl⟩
  unfold stack at hstack
  rw [← List.append_assoc] at hstack
  rcases List.append_inj' hstack rfl with ⟨hlocals, hglobals⟩
  rw [stack_seed, stack_seed, ← List.append_assoc, hlocals, List.singleton_inj.mp hglobals]

/--
Operations that close no scope of `t` can only bind the built-in functions in its global scope.
-/
theorem StandsOn.applyAll {ops : List Op} {final : Nat} (h : s.StandsOn t (count + 1))
    (heach : ∀ k, (ops.take k).countP Op.closes ≤ count + (ops.take k).countP Op.opens)
    (hall : count + ops.countP Op.opens = final + ops.countP Op.closes) :
    (s.applyAll ops).StandsOn (if ops.any Op.seeds then t.seed else t) (final + 1) := by
  induction ops generalizing s t count with
  | nil =>
      cases hall
      exact h
  | cons op ops ih =>
      have hnext : ∀ k, (ops.take k).countP Op.closes + (if op.closes then 1 else 0) ≤
          count + ((ops.take k).countP Op.opens + if op.opens then 1 else 0) := by
        intro k
        simpa only [List.take_succ_cons, List.countP_cons] using heach (k + 1)
      rw [List.countP_cons, List.countP_cons] at hall
      cases op with
      | seed =>
          have hseeded := ih h.seed hnext hall
          rw [seed_seed, ite_self] at hseeded
          exact hseeded
      | define name type => exact ih (h.define name type) hnext hall
      | enter =>
          refine ih h.enter ?_ ?_
          · intro k
            have hk : (ops.take k).countP Op.closes + 0 ≤
              count + ((ops.take k).countP Op.opens + 1) := hnext k
            omega
          · have hsum : count + (ops.countP Op.opens + 1) =
              final + (ops.countP Op.closes + 0) := hall
            omega
      | exit =>
          have hclosed : ∀ k, (ops.take k).countP Op.closes + 1 ≤
            count + ((ops.take k).countP Op.opens + 0) := hnext
          have hsum : count + (ops.countP Op.opens + 0) =
            final + (ops.countP Op.closes + 1) := hall
          cases count with
          | zero => exact absurd (hclosed 0) (by simp)
          | succ count =>
              refine ih h.exit ?_ (by omega)
              intro k
              have hk := hclosed k
              omega

theorem exit_applyAll_enter (s : Scopes) {ops : List Op} (h : Op.Balanced ops) :
    (s.enter.applyAll ops).exit = if ops.any Op.seeds then s.seed else s := by
  have hopened : s.enter.StandsOn s 1 := s.standsOn_refl.enter
  have hinside := hopened.applyAll (by simpa using h.each)
    (show 0 + ops.countP Op.opens = 0 + ops.countP Op.closes by rw [h.all])
  rcases hinside.exit with ⟨opened, hstack, hnone⟩
  rw [List.length_eq_zero_iff.mp hnone] at hstack
  exact stack_inj hstack

/--
Whatever has been done to the scopes, some scope is open and no visible name is listed twice.
The list has a name with a type exactly if a look-up of the name finds the type.  Its names are in
the order in which they first occur in the scopes, from the outermost to the innermost, and a
name that is defined again keeps its place.  Operations that close just those scopes that they
have opened, between the opening of a scope and its closing, leave all scopes as they were before
the opening; if the built-in functions are bound among them, it is as if they had been bound
before it.
-/
theorem views_agree (ops : List Op) :
    let s := ({} : Scopes).applyAll ops
    1 ≤ s.depth ∧ s.visible.names.Nodup ∧
      (∀ name type, (name, type) ∈ s.visible ↔ s.lookup name = some type) ∧
      s.visible.names = (s.toList.flatMap Fields.names).eraseDups ∧
      (∀ name type, name ∈ s.visible.names →
        (s.define name type).visible.names = s.visible.names) ∧
      ∀ inside, Op.Balanced inside →
        (s.enter.applyAll inside).exit = if inside.any Op.seeds then s.seed else s := by
  intro s
  have hproper : s.Proper := proper_empty.applyAll ops
  refine ⟨?_, s.nodup_visible, ?_, s.names_visible, ?_, ?_⟩
  · simp [depth_eq, stack]
  · intro name type
    exact mem_visible_iff_lookup hproper
  · intro name type hname
    rw [visible_define hproper, Fields.names_set_of_mem hname]
  · intro inside hinside
    exact s.exit_applyAll_enter hinside

def shadowing : List Op :=
  [.define "x" .int, .seed, .enter, .define "x" .str]

theorem views_agree_shadowing :
    let s := ({} : Scopes).applyAll shadowing
    let inside : List Op := [.define "y" .bool, .enter, .define "x" .bool, .exit]
    s.visible.names = ["x", "print", "len", "str", "int", "float"] ∧
      s.lookup "x" = some .str ∧ ("x", .str) ∈ s.visible ∧
      (s.define "len" .bool).visible.names = s.visible.names ∧
      Op.Balanced inside ∧ (s.enter.applyAll inside).exit = s ∧
      Op.Balanced [.seed] ∧ (s.enter.applyAll [.seed]).exit = s.seed := by
  intro s inside
  rcases views_agree shadowing with ⟨_, _, hviews, _, hkept, hbetween⟩
  have hbalanced : Op.Balanced inside := by
    refine ⟨rfl, ?_⟩
    intro k
    rcases k with _ | _ | _ | _ | k <;> simp [inside, Op.closes, Op.opens]
  exact ⟨rfl, rfl, (hviews "x" .str).mpr rfl, hkept "len" .bool (by decide), hbalanced,
    hbetween inside hbalanced, Op.balanced_seed, hbetween [.seed] Op.balanced_seed⟩

theorem seeding_outlives_scope :
    ¬ ∀ ops inside : List Op, Op.Balanced inside →
      ((({} : Scopes).applyAll ops).enter.applyAll inside).exit = ({} : Scopes).applyAll ops := by
  intro h
  have hglobals := congrArg globals (h [] [.seed] Op.balanced_seed)
  cases hglobals

end Scopes
end TypedAnt
