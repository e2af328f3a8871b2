import TypedAnt.Typing
import TypedAnt.Proofs.Program.Height
import TypedAnt.Proofs.Typing.Rules

/-!
# The types that are inferred

An expression is given a type exactly if it has that type by the rules and is not too high
for the levels that may be opened.  So it has at most one type.
-/

namespace TypedAnt

/-!
# Names and operators
-/

namespace Scopes

theorem lookup_eq_some_iff {s : Scopes} {name : String} {type : Ty} :
    s.lookup name = some type ↔ s.Binds name type := by
  rw [lookup, List.findSome?_eq_some_iff]
  rfl

theorem lookup_eq_none_iff {s : Scopes} {name : String} :
    s.lookup name = none ↔ s.Unbound name := by
  rw [lookup, List.findSome?_eq_none_iff]
  rfl

theorem Binds.unique {s : Scopes} {name : String} {type type' : Ty} (h : s.Binds name type)
    (h' : s.Binds name type') : type = type' := by
  have hlookup := lookup_eq_some_iff.mpr h
  cases hlookup.symm.trans (lookup_eq_some_iff.mpr h')
  rfl

theorem Binds.not_unbound {s : Scopes} {name : String} {type : Ty} (h : s.Binds name type) :
    ¬ s.Unbound name := by
  intro hunbound
  have hlookup := lookup_eq_some_iff.mpr h
  cases hlookup.symm.trans (lookup_eq_none_iff.mpr hunbound)

end Scopes

theorem UnaryOp.result?_eq_some_iff {op : UnaryOp} {inner type : Ty} :
    op.result? inner = some type ↔ op.Yields inner type := by
  constructor
  · intro h
    cases op with
    | neg =>
        simp only [result?, Option.ite_none_right_eq_some, Option.some.injEq] at h
        rcases h with ⟨hnumeric, rfl⟩
        exact .negated (Ty.isNumeric_iff.mp hnumeric)
    | not =>
        simp only [result?, Option.ite_none_right_eq_some, Option.some.injEq] at h
        rcases h with ⟨hbool, rfl⟩
        cases Ty.same_plain_iff.mp hbool
        exact .negation
  · intro h
    cases h with
    | negated hnumeric => simp [result?, Ty.isNumeric_iff.mpr hnumeric]
    | negation => simp [result?, Ty.bool]

namespace BinaryOp

variable {op : BinaryOp} {s t u : Ty}

theorem both_numeric_iff : (s.isNumeric && t.isNumeric) = true ↔ s.Numeric ∧ t.Numeric := by
  rw [Bool.and_eq_true, Ty.isNumeric_iff, Ty.isNumeric_iff]

theorem both_same_iff {name : String} :
    (s.same (.plain name) && t.same (.plain name)) = true ↔ s = .plain name ∧ t = .plain name := by
  rw [Bool.and_eq_true, Ty.same_plain_iff, Ty.same_plain_iff]

theorem yields_of_numeric (hop : op ∈ arithmetic) (hs : s.Numeric) (ht : t.Numeric) :
    op.Yields s t (if s.same .int && t.same .int then .int else .float) := by
  split
  · rename_i hints
    rcases both_same_iff.mp hints with ⟨rfl, rfl⟩
    exact .integers hop
  · rename_i hfloat
    apply Yields.floats hop hs ht
    rcases hs with rfl | rfl
    · rcases ht with rfl | rfl
      · exact absurd (both_same_iff.mpr ⟨rfl, rfl⟩) hfloat
      · exact .inr rfl
    · exact .inl rfl

theorem yields_of_result? (h : op.result? s t = some u) : op.Yields s t u := by
  cases op
  case add =>
    simp only [result?] at h
    split at h
    · rename_i hnumeric
      cases h
      exact yields_of_numeric (by decide) (both_numeric_iff.mp hnumeric).1
        (both_numeric_iff.mp hnumeric).2
    · simp only [Option.ite_none_right_eq_some, Option.some.injEq] at h
      rcases h with ⟨htexts, rfl⟩
      rcases both_same_iff.mp htexts with ⟨rfl, rfl⟩
      exact .texts
  case sub | mul | div | mod =>
    simp only [result?, Option.ite_none_right_eq_some, Option.some.injEq] at h
    rcases h with ⟨hnumeric, rfl⟩
    exact yields_of_numeric (by decide) (both_numeric_iff.mp hnumeric).1
      (both_numeric_iff.mp hnumeric).2
  case lt | le | gt | ge =>
    simp only [result?, Option.ite_none_right_eq_some, Option.some.injEq] at h
    rcases h with ⟨hnumeric, rfl⟩
    exact .ordered (by decide) (both_numeric_iff.mp hnumeric).1 (both_numeric_iff.mp hnumeric).2
  case eq | ne =>
    simp only [result?, Option.ite_none_right_eq_some, Option.some.injEq, Bool.or_eq_true] at h
    rcases h with ⟨hsame | hnumeric, rfl⟩
    · exact .equal (by decide) (Ty.same_iff.mp hsame)
    · exact .numbers (by decide) (both_numeric_iff.mp hnumeric).1 (both_numeric_iff.mp hnumeric).2
  case and | or =>
    simp only [result?, Option.ite_none_right_eq_some, Option.some.injEq] at h
    rcases h with ⟨hbools, rfl⟩
    rcases both_same_iff.mp hbools with ⟨rfl, rfl⟩
    exact .connected (by decide)

theorem result?_of_numeric (hop : op ∈ arithmetic) (hs : s.Numeric) (ht : t.Numeric) :
    op.result? s t = some (if s.same .int && t.same .int then .int else .float) := by
  have hnumeric := both_numeric_iff.mpr ⟨hs, ht⟩
  simp only [arithmetic, List.mem_cons, List.not_mem_nil, or_false] at hop
  rcases hop with rfl | rfl | rfl | rfl | rfl <;> simp only [result?, hnumeric, if_true]

theorem result?_of_yields (h : op.Yields s t u) : op.result? s t = some u := by
  cases h with
  | integers hop =>
      rw [result?_of_numeric hop (.inl rfl) (.inl rfl)]
      rfl
  | floats hop hs ht hfloat =>
      have hmixed : ¬ (s.same .int && t.same .int) = true := by
        intro hints
        rcases both_same_iff.mp hints with ⟨rfl, rfl⟩
        simp [Ty.float] at hfloat
      rw [result?_of_numeric hop hs ht, if_neg hmixed]
  | texts => rfl
  | ordered hop hs ht =>
      have hnumeric := both_numeric_iff.mpr ⟨hs, ht⟩
      simp only [orderings, List.mem_cons, List.not_mem_nil, or_false] at hop
      rcases hop with rfl | rfl | rfl | rfl <;> simp only [result?, hnumeric, if_true]
  | equal hop hequal =>
      have hsame := Ty.same_iff.mpr hequal
      simp only [comparisons, List.mem_cons, List.not_mem_nil, or_false] at hop
      rcases hop with rfl | rfl <;> simp only [result?, hsame, Bool.true_or, if_true]
  | numbers hop hs ht =>
      have hnumeric := both_numeric_iff.mpr ⟨hs, ht⟩
      simp only [comparisons, List.mem_cons, List.not_mem_nil, or_false] at hop
      rcases hop with rfl | rfl <;> simp only [result?, hnumeric, Bool.or_true, if_true]
  | connected hop =>
      simp only [connectives, List.mem_cons, List.not_mem_nil, or_false] at hop
      rcases hop with rfl | rfl <;> rfl

theorem result?_eq_some_iff : op.result? s t = some u ↔ op.Yields s t u :=
  ⟨yields_of_result?, result?_of_yields⟩

end BinaryOp

/-!
# Expressions
-/

theorem Except.bind_eq_ok_iff {ε α β : Type} {x : Except ε α} {f : α → Except ε β} {b : β} :
    x >>= f = .ok b ↔ ∃ a, x = .ok a ∧ f a = .ok b := by
  cases x with
  | error e => simp [bind, Except.bind]
  | ok a => simp [bind, Except.bind]

namespace Typing

theorem expect_eq_ok_iff {t : Token} {expected actual : Ty} {u : Unit} :
    expect t expected actual = .ok u ↔ expected.Accepts actual := by
  rw [← Ty.assignable_iff, expect]
  split <;> simp_all

theorem resolve_some_eq_ok_iff {t : Token} {type : Ty} :
    resolve (some t) = .ok type ↔ Ty.Named t.value type := by
  rw [← Ty.primitive?_eq_some_iff, resolve]
  split <;> simp_all

theorem resolve_eq_ok_iff {declared : Option Token} {type : Ty} :
    resolve declared = .ok type ↔ Returns declared type := by
  constructor
  · intro h
    cases declared with
    | none =>
        cases h
        exact .nothing
    | some t => exact .named (resolve_some_eq_ok_iff.mp h)
  · intro h
    cases h with
    | nothing => rfl
    | named hname => exact resolve_some_eq_ok_iff.mpr hname

theorem mapM_resolve_eq_ok_iff {params : List Param} {types : List Ty} :
    params.mapM (fun p => resolve (some p.type)) = .ok types ↔
      List.Forall₂ (fun p type => Ty.Named p.type.value type) params types := by
  induction params generalizing types with
  | nil =>
      rw [List.forall₂_nil_left_iff]
      constructor
      · intro h
        cases h
        rfl
      · intro h
        cases h
        rfl
  | cons p params ih =>
      rw [List.mapM_cons, List.forall₂_cons_left_iff, Except.bind_eq_ok_iff]
      constructor
      · intro h
        rcases h with ⟨type, htype, hrest⟩
        rcases Except.bind_eq_ok_iff.mp hrest with ⟨rest, hmap, hpure⟩
        cases hpure
        exact ⟨type, rest, resolve_some_eq_ok_iff.mp htype, ih.mp hmap, rfl⟩
      · intro h
        rcases h with ⟨type, rest, htype, hrest, rfl⟩
        exact ⟨type, resolve_some_eq_ok_iff.mpr htype,
          Except.bind_eq_ok_iff.mpr ⟨rest, ih.mpr hrest, rfl⟩⟩

theorem suits_of_checkArgs {Γ : Scopes} {infer : Expr → Except TypeError Ty} {depth : Nat}
    {args : List Expr} {params : List Ty}
    (h : ∀ e type, infer e = .ok type → e.height ≤ depth ∧ HasType Γ e type)
    (hlength : args.length = params.length) (hcheck : checkArgs infer args params = .ok ()) :
    Expr.heights args ≤ depth ∧ Suits Γ args params := by
  induction args generalizing params with
  | nil =>
      cases params with
      | nil => exact ⟨Nat.zero_le depth, .nil⟩
      | cons param params => cases hlength
  | cons arg args ih =>
      cases params with
      | nil => cases hlength
      | cons param params =>
          rcases Except.bind_eq_ok_iff.mp hcheck with ⟨actual, harg, hexpect⟩
          rcases Except.bind_eq_ok_iff.mp hexpect with ⟨_, haccepts, hargs⟩
          rcases h arg actual harg with ⟨hheight, htype⟩
          rcases ih (Nat.succ.inj hlength) hargs with ⟨hheights, hsuits⟩
          exact ⟨Nat.max_le.mpr ⟨hheight, hheights⟩,
            .cons htype (expect_eq_ok_iff.mp haccepts) hsuits⟩

theorem checkArgs_of_suits {Γ : Scopes} {infer : Expr → Except TypeError Ty} {depth : Nat}
    {args : List Expr} {params : List Ty}
    (h : ∀ e type, HasType Γ e type → e.height ≤ depth → infer e = .ok type)
    (hsuits : Suits Γ args params) (hheights : Expr.heights args ≤ depth) :
    args.length = params.length ∧ checkArgs infer args params = .ok () := by
  induction args generalizing params with
  | nil =>
      cases hsuits
      exact ⟨rfl, rfl⟩
  | cons arg args ih =>
      cases hsuits with
      | @cons _ _ param actual params htype haccepts hargs =>
          rcases Nat.max_le.mp hheights with ⟨hheight, hheights⟩
          rcases ih hargs hheights with ⟨hlength, hcheck⟩
          refine ⟨congrArg Nat.succ hlength, ?_⟩
          refine Except.bind_eq_ok_iff.mpr ⟨actual, h arg actual htype hheight, ?_⟩
          exact Except.bind_eq_ok_iff.mpr ⟨(), expect_eq_ok_iff.mpr haccepts, hcheck⟩

end Typing

open Typing

namespace Expr

variable {root : Token} {Γ : Scopes}

theorem hasType_of_infer {depth : Nat} {e : Expr} {type : Ty}
    (h : e.infer root Γ depth = .ok type) : e.height ≤ depth ∧ HasType Γ e type := by
  induction depth generalizing e type with
  | zero => cases h
  | succ depth ih =>
      cases e with
      | intLit t n =>
          cases h
          exact ⟨Nat.le_add_left 1 depth, .intLit⟩
      | floatLit t bits =>
          cases h
          exact ⟨Nat.le_add_left 1 depth, .floatLit⟩
      | stringLit t text =>
          cases h
          exact ⟨Nat.le_add_left 1 depth, .stringLit⟩
      | boolLit t b =>
          cases h
          exact ⟨Nat.le_add_left 1 depth, .boolLit⟩
      | name t =>
          rw [infer] at h
          split at h
          · rename_i hlookup
            cases h
            exact ⟨Nat.le_add_left 1 depth, .name (Scopes.lookup_eq_some_iff.mp hlookup)⟩
          · cases h
      | unary t op operand =>
          rcases Except.bind_eq_ok_iff.mp h with ⟨inner, hoperand, hresult⟩
          rcases ih hoperand with ⟨hheight, htype⟩
          split at hresult
          · rename_i hyields
            cases hresult
            exact ⟨Nat.succ_le_succ hheight,
              .unary htype (UnaryOp.result?_eq_some_iff.mp hyields)⟩
          · cases hresult
      | binary t op left right =>
          rcases Except.bind_eq_ok_iff.mp h with ⟨leftType, hleft, hrest⟩
          rcases Except.bind_eq_ok_iff.mp hrest with ⟨rightType, hright, hresult⟩
          rcases ih hleft with ⟨hleftHeight, hleftType⟩
          rcases ih hright with ⟨hrightHeight, hrightType⟩
          split at hresult
          · rename_i hyields
            cases hresult
            exact ⟨Nat.succ_le_succ (Nat.max_le.mpr ⟨hleftHeight, hrightHeight⟩),
              .binary hleftType hrightType (BinaryOp.result?_eq_some_iff.mp hyields)⟩
          · cases hresult
      | call t callee args =>
          rcases Except.bind_eq_ok_iff.mp h with ⟨calleeType, hcallee, hrest⟩
          rcases ih hcallee with ⟨hheight, htype⟩
          split at hrest
          · cases hrest
          · rename_i params result hsignature
            split at hrest
            · rename_i hlength
              rcases Except.bind_eq_ok_iff.mp hrest with ⟨_, hcheck, hpure⟩
              cases hpure
              rcases suits_of_checkArgs (fun _ _ => ih) hlength hcheck with ⟨hheights, hsuits⟩
              exact ⟨Nat.succ_le_succ (Nat.max_le.mpr ⟨hheight, hheights⟩),
                .call htype (Ty.signature?_eq_some_iff.mp hsignature) hsuits⟩
            · cases hrest

theorem infer_of_hasType {depth : Nat} {e : Expr} {type : Ty} (h : HasType Γ e type)
    (hheight : e.height ≤ depth) : e.infer root Γ depth = .ok type := by
  induction depth generalizing e type with
  | zero => exact absurd hheight (Nat.not_le_of_lt e.height_pos)
  | succ depth ih =>
      cases h with
      | intLit => rfl
      | floatLit => rfl
      | stringLit => rfl
      | boolLit => rfl
      | name hbinds => rw [infer, Scopes.lookup_eq_some_iff.mpr hbinds]
      | unary htype hyields =>
          refine Except.bind_eq_ok_iff.mpr ⟨_, ih htype (Nat.le_of_succ_le_succ hheight), ?_⟩
          rw [UnaryOp.result?_eq_some_iff.mpr hyields]
      | binary hleft hright hyields =>
          rcases Nat.max_le.mp (Nat.le_of_succ_le_succ hheight) with ⟨hleftHeight, hrightHeight⟩
          refine Except.bind_eq_ok_iff.mpr ⟨_, ih hleft hleftHeight, ?_⟩
          refine Except.bind_eq_ok_iff.mpr ⟨_, ih hright hrightHeight, ?_⟩
          rw [BinaryOp.result?_eq_some_iff.mpr hyields]
      | call hcallee htakes hsuits =>
          rcases Nat.max_le.mp (Nat.le_of_succ_le_succ hheight) with ⟨hcalleeHeight, hheights⟩
          rcases checkArgs_of_suits (fun _ _ => ih) hsuits hheights with ⟨hlength, hcheck⟩
          refine Except.bind_eq_ok_iff.mpr ⟨_, ih hcallee hcalleeHeight, ?_⟩
          rw [Ty.signature?_eq_some_iff.mpr htakes]
          dsimp only
          rw [if_pos hlength, hcheck]
          rfl

theorem infer_eq_ok_iff {depth : Nat} {e : Expr} {type : Ty} :
    e.infer root Γ depth = .ok type ↔ e.height ≤ depth ∧ HasType Γ e type :=
  ⟨hasType_of_infer, fun h => infer_of_hasType h.2 h.1⟩

end Expr

theorem HasType.unique {Γ : Scopes} {e : Expr} {s t : Ty} (hs : HasType Γ e s)
    (ht : HasType Γ e t) : s = t := by
  have hinfer : e.infer e.token Γ e.height = .ok s :=
    Expr.infer_of_hasType hs (Nat.le_refl e.height)
  rw [Expr.infer_of_hasType ht (Nat.le_refl e.height)] at hinfer
  cases hinfer
  rfl

end TypedAnt
