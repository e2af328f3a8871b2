import TypedAnt.Proofs.Typing.ScopeDiscipline

/-!
# Names in scope

Which names are bound at the point where the check of a program ends.  They can be read off
the statements before that point and the functions around it.
-/

namespace TypedAnt

/-- The names that a statement binds, or finds bound, at its own level. -/
def Stmt.binds : Stmt → List String
  | .letBinding _ name _ _ | .assign _ name _ | .funcDef _ name _ _ _ => [name.value]
  | .conditional _ _ _ _ | .whileLoop _ _ _ | .giveBack _ _ | .expr _ _ => []

def Opener.names : Opener → List String
  | .braces => []
  | .function name params _ => name.value :: params.map fun p => p.name.value

def Enclosure.names (e : Enclosure) : List String :=
  e.opener.names ++ e.before.flatMap Stmt.binds

namespace Stmt

variable {Γ Δ : Scopes} {c d c' : Checker} {s failing : Stmt} {stmts before : List Stmt}
  {opener : Opener} {trail : List Enclosure} {name : String}

theorem Writes.bound_iff (h : Writes Γ s Δ) : Δ.Bound name ↔ Γ.Bound name ∨ name ∈ s.binds := by
  cases h with
  | letBinding => rw [Scopes.bound_define_iff, binds, List.mem_singleton]
  | funcDef => rw [Scopes.bound_define_iff, binds, List.mem_singleton]
  | firstAssign _ => rw [Scopes.bound_define_iff, binds, List.mem_singleton]
  | assign hbound =>
      rw [binds, List.mem_singleton]
      constructor
      · intro hname
        exact Or.inl hname
      · intro hname
        rcases hname with hname | rfl
        · exact hname
        · exact Scopes.not_unbound_iff.mp hbound
  | conditional => simp [binds]
  | whileLoop => simp [binds]
  | giveBack => simp [binds]
  | expr => simp [binds]

theorem AllWrite.bound_iff (h : AllWrite Γ stmts Δ) :
    Δ.Bound name ↔ Γ.Bound name ∨ name ∈ stmts.flatMap binds := by
  induction h with
  | nil => simp
  | cons hs _ ih => rw [ih, hs.bound_iff, List.flatMap_cons, List.mem_append, or_assoc]

theorem Enters.bound_iff (h : Enters c s opener stmts d) :
    d.scopes.Bound name ↔ c.scopes.Bound name ∨ name ∈ opener.names := by
  cases h with
  | @function _ fname params _ _ types result hnamed _ =>
      have hnames : (params.zip types).map (fun binding => binding.1.name.value) =
          params.map fun p => p.name.value := by
        have hfirst := List.map_fst_zip (Nat.le_of_eq hnamed.length_eq)
        nth_rewrite 2 [← hfirst]
        rw [List.map_map]
        rfl
      rw [Scopes.bound_defineAll_iff, Scopes.bound_enter_iff, Scopes.bound_define_iff, hnames,
        Opener.names, List.mem_cons, or_assoc]
  | thenBody _ => simp [Opener.names, Scopes.bound_enter_iff]
  | elseBody _ _ => simp [Opener.names, Scopes.bound_enter_iff]
  | whileBody _ => simp [Opener.names, Scopes.bound_enter_iff]

theorem Breaks.bound_iff (h : Breaks c s trail failing c') (hregular : s.Regular) :
    c'.scopes.Bound name ↔ c.scopes.Bound name ∨ name ∈ trail.flatMap Enclosure.names := by
  induction h with
  | itself _ => simp
  | elseIf _ _ _ ih =>
      cases hregular with
      | elseIf _ hnext => exact ih hnext
  | inside henters hbefore _ ih =>
      rcases List.forall_mem_append.mp (henters.regular hregular) with ⟨hfront, hrest⟩
      have hwritten := hbefore.allWrite hfront
      rw [ih (hrest _ List.mem_cons_self), hwritten.bound_iff, henters.bound_iff,
        List.flatMap_cons, List.mem_append, Enclosure.names, List.mem_append, or_assoc, or_assoc,
        or_assoc]

theorem RunBreaks.bound_iff (h : RunBreaks c stmts before trail failing c')
    (hregular : ∀ s ∈ stmts, s.Regular) :
    c'.scopes.Bound name ↔
      c.scopes.Bound name ∨ name ∈ before.flatMap binds ∨ name ∈ trail.flatMap Enclosure.names := by
  cases h with
  | behind hbefore hbreaks =>
      rcases List.forall_mem_append.mp hregular with ⟨hfront, hrest⟩
      have hwritten := hbefore.allWrite hfront
      rw [hbreaks.bound_iff (hrest _ List.mem_cons_self), hwritten.bound_iff, or_assoc]

end Stmt

/-!
# Where the check of a program ends
-/

/--
The check of the statements ends in the scopes `Δ`: behind the last statement, or at the
innermost statement that breaks it.  The levels are the bodies around that point from
the outside to the inside, the program itself first, with the statements before the point.
-/
inductive Program.StopsAt (stmts : List Stmt) : List Enclosure → Scopes → Prop where
  | finished {Δ : Scopes} :
      Stmt.AllTyped none .initial stmts Δ →
      StopsAt stmts [⟨.braces, stmts⟩] Δ
  | broken {before : List Stmt} {trail : List Enclosure} {failing : Stmt} {c' : Checker} :
      Stmt.RunBreaks ⟨.initial, []⟩ stmts before trail failing c' →
      StopsAt stmts (⟨.braces, before⟩ :: trail) c'.scopes

namespace Program.StopsAt

variable {stmts : List Stmt} {levels levels' : List Enclosure} {Δ Δ' : Scopes} {name : String}

theorem unique (h : StopsAt stmts levels Δ) (h' : StopsAt stmts levels' Δ') :
    levels' = levels ∧ Δ' = Δ := by
  cases h with
  | finished hall =>
      cases h' with
      | finished hall' =>
          have houtside : Stmt.AllTyped ([] : List Ty).head? .initial stmts Δ' := hall'
          exact ⟨rfl, houtside.unique hall⟩
      | broken hrun => exact absurd hall (hrun.not_allTyped Δ)
  | broken hrun =>
      cases h' with
      | finished hall => exact absurd hall (hrun.not_allTyped Δ')
      | broken hrun' =>
          rcases hrun.unique hrun' with ⟨rfl, rfl, _, rfl⟩
          exact ⟨rfl, rfl⟩

theorem bound_iff (h : StopsAt stmts levels Δ) (hregular : ∀ s ∈ stmts, s.Regular) :
    Δ.Bound name ↔ (∃ b : Builtin, b.name = name) ∨ ∃ level ∈ levels, name ∈ level.names := by
  rw [← Scopes.bound_initial_iff]
  cases h with
  | finished hall =>
      rw [(hall.allWrite hregular).bound_iff]
      simp [Enclosure.names, Opener.names]
  | broken hrun =>
      rw [hrun.bound_iff hregular]
      simp [Enclosure.names, Opener.names]

theorem of_check {p : Program} {limit : Nat}
    (hlimit : ∀ e, (p.check limit ⟨.initial, []⟩).1 = .error e → e.cause ≠ .nestingTooDeep) :
    ∃ levels, StopsAt p.statements levels (p.check limit ⟨.initial, []⟩).2.scopes := by
  cases hcheck : p.check limit ⟨.initial, []⟩ with
  | mk outcome c =>
      rw [hcheck] at hlimit
      cases outcome with
      | ok u =>
          have htyped := (check_eq_ok_iff.mp hcheck).2.1
          exact ⟨_, .finished htyped⟩
      | error e =>
          have hraises : CheckM.Raises (p.statements.forM (Stmt.check p.token limit))
              ⟨.initial, []⟩ e c := hcheck
          rcases Stmt.runBreaks_of_forM (Stmt.breaks_of_check (hlimit e rfl)) hraises with
            ⟨before, trail, failing, hrun, _⟩
          exact ⟨_, .broken hrun⟩

end Program.StopsAt
end TypedAnt
