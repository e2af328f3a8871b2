import TypedAnt.Program

/-!
# Recognizing tokens

When a token is a given operator, keyword or separator, what is found when it is looked
up among the operators of a kind, and where the end-of-file tokens of a list are.
-/

namespace TypedAnt

attribute [grind =] Token.isOp Token.isKeyword Token.isSeparator

namespace Token

theorem isOp_iff {t : Token} {op : String} : t.isOp op = true ↔ t.kind = .op ∧ t.value = op := by
  simp [isOp]

theorem isKeyword_iff {t : Token} {word : String} :
    t.isKeyword word = true ↔ t.kind = .keyword ∧ t.value = word := by
  simp [isKeyword]

theorem isOp_eq_false {t : Token} {op other : String} (h : t.isOp op = true) (hne : op ≠ other) :
    t.isOp other = false := by
  grind

theorem isSeparator_eq_false_of_isOp {t : Token} {op : String} (h : t.isOp op = true)
    (hne : op ≠ ";") : t.isSeparator = false := by
  grind

end Token

/-!
# Operators
-/

namespace UnaryOp

theorem ofToken?_eq_some_iff {t : Token} {op : UnaryOp} :
    ofToken? t = some op ↔ t.isOp op.symbol = true := by
  constructor
  · intro h
    have hfound := List.find?_some h
    exact hfound
  · intro h
    rcases Token.isOp_iff.mp h with ⟨hkind, hvalue⟩
    cases op <;> simp [ofToken?, all, List.find?, Token.isOp, hkind, hvalue, symbol]

theorem atToken?_eq_some_iff {t u : Token} {op : UnaryOp} :
    atToken? t = some (u, op) ↔ u = t ∧ t.isOp op.symbol = true := by
  unfold atToken?
  rw [Option.map_eq_some_iff]
  constructor
  · intro h
    rcases h with ⟨op', hop, heq⟩
    cases heq
    exact ⟨rfl, ofToken?_eq_some_iff.mp hop⟩
  · intro h
    rcases h with ⟨rfl, hop⟩
    exact ⟨op, ofToken?_eq_some_iff.mpr hop, rfl⟩

end UnaryOp

namespace BinaryOp

theorem ofToken?_eq_some_iff {t : Token} {op : BinaryOp} :
    ofToken? t = some op ↔ t.isOp op.symbol = true := by
  constructor
  · intro h
    have hfound := List.find?_some h
    exact hfound
  · intro h
    rcases Token.isOp_iff.mp h with ⟨hkind, hvalue⟩
    cases op <;> simp [ofToken?, all, List.find?, Token.isOp, hkind, hvalue, symbol]

theorem atLevel?_eq_some_iff {level : Nat} {t u : Token} {op : BinaryOp} :
    atLevel? level t = some (u, op) ↔ u = t ∧ t.isOp op.symbol = true ∧ op.level = level := by
  unfold atLevel?
  rw [Option.bind_eq_some_iff]
  constructor
  · intro h
    rcases h with ⟨op', hop, heq⟩
    split at heq
    · rename_i hlevel
      cases heq
      exact ⟨rfl, ofToken?_eq_some_iff.mp hop, hlevel⟩
    · cases heq
  · intro h
    rcases h with ⟨rfl, hop, hlevel⟩
    exact ⟨op, ofToken?_eq_some_iff.mpr hop, if_pos hlevel⟩

theorem level_bounds (op : BinaryOp) : 1 ≤ op.level ∧ op.level ≤ 6 := by
  cases op <;> simp [level]

theorem symbol_ne (op : BinaryOp) {sign : String}
    (h : sign ∈ ["(", ")", "\x7b", "\x7d", ",", ":", ";", "=", "->", "!"]) :
    op.symbol ≠ sign := by
  intro heq
  subst heq
  cases op <;> simp [symbol] at h

end BinaryOp

namespace Opening

theorem atToken?_eq_some_iff {t u : Token} {o : Opening} :
    atToken? t = some (u, o) ↔ u = t ∧ t.isKeyword o.word = true := by
  unfold atToken?
  rw [Option.map_eq_some_iff]
  constructor
  · intro h
    rcases h with ⟨o', ho, heq⟩
    cases heq
    have hfound := List.find?_some ho
    exact ⟨rfl, hfound⟩
  · intro h
    rcases h with ⟨rfl, ho⟩
    rcases Token.isKeyword_iff.mp ho with ⟨hkind, hvalue⟩
    refine ⟨o, ?_, rfl⟩
    cases o <;> simp [all, List.find?, Token.isKeyword, hkind, hvalue, word]

end Opening

/-!
# End-of-file tokens
-/

def NoEof (w : List Token) : Prop :=
  ∀ t ∈ w, t.kind ≠ .eof

@[simp]
theorem noEof_nil : NoEof [] := by
  simp [NoEof]

@[simp]
theorem noEof_cons {t : Token} {w : List Token} : NoEof (t :: w) ↔ t.kind ≠ .eof ∧ NoEof w := by
  simp [NoEof]

@[simp]
theorem noEof_append {w v : List Token} : NoEof (w ++ v) ↔ NoEof w ∧ NoEof v := by
  simp only [NoEof, List.mem_append]
  constructor
  · intro h
    exact ⟨fun t ht => h t (Or.inl ht), fun t ht => h t (Or.inr ht)⟩
  · intro h t hmem
    rcases h with ⟨hw, hv⟩
    rcases hmem with ht | ht
    · exact hw t ht
    · exact hv t ht

theorem Token.ne_eof_of_isOp {t : Token} {op : String} (h : t.isOp op = true) : t.kind ≠ .eof := by
  simp [(Token.isOp_iff.mp h).1]

theorem Token.ne_eof_of_isKeyword {t : Token} {word : String} (h : t.isKeyword word = true) :
    t.kind ≠ .eof := by
  simp [(Token.isKeyword_iff.mp h).1]

/-- The list ends in an end-of-file token and holds no other one. -/
def Ended (tokens : List Token) : Prop :=
  ∃ w eof, tokens = w ++ [eof] ∧ NoEof w ∧ eof.kind = .eof

end TypedAnt
