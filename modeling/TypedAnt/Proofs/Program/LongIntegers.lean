import TypedAnt.Proofs.Program.Numbering
import TypedAnt.Proofs.Token.Lexing

/-!
# Integers that are too long

An integer literal with too many digits stops a parse, but only when it is read.  What is read
can be told from a parse in which every integer is replaced by zero: that parse takes the same
tokens.  If it succeeds all integers are read, and if it is rejected those before the error.
-/

namespace TypedAnt

/-!
# Tokens
-/

namespace Token

def TooLong (t : Token) : Prop :=
  t.kind = .int ∧ Numeral.digitLimit < t.value.length

def zeroed (t : Token) : Token :=
  if t.kind = .int then { t with value := "0" } else t

def Spelled (t : Token) : Prop :=
  t.kind = .eof ∨ Lexeme t.kind t.value.toList

variable {t : Token}

theorem fault?_eq_some_iff (h : t.Spelled) {fault : Numeral.Fault} :
    t.fault? = some fault ↔ t.TooLong ∧ fault = .tooLong t.value.length := by
  by_cases hkind : t.kind = .int
  · have hdigits : Numeral.Digits t.value.toList := by
      rcases h with heof | hlexeme
      · rw [hkind] at heof
        cases heof
      · rw [hkind] at hlexeme
        exact hlexeme
    have hread := Numeral.readInt_eq_of_digits hdigits
    rw [String.length_toList] at hread
    unfold TooLong
    split at hread
    · rename_i hlong
      rw [fault?_of_error hkind hread, Option.some.injEq]
      simp [hkind, hlong, eq_comm]
    · rename_i hshort
      rw [fault?_of_ok hread]
      simp [hshort]
  · rw [fault?_of_ne hkind]
    simp [TooLong, hkind]

end Token

theorem Lexed.spelled_of_mem {text : String} {t : Token} (h : t ∈ (ofText text).tokens) :
    t.Spelled := by
  cases located_of_mem h with
  | lexeme hlexeme _ =>
      refine Or.inr ?_
      simpa [Token.behind] using hlexeme
  | eof => exact Or.inl rfl

/-!
# Integers that are restored
-/

namespace Rendering

theorem readable_zero {t : Token} (h : t.value = "0") : t.fault? = none := by
  have hread : Numeral.readInt "0" = .ok 0 := by
    decide +kernel
  exact Token.fault?_of_ok (h ▸ hread)

/-- Puts a numbered token at its place, and puts the integer from there for zero. -/
def restoring (tokens : List Token) : Rendering where
  token t :=
    { (places tokens).token t with
      value :=
        if t.kind = .int ∧ t.value = "0" then tokens[t.line.toNat]?.elim "0" Token.value
        else t.value }
  line := (places tokens).line
  kind_eq _ := rfl
  value_eq t h := by simp [h]
  line_eq _ := rfl
  fault_eq t fault h := by
    have hvalue : t.value ≠ "0" := by
      intro hzero
      rw [readable_zero hzero] at h
      cases h
    simpa [hvalue, places, Token.fault?] using h

theorem map_restoring (tokens : List Token) :
    (numbered ((tokens.map Token.zeroed).map Token.content)).map (restoring tokens).token =
      tokens := by
  apply List.ext_getElem?
  intro i
  unfold numbered
  rw [List.getElem?_map, List.getElem?_mapIdx, List.getElem?_map, List.getElem?_map]
  cases h : tokens[i]? with
  | none => rfl
  | some t =>
      by_cases hkind : t.kind = .int
      · rcases t with ⟨_, value, line, column⟩
        cases hkind
        simp [restoring, places, Token.content, Token.zeroed, h]
      · simp [restoring, places, Token.content, Token.zeroed, h, hkind]

end Rendering

/-!
# Parses
-/

namespace Parser

variable {limit : Nat} {tokens : List Token}

theorem number_of_atom?_error {t : Token} {fault : Numeral.Fault}
    (h : atom? t = some (.error fault)) :
    t.fault? = some fault ∨ t.kind = .float ∧ Numeral.readFloat t.value = .error fault := by
  by_cases hint : t.kind = .int
  · exact Or.inl (Renders.fault?_of_atom hint h)
  · apply Or.inr
    unfold atom? at h
    split at h
    · rename_i hkind
      exact absurd hkind hint
    · rename_i hkind
      refine ⟨hkind, ?_⟩
      cases hread : Numeral.readFloat t.value with
      | ok bits =>
          rw [hread] at h
          cases h
      | error fault' =>
          rw [hread] at h
          cases h
          rfl
    · cases h
    · cases h
    · split at h
      · cases h
      · split at h <;> cases h

theorem atom?_zeroed {t u : Token} (h : t.Spelled) (hcontent : u.content = t.zeroed.content)
    {fault : Numeral.Fault} : atom? u ≠ some (.error fault) := by
  intro hatom
  have hkind : u.kind = t.kind := by
    have hkind := congrArg Prod.fst hcontent
    unfold Token.zeroed at hkind
    split at hkind <;> exact hkind
  have hvalue : u.value = t.zeroed.value := congrArg Prod.snd hcontent
  rcases number_of_atom?_error hatom with hfault | ⟨hfloat, hread⟩
  · by_cases hint : t.kind = .int
    · rw [Token.zeroed, if_pos hint] at hvalue
      rw [Rendering.readable_zero hvalue] at hfault
      cases hfault
    · rw [Token.fault?_of_ne (hkind ▸ hint)] at hfault
      cases hfault
  · rw [hkind] at hfloat
    rw [hvalue, Token.zeroed, if_neg (by rw [hfloat]; decide)] at hread
    rcases h with heof | hlexeme
    · rw [hfloat] at heof
      cases heof
    · rw [hfloat] at hlexeme
      rcases hlexeme with ⟨whole, fraction, htext, hwhole, hfraction⟩
      rw [Numeral.readFloat_of_digits htext hwhole hfraction] at hread
      cases hread

/--
Where all numbers can be read before they are rendered, the parse of what is rendered stops at
the first one that cannot be read among the tokens that were taken.
-/
theorem numeral_iff_taken (r : Rendering) (limit : Nat) {u : List Token}
    (hzero : ∀ t ∈ u, ∀ fault, atom? t ≠ some (.error fault)) :
    ∃ c, Ends u c (statements limit u).2 ∧
      ∀ fault, (statements limit (u.map r.token)).2 = some (.numeral fault) ↔
        (c.map r.token).findSome? Token.fault? = some fault := by
  rcases Retells.statements (r := r) limit u with ⟨c, hends, _, hbehind⟩
  refine ⟨c, hends, ?_⟩
  intro fault
  cases hfault : (c.map r.token).findSome? Token.fault? with
  | some first =>
      rw [hbehind.of_fault hfault]
      simp
  | none =>
      rw [hbehind.of_readable hfault]
      constructor
      · intro hnumeral
        rcases Option.map_eq_some_iff.mp hnumeral with ⟨stop, hstop, hrendered⟩
        rw [hstop] at hends
        cases stop with
        | rejected rest cause => cases hrendered
        | numeral fault' =>
            rcases hends with ⟨t, rest, rfl, hatom⟩
            exact absurd hatom (hzero t (by simp) fault')
      · intro hnone
        cases hnone

end Parser

theorem mem_numbered {contents : List (TokenKind × String)} {t : Token} (h : t ∈ numbered contents) :
    t.content ∈ contents := by
  rcases List.mem_iff_getElem?.mp h with ⟨i, hi⟩
  unfold numbered at hi
  rw [List.getElem?_mapIdx] at hi
  rcases Option.map_eq_some_iff.mp hi with ⟨content, hcontent, rfl⟩
  exact List.mem_of_getElem? hcontent

namespace Parsed

variable {limit : Nat} {tokens : List Token}

theorem failure_eq_numeral_iff {w : List Token} {eof : Token} (hw : NoEof w)
    (heof : eof.kind = .eof) {fault : Numeral.Fault} :
    (ofTokens limit (w ++ [eof])).failure = some (.numeral fault) ↔
      (Parser.statements limit w).2 = some (.numeral fault) := by
  rw [ofTokens_append hw heof]
  cases (Parser.statements limit w).2 with
  | none => simp
  | some stop => cases stop <;> simp [Parser.Stop.failure]

theorem numeral_cases_of_rendering (r : Rendering) (limit : Nat) (hend : Ended tokens)
    (hzero : ∀ t ∈ tokens, ∀ fault, Parser.atom? t ≠ some (.error fault)) :
    ((ofTokens limit tokens).failure = none ∧
        ∀ fault, (ofTokens limit (tokens.map r.token)).failure = some (.numeral fault) ↔
          (tokens.map r.token).findSome? Token.fault? = some fault) ∨
      ∃ e i, (ofTokens limit tokens).failure = some (.rejected e) ∧
        errorIndex? limit tokens = some i ∧
        ∀ fault, (ofTokens limit (tokens.map r.token)).failure = some (.numeral fault) ↔
          ((tokens.map r.token).take i).findSome? Token.fault? = some fault := by
  rcases hend with ⟨u, eof, rfl, hu, heof⟩
  have heof' := (r.kind_eq eof).trans heof
  rcases Parser.numeral_iff_taken r limit (u := u) (fun t ht => hzero t (by simp [ht])) with
    ⟨c, hends, hiff⟩
  simp only [List.map_append, List.map_singleton, failure_eq_numeral_iff (noEof_map hu) heof', hiff]
  rw [ofTokens_append hu heof]
  cases hstop : (Parser.statements limit u).2 with
  | none =>
      rw [hstop] at hends
      cases hends
      refine Or.inl ⟨rfl, ?_⟩
      have hnone : (r.token eof).fault? = none := Token.fault?_of_ne (by rw [heof']; decide)
      simp [List.findSome?_append, hnone]
  | some stop =>
      rw [hstop] at hends
      cases stop with
      | numeral fault =>
          rcases hends with ⟨t, rest, rfl, hatom⟩
          exact absurd hatom (hzero t (by simp) fault)
      | rejected rest cause =>
          rcases hends with ⟨rfl, _⟩
          refine Or.inr ⟨_, c.length, rfl, ?_, ?_⟩
          · unfold errorIndex?
            rw [body_append hu heof, hstop]
            simp
          · simp

/-- Which tokens a parse reads can be told from the parse with zeros for all integers. -/
theorem numeral_cases (limit : Nat) (hend : Ended tokens) (hspelled : ∀ t ∈ tokens, t.Spelled) :
    ((ofTokens limit (tokens.map Token.zeroed)).failure = none ∧
        ∀ fault, (ofTokens limit tokens).failure = some (.numeral fault) ↔
          tokens.findSome? Token.fault? = some fault) ∨
      ∃ e i, (ofTokens limit (tokens.map Token.zeroed)).failure = some (.rejected e) ∧
        errorIndex? limit (tokens.map Token.zeroed) = some i ∧
        ∀ fault, (ofTokens limit tokens).failure = some (.numeral fault) ↔
          (tokens.take i).findSome? Token.fault? = some fault := by
  have hrestored := Rendering.map_restoring tokens
  have hplaced := Rendering.map_places (tokens.map Token.zeroed)
  have hvalue := Rendering.value_places (tokens.map Token.zeroed)
  have hzero : ∀ t ∈ numbered ((tokens.map Token.zeroed).map Token.content), ∀ fault,
      Parser.atom? t ≠ some (.error fault) := by
    intro t ht fault
    have hmem := mem_numbered ht
    rw [List.map_map] at hmem
    rcases List.mem_map.mp hmem with ⟨t', ht', hcontent⟩
    exact Parser.atom?_zeroed (hspelled t' ht') hcontent.symm
  have hnumbered : Ended (numbered ((tokens.map Token.zeroed).map Token.content)) := by
    apply Ended.of_map (r := .restoring tokens)
    rw [hrestored]
    exact hend
  have hparsed := ofTokens_map limit hvalue hnumbered
  have hindex := errorIndex?_map limit hvalue
    (numbered ((tokens.map Token.zeroed).map Token.content))
  rw [hplaced] at hparsed hindex
  have hcases := numeral_cases_of_rendering (.restoring tokens) limit hnumbered hzero
  rw [hrestored] at hcases
  rw [hparsed, hindex]
  rcases hcases with ⟨hnone, hiff⟩ | ⟨e, i, hfail, hi, hiff⟩
  · rw [hnone]
    exact Or.inl ⟨rfl, hiff⟩
  · rw [hfail]
    exact Or.inr ⟨_, i, rfl, hi, hiff⟩

/--
The parse reads an integer that is too long: with zeros for all integers it either succeeds and
one of the integers is too long, or it is rejected and one of those before the error is.
-/
def ReadsTooLong (limit : Nat) (tokens : List Token) : Prop :=
  ((ofTokens limit (tokens.map Token.zeroed)).failure = none ∧ ∃ t ∈ tokens, t.TooLong) ∨
    ∃ e i, (ofTokens limit (tokens.map Token.zeroed)).failure = some (.rejected e) ∧
      errorIndex? limit (tokens.map Token.zeroed) = some i ∧ ∃ t ∈ tokens.take i, t.TooLong

theorem exists_fault_iff {w : List Token} (h : ∀ t ∈ w, t.Spelled) :
    (∃ fault, w.findSome? Token.fault? = some fault) ↔ ∃ t ∈ w, t.TooLong := by
  rw [← Option.isSome_iff_exists, List.findSome?_isSome_iff]
  constructor
  · intro hfault
    rcases hfault with ⟨t, ht, hfault⟩
    rcases Option.isSome_iff_exists.mp hfault with ⟨fault, hfault⟩
    exact ⟨t, ht, ((Token.fault?_eq_some_iff (h t ht)).mp hfault).1⟩
  · intro hlong
    rcases hlong with ⟨t, ht, hlong⟩
    exact ⟨t, ht, Option.isSome_iff_exists.mpr
      ⟨_, (Token.fault?_eq_some_iff (h t ht)).mpr ⟨hlong, rfl⟩⟩⟩

theorem numeral_iff_readsTooLong (limit : Nat) (hend : Ended tokens)
    (hspelled : ∀ t ∈ tokens, t.Spelled) :
    (∃ fault, (ofTokens limit tokens).failure = some (.numeral fault)) ↔
      ReadsTooLong limit tokens := by
  unfold ReadsTooLong
  rcases numeral_cases limit hend hspelled with ⟨hnone, hiff⟩ | ⟨e, i, hfail, hindex, hiff⟩
  · simp [hiff, exists_fault_iff hspelled, hnone]
  · have htake : ∀ t ∈ tokens.take i, t.Spelled := fun t ht => hspelled t (List.mem_of_mem_take ht)
    simp [hiff, exists_fault_iff htake, hfail, hindex]

theorem tooLong_of_numeral {fault : Numeral.Fault} (hend : Ended tokens)
    (hspelled : ∀ t ∈ tokens, t.Spelled)
    (h : (ofTokens limit tokens).failure = some (.numeral fault)) :
    ∃ n, fault = .tooLong n ∧ Numeral.digitLimit < n := by
  have hfound : ∃ w : List Token, (∀ t ∈ w, t.Spelled) ∧ w.findSome? Token.fault? = some fault := by
    rcases numeral_cases limit hend hspelled with ⟨_, hiff⟩ | ⟨_, i, _, _, hiff⟩
    · exact ⟨tokens, hspelled, (hiff fault).mp h⟩
    · exact ⟨tokens.take i, fun t ht => hspelled t (List.mem_of_mem_take ht), (hiff fault).mp h⟩
  rcases hfound with ⟨w, hw, hfound⟩
  rcases List.exists_of_findSome?_eq_some hfound with ⟨t, ht, hfault⟩
  rcases (Token.fault?_eq_some_iff (hw t ht)).mp hfault with ⟨hlong, rfl⟩
  exact ⟨_, rfl, hlong.2⟩

end Parsed
end TypedAnt
