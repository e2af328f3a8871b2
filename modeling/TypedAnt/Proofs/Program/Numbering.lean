import TypedAnt.Proofs.Program.RenderedProgram

/-!
# Tokens that are numbered

Without its place a token is a kind and a value.  A list of those is turned into tokens again
by numbering them, and the numbered tokens can be rendered at the places of any list that has
the same kinds and values.
-/

namespace TypedAnt

def Token.content (t : Token) : TokenKind × String :=
  (t.kind, t.value)

/-- Tokens with the given kinds and values, each on the line that is its index. -/
def numbered (contents : List (TokenKind × String)) : List Token :=
  contents.mapIdx fun i content => ⟨content.1, content.2, i, 0⟩

namespace Rendering

def places (tokens : List Token) : Rendering where
  token t := ⟨t.kind, t.value, tokens[t.line.toNat]?.elim 0 Token.line,
    tokens[t.line.toNat]?.elim 0 Token.column⟩
  line n := tokens[n.toNat]?.elim 0 Token.line
  kind_eq _ := rfl
  value_eq _ _ := rfl
  line_eq _ := rfl
  fault_eq _ _ h := h

theorem value_places (tokens : List Token) (t : Token) :
    ((places tokens).token t).value = t.value :=
  rfl

theorem map_places (tokens : List Token) :
    (numbered (tokens.map Token.content)).map (places tokens).token = tokens := by
  apply List.ext_getElem?
  intro i
  unfold numbered
  rw [List.getElem?_map, List.getElem?_mapIdx, List.getElem?_map]
  cases h : tokens[i]? with
  | none => rfl
  | some t => simp [places, Token.content, h]

end Rendering

theorem Ended.of_map {r : Rendering} {tokens : List Token} (h : Ended (tokens.map r.token)) :
    Ended tokens := by
  rcases h with ⟨w, eof, htokens, hw, heof⟩
  rcases List.map_eq_append_iff.mp htokens with ⟨w', last, rfl, rfl, hlast⟩
  rcases List.map_eq_singleton_iff.mp hlast with ⟨eof', rfl, rfl⟩
  refine ⟨w', eof', rfl, ?_, ?_⟩
  · intro t ht
    rw [← r.kind_eq t]
    exact hw (r.token t) (List.mem_map_of_mem ht)
  · rw [← r.kind_eq eof']
    exact heof

theorem ended_numbered {tokens : List Token} (h : Ended tokens) :
    Ended (numbered (tokens.map Token.content)) := by
  apply Ended.of_map (r := .places tokens)
  rw [Rendering.map_places]
  exact h

end TypedAnt
