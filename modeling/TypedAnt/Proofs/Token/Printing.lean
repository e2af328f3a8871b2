import TypedAnt.Proofs.Program.Numbering
import TypedAnt.Proofs.Token.Lexing
import TypedAnt.Proofs.Token.Scanning

/-!
# Printing tokens

Tokens are printed as their values with single spaces between them.  A space ends every lexeme
but a string literal, which ends at its closing quote, so lexing gives back the tokens that
have been printed.
-/

namespace TypedAnt

variable {kind : TokenKind} {text rest : List Char} {contents : List (TokenKind × String)}

/-!
# Lexemes before a space
-/

def Spaced (rest : List Char) : Prop :=
  ∀ c ∈ rest.head?, c = ' '

theorem prefix_of_spaced (h : Spaced rest) {cs : List Char} (hspace : ' ' ∉ cs)
    (hbegin : cs <+: text ++ rest) : cs <+: text := by
  cases rest with
  | nil =>
      rw [List.append_nil] at hbegin
      exact hbegin
  | cons c rest =>
      cases h c rfl
      exact prefix_of_mark_not_mem hbegin hspace

namespace Lexeme

theorem spelled_space : ∀ word ∈ Token.keywords ++ Token.operators, ' ' ∉ word.toList := by
  decide +kernel

theorem space_of_all {p : Char → Bool} (h : ∀ c ∈ text, p c = true) (hspace : p ' ' = false) :
    ' ' ∉ text := by
  intro hmem
  have htrue := h ' ' hmem
  rw [hspace] at htrue
  cases htrue

theorem space_not_mem (h : Lexeme kind text) (hstring : kind ≠ .string) : ' ' ∉ text := by
  cases kind with
  | int => exact space_of_all h.2 (by decide)
  | float =>
      rcases h with ⟨whole, fraction, rfl, hwhole, hfraction⟩
      have hw := space_of_all hwhole.2 (by decide)
      have hf := space_of_all hfraction.2 (by decide)
      simp [hw, hf]
  | string => exact absurd rfl hstring
  | ident => exact space_of_all h.2.1 (by decide +kernel)
  | keyword => simpa using spelled_space _ (List.mem_append_left _ h)
  | op => simpa using spelled_space _ (List.mem_append_right _ h)
  | newline =>
      cases h
      decide
  | eof => cases h

theorem eq_slash (h : Lexeme kind text) (hhead : text.head? = some '/') : text = ['/'] := by
  rcases List.head?_eq_some_iff.mp hhead with ⟨cs, rfl⟩
  have hfamily := TokenKind.family_eq h.startsWith (l := .op) (by decide +kernel)
  cases kind with
  | op =>
      have hall : ∀ op ∈ Token.operators, op.toList.head? = some '/' → op.toList = ['/'] := by
        decide +kernel
      simpa using hall _ h
  | _ => cases hfamily

theorem not_comment_of_spaced (h : Lexeme kind text) (hrest : Spaced rest) :
    ¬ ['/', '/'] <+: text ++ rest := by
  intro hbegin
  have hcomment : ['/', '/'] <+: text := prefix_of_spaced hrest (by decide) hbegin
  have hslash := h.eq_slash (Piece.head?_of_comment hcomment)
  rw [hslash] at hcomment
  exact absurd hcomment.length_le (by decide)

theorem exists_longest {cs : List Char} (h : Lexeme kind text) (hbegin : text <+: cs)
    (hcomment : ¬ ['/', '/'] <+: cs) : ∃ other longest, Longest other longest cs := by
  have hsome : ¬ NoLexeme cs := fun hnone => hnone kind text h hbegin
  cases cs with
  | nil => exact absurd (List.prefix_nil.mp hbegin) h.ne_nil
  | cons c cs =>
      have hcut := Piece.cut_first c cs
      generalize Piece.first c cs = piece at hcut
      cases hcut with
      | token hlongest _ => exact ⟨_, _, hlongest⟩
      | blank hc hhead => exact absurd (Piece.noLexeme_of_blank hc hhead) hsome
      | comment hbegin' => exact absurd hbegin' hcomment
      | stray hnone _ _ => exact absurd hnone hsome
      | unclosed hnone _ => exact absurd hnone hsome

theorem longest_of_spaced (h : Lexeme kind text) (hrest : Spaced rest) :
    Longest kind text (text ++ rest) := by
  have hbegin : text <+: text ++ rest := List.prefix_append _ _
  by_cases hstring : kind = .string
  · subst hstring
    rcases h with ⟨tail, rfl, hclosed⟩
    have hclose := StringLiteral.closeQuote_of_closed hclosed (List.prefix_append tail rest)
    exact longest_string hclose
  · rcases h.exists_longest hbegin (h.not_comment_of_spaced hrest) with ⟨other, longest, hlongest⟩
    have hother : other ≠ .string := by
      rintro rfl
      have hfamily := h.family_eq hbegin hlongest.lexeme hlongest.isPrefix
      cases kind <;> first | exact hstring rfl | cases hfamily
    -- The longest lexeme has no space in it, so it goes no further than the given one.
    have hshort : longest <+: text :=
      prefix_of_spaced hrest (hlongest.lexeme.space_not_mem hother) hlongest.isPrefix
    have hlong : text.length ≤ longest.length := hlongest.length_le kind text h hbegin
    cases hshort.eq_of_length_le hlong
    cases hlongest.kind_eq kind h
    exact hlongest

end Lexeme

/-!
# Texts that spell tokens
-/

/-- The text is lexed without an error, to tokens with the given kinds and values. -/
def Spelled (cs : List Char) (contents : List (TokenKind × String)) : Prop :=
  ∃ pieces, Piece.Scanned cs pieces ∧ ∀ p, (Lexed.ofPieces p pieces).errors = [] ∧
    (Lexed.ofPieces p pieces).tokens.map Token.content = contents ++ [(.eof, "")]

namespace Spelled

theorem nil : Spelled [] [] :=
  ⟨[], .done, fun _ => ⟨rfl, rfl⟩⟩

theorem space (h : Spelled rest contents) : Spelled (' ' :: rest) contents := by
  rcases h with ⟨pieces, hscanned, hlexed⟩
  have hcut : Piece.Cut ((Piece.blank ' ').text ++ rest) (.blank ' ') := .blank (by decide) rfl
  exact ⟨.blank ' ' :: pieces, .next hcut hscanned, fun p => hlexed (p.next ' ')⟩

theorem token (hlexeme : Lexeme kind text) (hrest : Spaced rest) (h : Spelled rest contents) :
    Spelled (text ++ rest) ((kind, String.ofList text) :: contents) := by
  rcases h with ⟨pieces, hscanned, hlexed⟩
  have hcut : Piece.Cut ((Piece.token kind text).text ++ rest) (.token kind text) :=
    .token (hlexeme.longest_of_spaced hrest) (hlexeme.not_comment_of_spaced hrest)
  refine ⟨.token kind text :: pieces, .next hcut hscanned, ?_⟩
  intro p
  rcases hlexed (p.after text) with ⟨herrors, htokens⟩
  refine ⟨herrors, ?_⟩
  rw [List.cons_append, ← htokens]
  rfl

theorem joined {last : List (List Char)}
    (h : ∀ content ∈ contents, Lexeme content.1 content.2.toList)
    (hlast : Spelled ([' '].intercalate last) []) :
    Spelled ([' '].intercalate (contents.map (fun content => content.2.toList) ++ last))
      contents := by
  induction contents with
  | nil => exact hlast
  | cons content contents ih =>
      rcases List.forall_mem_cons.mp h with ⟨hfirst, hrest⟩
      have hspelled := ih hrest
      have hvalue : String.ofList content.2.toList = content.2 := String.ofList_toList
      rw [List.map_cons, List.cons_append]
      generalize contents.map (fun content => content.2.toList) ++ last = values at hspelled ⊢
      cases values with
      | nil =>
          have hend : Spaced [] := by simp [Spaced]
          have htoken := token hfirst hend hspelled
          rw [hvalue, List.append_nil] at htoken
          rw [List.intercalate_singleton]
          exact htoken
      | cons value values =>
          have htoken := token hfirst (by simp [Spaced]) hspelled.space
          rw [hvalue] at htoken
          rw [List.intercalate_cons_cons, List.append_assoc]
          exact htoken

theorem printed {last : List String} (h : ∀ content ∈ contents, Lexeme content.1 content.2.toList)
    (hlast : last = [] ∨ last = [""]) :
    Spelled (" ".intercalate (contents.map Prod.snd ++ last)).toList contents := by
  have hend : Spelled ([' '].intercalate (last.map String.toList)) [] := by
    rcases hlast with rfl | rfl
    · exact nil
    · exact nil
  rw [String.toList_intercalate, List.map_append, List.map_map]
  exact joined h hend

end Spelled

/-!
# Lexing what has been printed
-/

namespace Lexed

theorem ofText_of_spelled {text : String} (h : Spelled text.toList contents) :
    (ofText text).errors = [] ∧
      (ofText text).tokens.map Token.content = contents ++ [(.eof, "")] := by
  rcases h with ⟨pieces, hscanned, hlexed⟩
  have hpieces := (Piece.scanned_split text.toList).unique hscanned
  unfold ofText
  rw [hpieces]
  exact hlexed .start

theorem contents_ofText (text : String) :
    ∃ contents, (∀ content ∈ contents, Lexeme content.1 content.2.toList) ∧
      (ofText text).tokens.map Token.content = contents ++ [(.eof, "")] := by
  rcases ended_ofText text with ⟨body, eof, htokens, hbody, heof⟩
  have hlocated : ∀ t ∈ body ++ [eof], t.Located text.toList := by
    rw [← htokens]
    exact fun t ht => located_of_mem ht
  rcases List.forall_mem_append.mp hlocated with ⟨hlexemes, hlast⟩
  refine ⟨body.map Token.content, ?_, ?_⟩
  · intro content hcontent
    rcases List.mem_map.mp hcontent with ⟨t, ht, rfl⟩
    cases hlexemes t ht with
    | lexeme hlexeme _ => simpa [Token.content, Token.behind] using hlexeme
    | eof => exact absurd rfl (hbody _ ht)
  · rw [htokens, List.map_append, List.map_singleton]
    cases List.forall_mem_singleton.mp hlast with
    | @lexeme kind value _ _ hlexeme _ =>
        change kind = .eof at heof
        subst heof
        exact hlexeme.elim
    | eof => rfl

/--
Lexemes of any kinds, written with single spaces between them, are lexed without an error to
tokens of these kinds and with these values.  So the tokens of every text, whatever its errors,
are found again when their values are written this way, with or without the empty value of
the last one.
-/
theorem printed_tokens_are_lexed_back :
    (∀ contents : List (TokenKind × String),
      (∀ content ∈ contents, Lexeme content.1 content.2.toList) →
        (ofText (" ".intercalate (contents.map Prod.snd))).errors = [] ∧
          (ofText (" ".intercalate (contents.map Prod.snd))).tokens.map Token.content =
            contents ++ [(.eof, "")]) ∧
      ∀ (text : String), ∀ tokens ∈ [(ofText text).tokens, (ofText text).tokens.dropLast],
        (ofText (" ".intercalate (tokens.map Token.value))).errors = [] ∧
          (ofText (" ".intercalate (tokens.map Token.value))).tokens.map Token.content =
            (ofText text).tokens.map Token.content := by
  constructor
  · intro contents hlexemes
    have hspelled := Spelled.printed hlexemes (Or.inl rfl)
    rw [List.append_nil] at hspelled
    exact ofText_of_spelled hspelled
  · intro text tokens htokens
    rcases contents_ofText text with ⟨contents, hlexemes, hcontents⟩
    have hvalues : (ofText text).tokens.map Token.value = contents.map Prod.snd ++ [""] := by
      have hsecond := congrArg (List.map Prod.snd) hcontents
      rw [List.map_map, List.map_append] at hsecond
      exact hsecond
    have hlast : ∃ last, (last = [] ∨ last = [""]) ∧
        tokens.map Token.value = contents.map Prod.snd ++ last := by
      rcases List.mem_cons.mp htokens with rfl | htokens
      · exact ⟨[""], Or.inr rfl, hvalues⟩
      · cases List.mem_singleton.mp htokens
        refine ⟨[], Or.inl rfl, ?_⟩
        rw [List.map_dropLast, hvalues, List.dropLast_concat, List.append_nil]
    rcases hlast with ⟨last, hlast, hprint⟩
    rw [hprint, hcontents]
    exact ofText_of_spelled (.printed hlexemes hlast)

/-- Lexemes of every kind; some would run into the next one without the space. -/
def sampler : List (TokenKind × String) :=
  [(.keyword, "if"), (.ident, "ifα½"), (.op, "/"), (.op, "/"), (.int, "007"), (.float, "1.50"),
    (.string, "\"//\\\" \\\\\""), (.newline, "\n")]

theorem printed_tokens_are_lexed_back_sampler :
    (∀ content ∈ sampler, Lexeme content.1 content.2.toList) ∧
      " ".intercalate (sampler.map Prod.snd) = "if ifα½ / / 007 1.50 \"//\\\" \\\\\" \n" ∧
      (ofText "if ifα½ / / 007 1.50 \"//\\\" \\\\\" \n").errors = [] ∧
      (ofText "if ifα½ / / 007 1.50 \"//\\\" \\\\\" \n").tokens.map Token.content =
        sampler ++ [(.eof, "")] := by
  have hlexemes : ∀ content ∈ sampler, Lexeme content.1 content.2.toList := by
    have hident : Lexeme .ident "ifα½".toList :=
      ⟨by decide +kernel, List.all_eq_true.mp (by decide +kernel), by decide +kernel⟩
    have hdigits : Numeral.Digits "007".toList := by decide
    have hstring : StringLiteral.Closed "//\\\" \\\\\"".toList := by
      refine .plain (by decide) (by decide) (by decide) ?_
      refine .plain (by decide) (by decide) (by decide) ?_
      refine .escape (by decide) (.plain (by decide) (by decide) (by decide) ?_)
      exact .escape (by decide) .quote
    have hkeyword : Lexeme .keyword "if".toList := by simp [Lexeme, Token.keywords]
    have hslash : Lexeme .op "/".toList := by simp [Lexeme, Token.operators]
    simp only [sampler, List.forall_mem_cons]
    refine ⟨hkeyword, hident, hslash, hslash, hdigits, ?_, ?_, rfl, ?_⟩
    · exact ⟨['1'], ['5', '0'], rfl, by decide, by decide⟩
    · exact ⟨_, rfl, hstring⟩
    · simp
  exact ⟨hlexemes, rfl, printed_tokens_are_lexed_back.1 sampler hlexemes⟩

end Lexed
end TypedAnt
