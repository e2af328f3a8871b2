import Mathlib.Data.List.TakeWhile
import TypedAnt.Proofs.Numeral
import TypedAnt.Token.Piece

/-!
# Lexemes

How the tokens of each kind are written.  The first piece of a text is a nonempty beginning
of it, and if it is a token it is a lexeme of its kind, so that the pieces of a text put
together are the text again.
-/

namespace TypedAnt
namespace StringLiteral

/-!
# String literals

What follows the opening quote of a literal: plain characters and escapes, none of them a
newline, up to the closing quote.
-/

inductive Closed : List Char → Prop where
  | quote : Closed ['"']
  | escape {c : Char} {tail : List Char} :
      c ≠ '\n' → Closed tail → Closed ('\\' :: c :: tail)
  | plain {c : Char} {tail : List Char} :
      c ≠ '\n' → c ≠ '"' → c ≠ '\\' → Closed tail → Closed (c :: tail)

theorem Closed.newline_not_mem {tail : List Char} (h : Closed tail) : '\n' ∉ tail := by
  induction h with
  | quote => decide
  | escape hc _ ih => simp [hc.symm, ih]
  | plain hc _ _ _ ih => simp [hc.symm, ih]

theorem Closed.getLast? {tail : List Char} (h : Closed tail) : tail.getLast? = some '"' := by
  induction h with
  | quote => rfl
  | escape _ _ ih => simp [List.getLast?_cons, ih]
  | plain _ _ _ _ ih => simp [List.getLast?_cons, ih]

theorem closed_of_closeQuote {rest tail : List Char} (h : closeQuote rest = some tail) :
    Closed tail ∧ tail <+: rest := by
  fun_induction closeQuote rest generalizing tail with
  | case1 => cases h
  | case2 => cases h
  | case3 rest =>
      cases h
      exact ⟨.quote, ⟨rest, rfl⟩⟩
  | case4 => cases h
  | case5 => cases h
  | case6 c rest hc ih =>
      rcases Option.map_eq_some_iff.mp h with ⟨tail, htail, rfl⟩
      rcases ih htail with ⟨hclosed, hbegin⟩
      exact ⟨.escape hc hclosed, by simpa using hbegin⟩
  | case7 c rest hnewline hquote hend hbroken hescape ih =>
      rcases Option.map_eq_some_iff.mp h with ⟨tail, htail, rfl⟩
      rcases ih htail with ⟨hclosed, hbegin⟩
      refine ⟨.plain hnewline hquote ?_ hclosed, by simpa using hbegin⟩
      intro hc
      cases rest with
      | nil => exact hend hc rfl
      | cons d rest => exact hescape d rest hc rfl

end StringLiteral

/-!
# Lexemes of a kind
-/

def Lexeme : TokenKind → List Char → Prop
  | .int, text => Numeral.Digits text
  | .float, text =>
      ∃ whole fraction, text = whole ++ '.' :: fraction ∧ Numeral.Digits whole ∧
        Numeral.Digits fraction
  | .string, text => ∃ tail, text = '"' :: tail ∧ StringLiteral.Closed tail
  | .ident, text =>
      text.head?.any Text.isWordStart ∧ (∀ c ∈ text, Text.isWordChar c = true) ∧
        String.ofList text ∉ Token.keywords
  | .keyword, text => String.ofList text ∈ Token.keywords
  | .op, text => String.ofList text ∈ Token.operators
  | .newline, text => text = ['\n']
  | .eof, _ => False

namespace Lexeme

variable {kind : TokenKind} {text : List Char}

theorem word_breaks : Text.isWordChar '\n' = false ∧ Text.isWordChar '\r' = false := by
  decide +kernel

theorem spelled_breaks :
    ∀ word ∈ Token.keywords ++ Token.operators,
      word.toList ≠ [] ∧ '\n' ∉ word.toList ∧ '\r' ∉ word.toList := by
  decide +kernel

theorem ne_nil (h : Lexeme kind text) : text ≠ [] := by
  cases kind with
  | int => exact h.1
  | float =>
      rcases h with ⟨whole, fraction, rfl, _⟩
      simp
  | string =>
      rcases h with ⟨tail, rfl, _⟩
      simp
  | ident =>
      intro heq
      subst heq
      simp [Lexeme] at h
  | keyword => simpa using (spelled_breaks _ (List.mem_append_left _ h)).1
  | op => simpa using (spelled_breaks _ (List.mem_append_right _ h)).1
  | newline =>
      cases h
      simp
  | eof => cases h

theorem breaks_of_all {p : Char → Bool} {cs : List Char} (h : ∀ c ∈ cs, p c = true)
    (hfeed : p '\n' = false) (hreturn : p '\r' = false) : '\n' ∉ cs ∧ '\r' ∉ cs := by
  have hfalse : ∀ c, p c = false → c ∉ cs := by
    intro c hc hmem
    have htrue := h c hmem
    rw [hc] at htrue
    cases htrue
  exact ⟨hfalse '\n' hfeed, hfalse '\r' hreturn⟩

theorem breaks_of_digits {ds : List Char} (h : Numeral.Digits ds) : '\n' ∉ ds ∧ '\r' ∉ ds :=
  breaks_of_all h.2 (by decide) (by decide)

/-- Only newlines and string literals can hold a part of a line break. -/
theorem breaks_not_mem (h : Lexeme kind text) (hnewline : kind ≠ .newline)
    (hstring : kind ≠ .string) : '\n' ∉ text ∧ '\r' ∉ text := by
  cases kind with
  | int => exact breaks_of_digits h
  | float =>
      rcases h with ⟨whole, fraction, rfl, hwhole, hfraction⟩
      have hw := breaks_of_digits hwhole
      have hf := breaks_of_digits hfraction
      simp [hw, hf]
  | string => exact absurd rfl hstring
  | ident => exact breaks_of_all h.2.1 word_breaks.1 word_breaks.2
  | keyword => simpa using (spelled_breaks _ (List.mem_append_left _ h)).2
  | op => simpa using (spelled_breaks _ (List.mem_append_right _ h)).2
  | newline => exact absurd rfl hnewline
  | eof => cases h

theorem newline_not_mem (h : Lexeme kind text) (hnewline : kind ≠ .newline) : '\n' ∉ text := by
  by_cases hstring : kind = .string
  · subst hstring
    rcases h with ⟨tail, rfl, hclosed⟩
    simp [hclosed.newline_not_mem]
  · exact (h.breaks_not_mem hnewline hstring).1

theorem getLast?_ne_return (h : Lexeme kind text) (hnewline : kind ≠ .newline) :
    text.getLast? ≠ some '\r' := by
  by_cases hstring : kind = .string
  · subst hstring
    rcases h with ⟨tail, rfl, hclosed⟩
    simp [List.getLast?_cons, hclosed.getLast?]
  · intro hlast
    exact (h.breaks_not_mem hnewline hstring).2 (List.mem_of_getLast? hlast)

end Lexeme

/-!
# The first piece

Every branch of `first` cuts off a beginning of the text, and a token is cut off as a
lexeme of its kind.
-/

namespace Piece

variable {c : Char} {cs rest : List Char}

structure Starts (piece : Piece) (cs : List Char) : Prop where
  isPrefix : piece.text <+: cs
  ne_nil : piece.text ≠ []
  lexeme : ∀ kind text, piece = token kind text → Lexeme kind text

theorem starts_token {kind : TokenKind} {text : List Char} (hbegin : text <+: cs)
    (h : Lexeme kind text) : (token kind text).Starts cs := by
  refine ⟨hbegin, h.ne_nil, ?_⟩
  intro kind' text' heq
  cases heq
  exact h

theorem Starts.append_drop {piece : Piece} (h : piece.Starts (c :: rest)) :
    piece.text ++ rest.drop (piece.text.length - 1) = c :: rest := by
  rcases h.isPrefix with ⟨tail, htail⟩
  cases htext : piece.text with
  | nil => exact absurd htext h.ne_nil
  | cons d ds =>
      rw [htext, List.cons_append, List.cons.injEq] at htail
      rcases htail with ⟨rfl, rfl⟩
      simp

theorem digits_takeWhile (h : Text.isAsciiDigit c = true) (rest : List Char) :
    Numeral.Digits ((c :: rest).takeWhile Text.isAsciiDigit) := by
  constructor
  · simp [h]
  · intro d hd
    exact List.mem_takeWhile_imp hd

theorem starts_number (hc : Text.isAsciiDigit c = true) : (number (c :: rest)).Starts (c :: rest) := by
  have hwhole := digits_takeWhile hc rest
  have hint : (token .int ((c :: rest).takeWhile Text.isAsciiDigit)).Starts (c :: rest) :=
    starts_token (List.takeWhile_prefix _) hwhole
  unfold number
  split
  · rename_i d more hdrop
    split
    · rename_i hd
      refine starts_token ?_ ⟨_, _, rfl, hwhole, digits_takeWhile hd more⟩
      have hsplit : (c :: rest).takeWhile Text.isAsciiDigit ++ '.' :: d :: more = c :: rest := by
        rw [← hdrop, List.takeWhile_append_dropWhile]
      rcases List.takeWhile_prefix Text.isAsciiDigit (l := d :: more) with ⟨tail, htail⟩
      refine ⟨tail, ?_⟩
      rw [List.append_assoc, List.cons_append, htail, hsplit]
    · exact hint
  · exact hint

theorem starts_word (hc : Text.isWordStart c = true) : (word (c :: rest)).Starts (c :: rest) := by
  have hchar : Text.isWordChar c = true := by
    simp only [Text.isWordStart, Bool.or_eq_true] at hc
    rcases hc with hc | hc <;> simp [Text.isWordChar, hc]
  apply starts_token (List.takeWhile_prefix _)
  split
  · rename_i hkeyword
    simpa [Lexeme] using hkeyword
  · rename_i hident
    refine ⟨?_, fun d hd => List.mem_takeWhile_imp hd, ?_⟩
    · simpa [hchar] using hc
    · simpa using hident

theorem starts_quoted : (quoted rest).Starts ('"' :: rest) := by
  unfold quoted
  split
  · rename_i tail htail
    rcases StringLiteral.closed_of_closeQuote htail with ⟨hclosed, hbegin⟩
    exact starts_token (by simpa using hbegin) ⟨tail, rfl, hclosed⟩
  · refine ⟨?_, ?_, ?_⟩
    · simpa [text] using List.takeWhile_prefix _
    · simp [text]
    · intro kind text heq
      cases heq

theorem starts_operator {op : List Char} (h : operator? cs = some op) :
    (token .op op).Starts cs := by
  unfold operator? at h
  have hmem := List.mem_of_find?_eq_some h
  have hfound := List.find?_some h
  rcases List.mem_map.mp hmem with ⟨name, hname, rfl⟩
  apply starts_token (List.isPrefixOf_iff_prefix.mp hfound)
  simpa [Lexeme] using hname

theorem starts_first (c : Char) (rest : List Char) : (first c rest).Starts (c :: rest) := by
  fun_cases first c rest with
  | case1 hnewline =>
      rw [eq_of_beq hnewline]
      exact starts_token ⟨rest, rfl⟩ rfl
  | case2 => exact ⟨⟨rest, rfl⟩, by simp [text], by simp⟩
  | case3 =>
      refine ⟨?_, by simp [text], by simp⟩
      simpa [text] using List.takeWhile_prefix _
  | case4 _ _ _ hdigit => exact starts_number hdigit
  | case5 _ _ _ _ hword => exact starts_word hword
  | case6 _ _ _ _ _ hquote =>
      rw [eq_of_beq hquote]
      exact starts_quoted
  | case7 _ _ _ _ _ _ op hop => exact starts_operator hop
  | case8 => exact ⟨⟨rest, rfl⟩, by simp [text], by simp⟩

/-!
# All pieces
-/

theorem lexeme_of_mem_split {kind : TokenKind} {text : List Char} (h : token kind text ∈ split cs) :
    Lexeme kind text := by
  fun_induction split cs with
  | case1 => cases h
  | case2 c rest piece ih =>
      rcases List.mem_cons.mp h with hfirst | hrest
      · exact (starts_first c rest).lexeme kind text hfirst.symm
      · exact ih hrest

/-- The pieces of a text, put together, are the text. -/
theorem flatMap_split (cs : List Char) : (split cs).flatMap text = cs := by
  fun_induction split cs with
  | case1 => rfl
  | case2 c rest piece ih =>
      rw [List.flatMap_cons, ih]
      exact (starts_first c rest).append_drop

end Piece
end TypedAnt
