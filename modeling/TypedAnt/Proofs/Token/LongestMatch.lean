import Mathlib.Data.List.Infix
import TypedAnt.Proofs.Token.Lexeme

/-!
# Longest matches

Every token that is cut off a text is the longest lexeme that the text begins with, of
whatever kind, and it is a lexeme of no other kind.
-/

namespace TypedAnt

/-!
# The first character of a lexeme

The first character tells the kinds of lexemes apart, except for integers and floats, and for
identifiers and keywords.
-/

namespace TokenKind

def startsWith : TokenKind → Char → Bool
  | .int, c | .float, c => Text.isAsciiDigit c
  | .string, c => c == '"'
  | .ident, c | .keyword, c => Text.isWordStart c
  | .op, c => Token.operators.any fun op => op.toList.head? == some c
  | .newline, c => c == '\n'
  | .eof, _ => false

def family : TokenKind → TokenKind
  | .float => .int
  | .keyword => .ident
  | kind => kind

def nonWords : List TokenKind :=
  [.int, .float, .string, .op, .newline, .eof]

theorem word_or_nonWord (kind : TokenKind) : kind.family = .ident ∨ kind ∈ nonWords := by
  cases kind <;> decide

theorem startsWith_word {kind : TokenKind} {c : Char} (h : kind.family = .ident) :
    kind.startsWith c = Text.isWordStart c := by
  cases kind <;> first | rfl | cases h

def marks : List Char :=
  "\n\"0123456789".toList ++ Token.operators.flatMap fun op => op.toList.take 1

theorem isWordStart_of_mem_marks {c : Char} (hc : c ∈ marks) : Text.isWordStart c = false := by
  have hall : marks.all (fun c => !Text.isWordStart c) = true := by
    decide +kernel
  simpa using List.all_eq_true.mp hall c hc

theorem family_of_mem_marks {c : Char} (hc : c ∈ marks) :
    ∀ k ∈ nonWords, ∀ l ∈ nonWords, k.startsWith c = true → l.startsWith c = true →
      k.family = l.family := by
  have hall : (marks.all fun c => decide (∀ k ∈ nonWords, ∀ l ∈ nonWords,
      k.startsWith c = true → l.startsWith c = true → k.family = l.family)) = true := by
    decide +kernel
  exact of_decide_eq_true (List.all_eq_true.mp hall c hc)

theorem mem_marks_of_digit {c : Char} (h : Text.isAsciiDigit c = true) : c ∈ marks := by
  have hbounds := Numeral.toNat_of_digit h
  have hall : ∀ n < 58, 48 ≤ n → Char.ofNat n ∈ marks := by
    decide +kernel
  have hmem := hall c.toNat (Nat.lt_succ_of_le hbounds.2) hbounds.1
  rwa [Char.ofNat_toNat] at hmem

theorem mem_marks_of_operator {c : Char} (h : startsWith .op c = true) : c ∈ marks := by
  rcases List.any_eq_true.mp h with ⟨op, hop, hhead⟩
  apply List.mem_append_right
  apply List.mem_flatMap.mpr
  refine ⟨op, hop, ?_⟩
  cases hchars : op.toList with
  | nil =>
      rw [hchars] at hhead
      cases hhead
  | cons d rest =>
      rw [hchars] at hhead
      simpa using (eq_of_beq hhead).symm

theorem mem_marks {kind : TokenKind} {c : Char} (hkind : kind ∈ nonWords)
    (h : kind.startsWith c = true) : c ∈ marks := by
  cases kind with
  | int | float => exact mem_marks_of_digit h
  | string =>
      rw [eq_of_beq h]
      decide +kernel
  | op => exact mem_marks_of_operator h
  | newline =>
      rw [eq_of_beq h]
      decide +kernel
  | ident | keyword => exact absurd hkind (by decide)
  | eof => cases h

theorem family_eq {k l : TokenKind} {c : Char} (hk : k.startsWith c = true)
    (hl : l.startsWith c = true) : k.family = l.family := by
  have hwords {k l : TokenKind} (hk : k.startsWith c = true) (hl : l.startsWith c = true)
      (hword : k.family = .ident) (hnon : l ∈ nonWords) : False := by
    rw [startsWith_word hword, isWordStart_of_mem_marks (mem_marks hnon hl)] at hk
    cases hk
  rcases word_or_nonWord k with hkword | hknon
  · rcases word_or_nonWord l with hlword | hlnon
    · rw [hkword, hlword]
    · exact (hwords hk hl hkword hlnon).elim
  · rcases word_or_nonWord l with hlword | hlnon
    · exact (hwords hl hk hlword hknon).elim
    · exact family_of_mem_marks (mem_marks hknon hk) k hknon l hlnon hk hl

end TokenKind

theorem Lexeme.startsWith {kind : TokenKind} {c : Char} {cs : List Char}
    (h : Lexeme kind (c :: cs)) : kind.startsWith c = true := by
  cases kind with
  | int => exact h.2 c List.mem_cons_self
  | float =>
      rcases h with ⟨whole, fraction, htext, hwhole, _⟩
      cases whole with
      | nil => exact absurd rfl hwhole.1
      | cons d whole =>
          cases htext
          exact hwhole.2 c List.mem_cons_self
  | string =>
      rcases h with ⟨tail, htext, _⟩
      cases htext
      rfl
  | ident => simpa [TokenKind.startsWith] using h.1
  | keyword =>
      have hall : ∀ word ∈ Token.keywords, word.toList.head?.all Text.isWordStart = true := by
        decide +kernel
      simpa [TokenKind.startsWith] using hall _ h
  | op =>
      refine List.any_eq_true.mpr ⟨_, h, ?_⟩
      simp
  | newline =>
      cases h
      rfl
  | eof => cases h

/-- All lexemes at the beginning of a text are of one family. -/
theorem Lexeme.family_eq {kind other : TokenKind} {text longer cs : List Char}
    (h : Lexeme kind text) (hbegin : text <+: cs) (hother : Lexeme other longer)
    (hlonger : longer <+: cs) : other.family = kind.family := by
  cases text with
  | nil => exact absurd rfl h.ne_nil
  | cons c text =>
      cases longer with
      | nil => exact absurd rfl hother.ne_nil
      | cons d longer =>
          rcases hbegin with ⟨rest, rfl⟩
          cases (List.cons_prefix_cons.mp hlonger).1
          exact TokenKind.family_eq hother.startsWith h.startsWith

/-!
# Longest lexemes
-/

/-- The text is the longest lexeme at the beginning of `cs`, and it is one of this kind only. -/
structure Lexeme.Longest (kind : TokenKind) (text cs : List Char) : Prop where
  lexeme : Lexeme kind text
  isPrefix : text <+: cs
  length_le : ∀ other longer, Lexeme other longer → longer <+: cs → longer.length ≤ text.length
  kind_eq : ∀ other, Lexeme other text → other = kind

def NoLexeme (cs : List Char) : Prop :=
  ∀ kind text, Lexeme kind text → ¬ text <+: cs

theorem prefix_takeWhile {p : Char → Bool} {xs ys : List Char} (h : xs <+: ys)
    (hxs : ∀ x ∈ xs, p x = true) : xs <+: ys.takeWhile p := by
  rcases h with ⟨zs, rfl⟩
  rw [List.takeWhile_append_of_pos hxs]
  exact List.prefix_append _ _

theorem prefix_of_mark_not_mem {mark : Char} {xs ys zs : List Char} (h : xs <+: ys ++ mark :: zs)
    (hmark : mark ∉ xs) : xs <+: ys := by
  by_cases hlength : xs.length ≤ ys.length
  · exact (List.isPrefix_append_of_length hlength).mp h
  · have hthrough : ys ++ [mark] <+: xs := by
      refine List.prefix_of_prefix_length_le ⟨zs, ?_⟩ h ?_
      · rw [List.append_assoc, List.singleton_append]
      · rw [List.length_append]
        exact Nat.lt_of_not_le hlength
    exact absurd (hthrough.subset (by simp)) hmark

theorem StringLiteral.closeQuote_of_closed {tail rest : List Char} (h : Closed tail)
    (hbegin : tail <+: rest) : closeQuote rest = some tail := by
  rcases hbegin with ⟨after, rfl⟩
  induction h with
  | quote => rfl
  | escape _ _ ih => simp [closeQuote, ih]
  | plain _ _ hbackslash _ ih => simp [closeQuote, hbackslash, ih]

namespace Lexeme

variable {kind : TokenKind} {c : Char} {text cs rest whole fraction : List Char}

theorem Longest.of_family (h : Lexeme kind text) (hbegin : text <+: cs)
    (hother : ∀ other longer, other.family = kind.family → Lexeme other longer → longer <+: cs →
      longer.length ≤ text.length ∧ (longer = text → other = kind)) : Longest kind text cs where
  lexeme := h
  isPrefix := hbegin
  length_le other longer hlexeme hlonger :=
    (hother other longer (h.family_eq hbegin hlexeme hlonger) hlexeme hlonger).1
  kind_eq other hlexeme :=
    (hother other text (h.family_eq hbegin hlexeme hbegin) hlexeme hbegin).2 rfl

theorem longest_newline (rest : List Char) : Longest .newline ['\n'] ('\n' :: rest) := by
  refine .of_family rfl ⟨rest, rfl⟩ ?_
  intro other longer hfamily hlexeme _
  cases other with
  | newline =>
      cases hlexeme
      exact ⟨Nat.le_refl _, fun _ => rfl⟩
  | _ => cases hfamily

theorem longest_string {tail : List Char} (h : StringLiteral.closeQuote rest = some tail) :
    Longest .string ('"' :: tail) ('"' :: rest) := by
  rcases StringLiteral.closed_of_closeQuote h with ⟨hclosed, hbegin⟩
  refine .of_family ⟨tail, rfl, hclosed⟩ (List.cons_prefix_cons.mpr ⟨rfl, hbegin⟩) ?_
  intro other longer hfamily hlexeme hlonger
  cases other with
  | string =>
      rcases hlexeme with ⟨tail', rfl, hclosed'⟩
      have hsame := StringLiteral.closeQuote_of_closed hclosed' (List.cons_prefix_cons.mp hlonger).2
      rw [h] at hsame
      cases hsame
      exact ⟨Nat.le_refl _, fun _ => rfl⟩
  | _ => cases hfamily

/-!
# Numbers
-/

theorem not_digit_point : Text.isAsciiDigit '.' = false := by
  decide

theorem float_prefix (hbegin : whole ++ '.' :: fraction <+: cs) (hwhole : Numeral.Digits whole)
    (hfraction : Numeral.Digits fraction) :
    ∃ d more, cs.dropWhile Text.isAsciiDigit = '.' :: d :: more ∧ Text.isAsciiDigit d = true ∧
      whole = cs.takeWhile Text.isAsciiDigit ∧
      fraction <+: (d :: more).takeWhile Text.isAsciiDigit := by
  rcases hbegin with ⟨after, rfl⟩
  cases fraction with
  | nil => exact absurd rfl hfraction.1
  | cons d ds =>
      rw [List.append_assoc, List.takeWhile_append_of_pos hwhole.2,
        List.dropWhile_append_of_pos hwhole.2]
      refine ⟨d, ds ++ after, ?_, hfraction.2 d List.mem_cons_self, ?_, ?_⟩
      · simp [not_digit_point]
      · simp [not_digit_point]
      · exact prefix_takeWhile ⟨after, rfl⟩ hfraction.2

theorem longest_int (h : Numeral.Digits (cs.takeWhile Text.isAsciiDigit))
    (hpoint : ∀ d more, cs.dropWhile Text.isAsciiDigit = '.' :: d :: more →
      Text.isAsciiDigit d = false) :
    Longest .int (cs.takeWhile Text.isAsciiDigit) cs := by
  refine .of_family h (List.takeWhile_prefix _) ?_
  intro other longer hfamily hlexeme hlonger
  cases other with
  | int => exact ⟨(prefix_takeWhile hlonger hlexeme.2).length_le, fun _ => rfl⟩
  | float =>
      rcases hlexeme with ⟨whole, fraction, rfl, hwhole, hfraction⟩
      rcases float_prefix hlonger hwhole hfraction with ⟨d, more, hdrop, hd, _⟩
      rw [hpoint d more hdrop] at hd
      cases hd
  | _ => cases hfamily

theorem longest_float {d : Char} {more : List Char}
    (h : Numeral.Digits (cs.takeWhile Text.isAsciiDigit))
    (hdrop : cs.dropWhile Text.isAsciiDigit = '.' :: d :: more) (hd : Text.isAsciiDigit d = true) :
    Longest .float
      (cs.takeWhile Text.isAsciiDigit ++ '.' :: (d :: more).takeWhile Text.isAsciiDigit) cs := by
  have hbegin : cs.takeWhile Text.isAsciiDigit ++ '.' :: (d :: more).takeWhile Text.isAsciiDigit
      <+: cs := by
    rcases List.takeWhile_prefix Text.isAsciiDigit (l := d :: more) with ⟨after, hafter⟩
    refine ⟨after, ?_⟩
    rw [List.append_assoc, List.cons_append, hafter, ← hdrop, List.takeWhile_append_dropWhile]
  refine .of_family ⟨_, _, rfl, h, Piece.digits_takeWhile hd more⟩ hbegin ?_
  intro other longer hfamily hlexeme hlonger
  cases other with
  | int =>
      have hdigits := (prefix_takeWhile hlonger hlexeme.2).length_le
      refine ⟨?_, ?_⟩
      · rw [List.length_append]
        exact Nat.le_trans hdigits (Nat.le_add_right _ _)
      · intro heq
        have hpoint := hlexeme.2 '.' (by rw [heq]; simp)
        cases hpoint
  | float =>
      rcases hlexeme with ⟨whole, fraction, rfl, hwhole, hfraction⟩
      rcases float_prefix hlonger hwhole hfraction with ⟨d', more', hdrop', _, rfl, hfraction'⟩
      cases hdrop.symm.trans hdrop'
      refine ⟨?_, fun _ => rfl⟩
      rw [List.length_append, List.length_append, List.length_cons, List.length_cons]
      exact Nat.add_le_add_left (Nat.succ_le_succ hfraction'.length_le) _
  | _ => cases hfamily

theorem longest_number (hc : Text.isAsciiDigit c = true) (rest : List Char) :
    ∃ kind text, Piece.number (c :: rest) = .token kind text ∧ Longest kind text (c :: rest) := by
  have hwhole := Piece.digits_takeWhile hc rest
  unfold Piece.number
  split
  · rename_i d more hdrop
    split
    · rename_i hd
      exact ⟨_, _, rfl, longest_float hwhole hdrop hd⟩
    · rename_i hd
      refine ⟨_, _, rfl, longest_int hwhole ?_⟩
      intro d' more' hdrop'
      cases hdrop.symm.trans hdrop'
      simpa using hd
  · rename_i hdrop
    exact ⟨_, _, rfl, longest_int hwhole fun d more heq => absurd heq (hdrop d more)⟩

/-!
# Words and operators
-/

theorem isWordChar_of_keyword :
    ∀ word ∈ Token.keywords, ∀ c ∈ word.toList, Text.isWordChar c = true := by
  have hall : ∀ word ∈ Token.keywords, word.toList.all Text.isWordChar = true := by
    decide +kernel
  intro word hword
  exact List.all_eq_true.mp (hall word hword)

theorem isWordChar_of_word (h : Lexeme kind text) (hfamily : kind.family = .ident) :
    ∀ c ∈ text, Text.isWordChar c = true := by
  cases kind with
  | ident => exact h.2.1
  | keyword => simpa using isWordChar_of_keyword _ h
  | _ => cases hfamily

theorem longest_word (hc : Text.isWordStart c = true) (rest : List Char) :
    ∃ kind text, Piece.word (c :: rest) = .token kind text ∧ Longest kind text (c :: rest) := by
  have hstarts : (Piece.word (c :: rest)).Starts (c :: rest) := Piece.starts_word hc
  unfold Piece.word at hstarts ⊢
  refine ⟨_, _, rfl, ?_⟩
  have hlexeme := hstarts.lexeme _ _ rfl
  refine .of_family hlexeme (List.takeWhile_prefix _) ?_
  intro other longer hfamily hother hlonger
  have hword : other.family = .ident := by
    rw [hfamily]
    split <;> rfl
  refine ⟨(prefix_takeWhile hlonger (hother.isWordChar_of_word hword)).length_le, ?_⟩
  intro heq
  subst heq
  split
  · rename_i hkeyword
    cases other with
    | ident => exact absurd (by simpa using hkeyword) hother.2.2
    | keyword => rfl
    | _ => cases hword
  · rename_i hident
    cases other with
    | ident => rfl
    | keyword => exact absurd hother (by simpa [Lexeme] using hident)
    | _ => cases hword

theorem operators_by_length :
    (Token.operators.map String.toList).Pairwise fun op later => later.length ≤ op.length := by
  decide +kernel

theorem longest_operator {op : List Char} (h : Piece.operator? cs = some op) :
    Longest .op op cs := by
  have hstarts := Piece.starts_operator h
  refine .of_family (hstarts.lexeme _ _ rfl) hstarts.isPrefix ?_
  intro other longer hfamily hlexeme hlonger
  cases other with
  | op =>
      refine ⟨?_, fun _ => rfl⟩
      rcases List.find?_eq_some_iff_append.mp h with ⟨_, before, after, hsplit, hnone⟩
      have hmem : longer ∈ before ++ op :: after := by
        rw [← hsplit]
        exact List.mem_map.mpr ⟨_, hlexeme, String.toList_ofList⟩
      have hsorted := operators_by_length
      rw [hsplit, List.pairwise_append, List.pairwise_cons] at hsorted
      rcases List.mem_append.mp hmem with hbefore | hrest
      · have hrefused := hnone longer hbefore
        rw [List.isPrefixOf_iff_prefix.mpr hlonger] at hrefused
        cases hrefused
      · rcases List.mem_cons.mp hrest with rfl | hafter
        · exact Nat.le_refl _
        · exact hsorted.2.1.1 longer hafter
  | _ => cases hfamily

theorem operator?_of_lexeme (h : Lexeme .op text) (hbegin : text <+: cs) :
    Piece.operator? cs ≠ none := by
  intro hnone
  have hrefused := List.find?_eq_none.mp hnone text
    (List.mem_map.mpr ⟨_, h, String.toList_ofList⟩)
  exact hrefused (List.isPrefixOf_iff_prefix.mpr hbegin)

end Lexeme

end TypedAnt
