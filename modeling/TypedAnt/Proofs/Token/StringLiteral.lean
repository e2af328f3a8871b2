import TypedAnt.Proofs.Token.Lexing
import TypedAnt.Proofs.Token.Scanning

/-!
# Literals and the texts that they denote

The body of a string literal is a row of marks: characters that stand for themselves, and
characters behind a backslash.  The lexer goes through a literal to find its closing quote, and
`unescape` goes through its body to find the escapes; both come upon the same marks.  So
every text can be written as a literal, and it is what the literal denotes.
-/

namespace TypedAnt
namespace StringLiteral

/-!
# Marks
-/

/-- A character as it is, or a character behind a backslash. -/
inductive Mark where
  | plain (c : Char)
  | escape (c : Char)
deriving DecidableEq, Repr

def escapes : List (Char × Char) :=
  [('n', '\n'), ('t', '\t'), ('r', '\r'), ('"', '"'), ('\\', '\\'), ('0', Char.ofNat 0)]

namespace Mark

def written : Mark → List Char
  | plain c => [c]
  | escape c => ['\\', c]

def Allowed : Mark → Prop
  | plain c => c ≠ '"' ∧ c ≠ '\\' ∧ c ≠ '\n'
  | escape c => c ≠ '\n'

def meaning : Mark → Char
  | plain c => c
  | escape c => (escapes.lookup c).getD c

def ofChar (c : Char) : Mark :=
  if c = '\n' then escape 'n' else if c = '"' ∨ c = '\\' then escape c else plain c

theorem allowed_ofChar (c : Char) : (ofChar c).Allowed := by
  unfold ofChar
  split
  · exact (by decide : 'n' ≠ '\n')
  · rename_i hnewline
    split
    · exact hnewline
    · rename_i hplain
      rw [not_or] at hplain
      exact ⟨hplain.1, hplain.2, hnewline⟩

theorem meaning_ofChar (c : Char) : (ofChar c).meaning = c := by
  unfold ofChar
  split
  · rename_i hnewline
    rw [hnewline]
    rfl
  · split
    · rename_i hescape
      rcases hescape with rfl | rfl <;> rfl
    · rfl

theorem meaning_escape (c : Char) : (escape c).meaning = escaped c := by
  by_cases hknown : c ∈ escapes.map Prod.fst
  · simp only [escapes, List.map_cons, List.map_nil, List.mem_cons, List.not_mem_nil,
      or_false] at hknown
    rcases hknown with rfl | rfl | rfl | rfl | rfl | rfl <;> rfl
  · have hlookup : escapes.lookup c = none := by
      rw [List.lookup_eq_none_iff]
      intro field hfield
      simpa using fun heq => hknown (List.mem_map.mpr ⟨field, hfield, heq.symm⟩)
    have hself : escaped c = c := by
      simp only [escapes, List.map_cons, List.map_nil, List.mem_cons, not_or] at hknown
      fun_cases escaped c <;> simp_all
    rw [hself, meaning, hlookup]
    rfl

end Mark

structure Spells (value : List Char) (marks : List Mark) : Prop where
  allowed : ∀ m ∈ marks, m.Allowed
  quoted : value = '"' :: (marks.flatMap Mark.written ++ ['"'])

def quote (s : String) : String :=
  String.ofList ('"' :: ((s.toList.map Mark.ofChar).flatMap Mark.written ++ ['"']))

theorem spells_quote (s : String) : Spells (quote s).toList (s.toList.map Mark.ofChar) where
  allowed m hm := by
    rcases List.mem_map.mp hm with ⟨c, _, rfl⟩
    exact Mark.allowed_ofChar c
  quoted := String.toList_ofList

/-!
# Marks that the lexer comes upon
-/

variable {marks others : List Mark} {value rest : List Char}

theorem closed_written (h : ∀ m ∈ marks, m.Allowed) :
    Closed (marks.flatMap Mark.written ++ ['"']) := by
  induction marks with
  | nil => exact .quote
  | cons m marks ih =>
      rcases List.forall_mem_cons.mp h with ⟨hm, hrest⟩
      cases m with
      | plain c => exact .plain hm.2.2 hm.1 hm.2.1 (ih hrest)
      | escape c => exact .escape hm (ih hrest)

theorem Closed.exists_marks {tail : List Char} (h : Closed tail) :
    ∃ marks : List Mark, (∀ m ∈ marks, m.Allowed) ∧
      tail = marks.flatMap Mark.written ++ ['"'] := by
  induction h with
  | quote => exact ⟨[], by simp, rfl⟩
  | @escape c _ hc _ ih =>
      rcases ih with ⟨marks, hallowed, rfl⟩
      exact ⟨.escape c :: marks, List.forall_mem_cons.mpr ⟨hc, hallowed⟩, rfl⟩
  | @plain c _ hnewline hquote hbackslash _ ih =>
      rcases ih with ⟨marks, hallowed, rfl⟩
      exact ⟨.plain c :: marks,
        List.forall_mem_cons.mpr ⟨⟨hquote, hbackslash, hnewline⟩, hallowed⟩, rfl⟩

theorem lexeme_iff_spells : Lexeme .string value ↔ ∃ marks, Spells value marks := by
  constructor
  · intro h
    rcases h with ⟨tail, rfl, hclosed⟩
    rcases hclosed.exists_marks with ⟨marks, hallowed, rfl⟩
    exact ⟨marks, hallowed, rfl⟩
  · intro h
    rcases h with ⟨marks, hspells⟩
    exact ⟨_, hspells.quoted, closed_written hspells.allowed⟩

theorem written_unique (h : ∀ m ∈ marks, m.Allowed) (hothers : ∀ m ∈ others, m.Allowed)
    (heq : others.flatMap Mark.written = marks.flatMap Mark.written) : others = marks := by
  induction marks generalizing others with
  | nil =>
      cases others with
      | nil => rfl
      | cons m others => cases m <;> cases heq
  | cons m marks ih =>
      rcases List.forall_mem_cons.mp h with ⟨hm, hrest⟩
      cases others with
      | nil => cases m <;> cases heq
      | cons m' others =>
          rcases List.forall_mem_cons.mp hothers with ⟨hm', hrest'⟩
          cases m with
          | plain c =>
              cases m' with
              | plain d =>
                  rcases List.cons.inj heq with ⟨rfl, htail⟩
                  rw [ih hrest hrest' htail]
              | escape d => exact absurd (List.cons.inj heq).1.symm hm.2.1
          | escape c =>
              cases m' with
              | plain d => exact absurd (List.cons.inj heq).1 hm'.2.1
              | escape d =>
                  rcases List.cons.inj (List.cons.inj heq).2 with ⟨rfl, htail⟩
                  rw [ih hrest hrest' htail]

theorem Spells.unique (h : Spells value marks) (hother : Spells value others) :
    others = marks := by
  have heq := hother.quoted.symm.trans h.quoted
  exact written_unique h.allowed hother.allowed (List.append_cancel_right (List.cons.inj heq).2)

/-!
# Marks that unescaping comes upon
-/

theorem body_of_spells (h : Spells value marks) : body value = marks.flatMap Mark.written := by
  have hlast : ('"' :: (marks.flatMap Mark.written ++ ['"'])).getLast? = some '"' := by
    rw [← List.cons_append, List.getLast?_concat]
  rw [h.quoted, body, if_pos ⟨by simp, hlast⟩, List.tail_cons, List.dropLast_concat]

theorem unescapeBody_plain {c : Char} (hc : c ≠ '\\') (rest : List Char) :
    unescapeBody (c :: rest) = c :: unescapeBody rest := by
  simp [unescapeBody, hc]

/-- Unescaping goes from the beginning of an allowed mark to its end. -/
theorem unescapeBody_written {m : Mark} (hm : m.Allowed) (rest : List Char) :
    unescapeBody (m.written ++ rest) = m.meaning :: unescapeBody rest := by
  cases m with
  | plain c => exact unescapeBody_plain hm.2.1 rest
  | escape c =>
      rw [Mark.meaning_escape]
      rfl

theorem unescapeBody_marks (h : ∀ m ∈ marks, m.Allowed) :
    unescapeBody (marks.flatMap Mark.written) = marks.map Mark.meaning := by
  induction marks with
  | nil => rfl
  | cons m marks ih =>
      rcases List.forall_mem_cons.mp h with ⟨hm, hrest⟩
      rw [List.flatMap_cons, unescapeBody_written hm, ih hrest, List.map_cons]

/--
How far unescaping can come: it has given the text `given`, and `rest` is left of the body.
With only a backslash left, no rule goes on.
-/
inductive Reading (body : List Char) : (given rest : List Char) → Prop where
  | start : Reading body [] body
  | plain {given rest : List Char} {c : Char} :
      c ≠ '\\' →
      Reading body given (c :: rest) →
      Reading body (given ++ [c]) rest
  | escape {given rest : List Char} {c : Char} :
      Reading body given ('\\' :: c :: rest) →
      Reading body (given ++ [escaped c]) rest

theorem Reading.unescapeBody_eq {body given : List Char} (h : Reading body given rest) :
    unescapeBody body = given ++ unescapeBody rest := by
  induction h with
  | start => rfl
  | @plain given rest c hc _ ih =>
      rw [ih, unescapeBody_plain hc, List.append_assoc]
      rfl
  | @escape given rest c _ ih =>
      rw [ih, unescapeBody, List.append_assoc]
      rfl

theorem Reading.between_marks {given : List Char} (hallowed : ∀ m ∈ marks, m.Allowed)
    (h : Reading (marks.flatMap Mark.written) given rest) :
    ∃ before after, marks = before ++ after ∧ given = before.map Mark.meaning ∧
      rest = after.flatMap Mark.written := by
  induction h with
  | start => exact ⟨[], marks, rfl, rfl, rfl⟩
  | @plain given rest c hc _ ih =>
      rcases ih with ⟨before, after, rfl, rfl, hrest⟩
      cases after with
      | nil => cases hrest
      | cons m after =>
          cases m with
          | escape d => exact absurd (List.cons.inj hrest).1 hc
          | plain d =>
              rcases List.cons.inj hrest with ⟨rfl, rfl⟩
              exact ⟨before ++ [.plain c], after, by simp, by simp [Mark.meaning], rfl⟩
  | @escape given rest c _ ih =>
      rcases ih with ⟨before, after, rfl, rfl, hrest⟩
      cases after with
      | nil => cases hrest
      | cons m after =>
          cases m with
          | plain d =>
              have hd := hallowed (.plain d) (by simp)
              exact absurd (List.cons.inj hrest).1.symm hd.2.1
          | escape d =>
              rcases List.cons.inj (List.cons.inj hrest).2 with ⟨rfl, rfl⟩
              exact ⟨before ++ [.escape c], after, by simp, by simp [Mark.meaning_escape], rfl⟩

theorem written_ne_backslash (h : ∀ m ∈ marks, m.Allowed) :
    marks.flatMap Mark.written ≠ ['\\'] := by
  cases marks with
  | nil => simp
  | cons m marks =>
      have hm := h m List.mem_cons_self
      cases m with
      | plain c =>
          intro heq
          exact hm.2.1 (List.cons.inj heq).1
      | escape c =>
          intro heq
          cases (List.cons.inj heq).2

theorem unescape_of_spells {literal : String} (h : Spells literal.toList marks) :
    unescape literal = String.ofList (marks.map Mark.meaning) := by
  rw [unescape, body_of_spells h, unescapeBody_marks h.allowed]

theorem unescape_quote (s : String) : unescape (quote s) = s := by
  have hmeaning : Mark.meaning ∘ Mark.ofChar = id := funext Mark.meaning_ofChar
  rw [unescape_of_spells (spells_quote s), List.map_map, hmeaning, List.map_id,
    String.ofList_toList]

/-!
# A text that is a literal
-/

theorem ofText_literal {literal : String} (h : Lexeme .string literal.toList) :
    Lexed.ofText literal =
      ⟨[⟨.string, literal, 1, 1⟩, ⟨.eof, "", 1, literal.length + 1⟩], []⟩ := by
  have hplace := Place.after_line (h.newline_not_mem (by decide))
  rcases h with ⟨tail, htext, hclosed⟩
  have hclose := closeQuote_of_closed hclosed (List.prefix_refl tail)
  have hcut : Piece.Cut ((Piece.token .string literal.toList).text ++ [])
      (.token .string literal.toList) := by
    rw [List.append_nil, Piece.text, htext]
    exact .token (Lexeme.longest_string hclose) (Piece.not_comment_of_ne (by decide))
  have hscanned : Piece.Scanned (literal.toList ++ []) [.token .string literal.toList] :=
    .next hcut .done
  rw [List.append_nil] at hscanned
  rw [Lexed.ofText, (Piece.scanned_split literal.toList).unique hscanned]
  simp only [Lexed.ofPieces, Piece.text, hplace, String.ofList_toList, String.length_toList]
  rfl

/--
Every text can be written as a literal that the lexer reads as a single token without an error,
and the text is what the literal denotes.  Every string token of a text, in turn, is a row
of marks between quotes, in one way only, and it denotes the row of their meanings.
Unescaping goes through it mark by mark: wherever it has come, it has given the meanings
of some of the marks, the other marks are left, and these are never a single backslash.
-/
theorem literals_denote_texts :
    (∀ s : String,
      Lexed.ofText (quote s) =
          ⟨[⟨.string, quote s, 1, 1⟩, ⟨.eof, "", 1, (quote s).length + 1⟩], []⟩ ∧
        unescape (quote s) = s) ∧
      ∀ (text : String), ∀ t ∈ (Lexed.ofText text).tokens, t.kind = .string →
        2 ≤ t.value.length ∧
          ∃ marks, Spells t.value.toList marks ∧
            (∀ others, Spells t.value.toList others → others = marks) ∧
            unescape t.value = String.ofList (marks.map Mark.meaning) ∧
            ∀ given rest, Reading (body t.value.toList) given rest →
              unescapeBody (body t.value.toList) = given ++ unescapeBody rest ∧
                rest ≠ ['\\'] ∧
                ∃ before after, marks = before ++ after ∧ given = before.map Mark.meaning ∧
                  rest = after.flatMap Mark.written := by
  constructor
  · intro s
    exact ⟨ofText_literal (lexeme_iff_spells.mpr ⟨_, spells_quote s⟩), unescape_quote s⟩
  · intro text t ht hkind
    have hlexeme : Lexeme .string t.value.toList := by
      cases Lexed.located_of_mem ht with
      | @lexeme kind value _ _ hlexeme _ =>
          cases hkind
          simpa [Token.behind] using hlexeme
      | eof => cases hkind
    rcases lexeme_iff_spells.mp hlexeme with ⟨marks, hspells⟩
    refine ⟨?_, marks, hspells, fun others => hspells.unique, unescape_of_spells hspells, ?_⟩
    · rw [← String.length_toList, hspells.quoted]
      simp
    · intro given rest hreading
      have hbetween := hreading
      rw [body_of_spells hspells] at hbetween
      rcases hbetween.between_marks hspells.allowed with ⟨before, after, rfl, hgiven, rfl⟩
      have hafter := (List.forall_mem_append.mp hspells.allowed).2
      exact ⟨hreading.unescapeBody_eq, written_ne_backslash hafter, before, after, rfl, hgiven, rfl⟩

def backslashes : String :=
  "s = \"\\\\\" + \"a\\\\\\\"\\q\""

theorem literals_denote_texts_backslashes :
    let t : Token := ⟨.string, "\"a\\\\\\\"\\q\"", 1, 12⟩
    let marks : List Mark := [.plain 'a', .escape '\\', .escape '"', .escape 'q']
    t ∈ (Lexed.ofText backslashes).tokens ∧ t.kind = .string ∧ 2 ≤ t.value.length ∧
      Spells t.value.toList marks ∧
      (∀ others, Spells t.value.toList others → others = marks) ∧
      unescape t.value = "a\\\"q" ∧
      Reading (body t.value.toList) ['a', '\\'] ['\\', '"', '\\', 'q'] ∧
      ∃ before after, marks = before ++ after ∧ ['a', '\\'] = before.map Mark.meaning ∧
        ['\\', '"', '\\', 'q'] = after.flatMap Mark.written := by
  intro t marks
  have ht : t ∈ (Lexed.ofText backslashes).tokens := by
    decide +kernel
  have hspells : Spells t.value.toList marks := by
    refine ⟨?_, by decide +kernel⟩
    simp [marks, Mark.Allowed]
  have hreading : Reading (body t.value.toList) ['a', '\\'] ['\\', '"', '\\', 'q'] := by
    rw [body_of_spells hspells]
    exact @Reading.escape _ ['a'] _ '\\' (@Reading.plain _ [] _ 'a' (by decide) .start)
  rcases literals_denote_texts.2 backslashes t ht rfl with
    ⟨hlength, found, _, hunique, hdenoted, hreads⟩
  cases hunique marks hspells
  exact ⟨ht, rfl, hlength, hspells, hunique, hdenoted, hreading, (hreads _ _ hreading).2.2⟩

end StringLiteral
end TypedAnt
