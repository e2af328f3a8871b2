import Mathlib.Data.List.Basic
import Mathlib.Data.List.Induction
import TypedAnt.Proofs.Text.Columns
import TypedAnt.Proofs.Token
import TypedAnt.Proofs.Token.Lexeme
import TypedAnt.Token.Lexing

/-!
# Where tokens stand

The pieces of a text follow one another without a gap, so the place that is counted for a token
is the place where its characters stand: on a line of the text, behind as many
characters as its column says.
-/

namespace TypedAnt

/-!
# Places
-/

/--
The place after `before` is on the line that `before` ends on, behind the characters that
`before` has on that line, whatever comes next.
-/
theorem Place.after_start (before : List Char) :
    ∃ n seg, Place.start.after before = ⟨n + 1, seg.length + 1⟩ ∧
      ∀ rest run more, Text.splitAt '\n' rest = run :: more →
        (Text.splitAt '\n' (before ++ rest)).drop n = (seg ++ run) :: more := by
  -- From the left the lines are counted, so the last character is taken off.
  induction before using List.reverseRecOn with
  | nil => exact ⟨0, [], rfl, fun rest run more h => h⟩
  | append_singleton before c ih =>
      rcases ih with ⟨n, seg, hplace, hlines⟩
      have hnext : Place.start.after (before ++ [c]) = (Place.start.after before).next c := by
        simp [Place.after]
      by_cases hc : c = '\n'
      · subst hc
        refine ⟨n + 1, [], ?_, ?_⟩
        · rw [hnext, hplace]
          rfl
        · intro rest run more h
          have hdrop := hlines ('\n' :: rest) [] (run :: more)
            (by rw [Text.splitAt_cons_self, h])
          rw [List.append_assoc, List.singleton_append, ← List.drop_drop, hdrop]
          rfl
      · refine ⟨n, seg ++ [c], ?_, ?_⟩
        · rw [hnext, hplace]
          simp [Place.next, hc]
        · intro rest run more h
          have hdrop := hlines (c :: rest) (c :: run) more (Text.splitAt_cons_of_ne hc h)
          rw [List.append_assoc, List.singleton_append, hdrop]
          simp

/-- What stays on its line and does not end in a carriage return is found on a line of the text. -/
theorem Place.line_inside {text : String} {before value after : List Char}
    (hsplit : text.toList = before ++ (value ++ after)) (hne : value ≠ []) (hline : '\n' ∉ value)
    (hlast : value.getLast? ≠ some '\r') :
    ∃ n seg zs, Place.start.after before = ⟨n + 1, seg.length + 1⟩ ∧
      (Text.lines text)[n]? = some (seg ++ value ++ zs) := by
  rcases Place.after_start before with ⟨n, seg, hplace, hlines⟩
  cases hafter : Text.splitAt '\n' after with
  | nil => exact absurd hafter (Text.splitAt_ne_nil _ _)
  | cons run more =>
      have hrun := hlines (value ++ after) (value ++ run) more
        (Text.splitAt_append_of_not_mem hline hafter)
      have hend : (seg ++ value).getLast? ≠ some '\r' := by
        rw [List.getLast?_append_of_ne_nil _ hne]
        exact hlast
      have hkept : ∃ zs, Text.dropReturn (seg ++ value ++ run) = seg ++ value ++ zs :=
        Text.dropReturn_append hend
      rcases hkept with ⟨zs, hzs⟩
      refine ⟨n, seg, zs, hplace, ?_⟩
      rw [← hzs, List.append_assoc]
      exact Text.getElem?_lines (hsplit ▸ hrun)

theorem Place.line_end {text : String} {before rest : List Char} {more : List (List Char)}
    (hsplit : text.toList = before ++ rest) (hrest : Text.splitAt '\n' rest = [] :: more) :
    ∃ n column line, Place.start.after before = ⟨n + 1, column + 1⟩ ∧
      (Text.lines text)[n]? = some line ∧ line.length ≤ column := by
  rcases Place.after_start before with ⟨n, seg, hplace, hlines⟩
  have hrun := hlines rest [] more hrest
  rw [List.append_nil] at hrun
  exact ⟨n, seg.length, Text.dropReturn seg, hplace, Text.getElem?_lines (hsplit ▸ hrun),
    Text.length_dropReturn_le seg⟩

/-!
# Tokens
-/

def Token.behind (before : List Char) (kind : TokenKind) (value : List Char) : Token :=
  ⟨kind, String.ofList value, (Place.start.after before).line, (Place.start.after before).column⟩

/-- Lexemes stand where they are found in the text, and the end of the text stands behind it. -/
inductive Token.Located (cs : List Char) : Token → Prop where
  | lexeme {kind : TokenKind} {value before after : List Char} :
      Lexeme kind value → cs = before ++ (value ++ after) → Located cs (behind before kind value)
  | eof : Located cs (behind cs .eof [])

namespace Lexed

variable {pieces : List Piece} {before : List Char} {t : Token}

theorem located_of_mem_ofPieces
    (hlexemes : ∀ kind text, Piece.token kind text ∈ pieces → Lexeme kind text)
    (h : t ∈ (ofPieces (Place.start.after before) pieces).tokens) :
    t.Located (before ++ pieces.flatMap Piece.text) := by
  induction pieces generalizing before with
  | nil =>
      rw [List.mem_singleton.mp h, List.flatMap_nil, List.append_nil]
      exact .eof
  | cons piece pieces ih =>
      have hnext : (Place.start.after before).after piece.text =
          Place.start.after (before ++ piece.text) := by
        simp [Place.after]
      have hrest : t ∈ (ofPieces ((Place.start.after before).after piece.text) pieces).tokens →
          t.Located (before ++ (piece :: pieces).flatMap Piece.text) := by
        intro hmem
        rw [hnext] at hmem
        rw [List.flatMap_cons, ← List.append_assoc]
        exact ih (fun kind text hpiece => hlexemes kind text (List.mem_cons_of_mem _ hpiece)) hmem
      cases piece with
      | token kind text =>
          rcases List.mem_cons.mp h with rfl | hmem
          · exact .lexeme (hlexemes kind text List.mem_cons_self) rfl
          · exact hrest hmem
      | blank c => exact hrest h
      | comment text => exact hrest h
      | stray c => exact hrest h
      | unclosed text => exact hrest h

theorem located_of_mem {text : String} (h : t ∈ (ofText text).tokens) : t.Located text.toList := by
  have hlocated : t.Located ([] ++ (Piece.split text.toList).flatMap Piece.text) :=
    located_of_mem_ofPieces (fun kind text => Piece.lexeme_of_mem_split) h
  rwa [List.nil_append, Piece.flatMap_split] at hlocated

theorem ended_ofPieces
    (hlexemes : ∀ kind text, Piece.token kind text ∈ pieces → Lexeme kind text) (p : Place) :
    Ended (ofPieces p pieces).tokens := by
  induction pieces generalizing p with
  | nil => exact ⟨[], _, rfl, noEof_nil, rfl⟩
  | cons piece pieces ih =>
      have hrest := ih (fun kind text hpiece => hlexemes kind text (List.mem_cons_of_mem _ hpiece))
        (p.after piece.text)
      cases piece with
      | token kind text =>
          have hkind : kind ≠ .eof := by
            intro heq
            subst heq
            exact hlexemes _ text List.mem_cons_self
          rcases hrest with ⟨w, eof, hw, hnone, heof⟩
          refine ⟨⟨kind, String.ofList text, p.line, p.column⟩ :: w, eof, ?_,
            noEof_cons.mpr ⟨hkind, hnone⟩, heof⟩
          rw [List.cons_append, ← hw]
          rfl
      | blank c => exact hrest
      | comment text => exact hrest
      | stray c => exact hrest
      | unclosed text => exact hrest

theorem ended_ofText (text : String) : Ended (ofText text).tokens :=
  ended_ofPieces (fun _ _ => Piece.lexeme_of_mem_split) .start

end Lexed
end TypedAnt
