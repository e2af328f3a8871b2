import Mathlib.Data.List.DropRight
import TypedAnt.Position
import TypedAnt.Proofs.Text.Offsets
import TypedAnt.Proofs.Token.Lexing
import TypedAnt.Proofs.Token.LongestMatch

/-!
# The word before a position

What has been typed of a name is found by going back from the position, while the lexer goes
forward through the whole text.  Both find the same words: within a word of the lexer that
does not touch another word character, the part of the word before the position is found.
-/

namespace TypedAnt

/-!
# Runs of word characters
-/

namespace Text

/-- The longest run of word characters that the characters end in. -/
structure LastWord (cs run : List Char) : Prop where
  isSuffix : run <:+ cs
  word : ∀ c ∈ run, isWordChar c = true
  length_le : ∀ other, other <:+ cs → (∀ c ∈ other, isWordChar c = true) →
    other.length ≤ run.length

theorem lastWord_rtakeWhile (cs : List Char) : LastWord cs (cs.rtakeWhile isWordChar) where
  isSuffix := List.rtakeWhile_suffix isWordChar cs
  word _ hc := List.mem_rtakeWhile_imp hc
  length_le other hsuffix hword := by
    have hreverse : other.reverse <+: cs.reverse := List.reverse_prefix.mpr hsuffix
    have hbegin := prefix_takeWhile hreverse fun c hc => hword c (List.mem_reverse.mp hc)
    simpa [List.rtakeWhile] using hbegin.length_le

theorem rtakeWhile_append {before run : List Char} (hrun : ∀ c ∈ run, isWordChar c = true)
    (hbefore : ∀ c ∈ before.getLast?, isWordChar c = false) :
    (before ++ run).rtakeWhile isWordChar = run := by
  have hnone : before.reverse.takeWhile isWordChar = [] := by
    cases hreverse : before.reverse with
    | nil => rfl
    | cons c cs =>
        have hlast : before.getLast? = some c := by
          rw [List.getLast?_eq_head?_reverse, hreverse]
          rfl
        simp [hbefore c hlast]
  have hback : ∀ c ∈ run.reverse, isWordChar c = true :=
    fun c hc => hrun c (List.mem_reverse.mp hc)
  rw [List.rtakeWhile, List.reverse_append, List.takeWhile_append_of_pos hback, hnone,
    List.append_nil, List.reverse_reverse]

end Text

/-!
# Tokens on their lines
-/

namespace Token

variable {t : Token} {text : String}

def before (t : Token) (text : String) : List Char :=
  (Text.lineAt text (t.line - 1)).take (t.column - 1).toNat

theorem line_of_mem (h : t ∈ (Lexed.ofText text).tokens) (hnewline : t.kind ≠ .newline)
    (heof : t.kind ≠ .eof) :
    ∃ after, Text.lineAt text (t.line - 1) = t.before text ++ t.value.toList ++ after := by
  cases Lexed.located_of_mem h with
  | @lexeme kind value front back hlexeme hsplit =>
      rcases Place.line_inside hsplit hlexeme.ne_nil (hlexeme.newline_not_mem hnewline)
        (hlexeme.getLast?_ne_return hnewline) with ⟨n, seg, zs, hplace, hline⟩
      have hat : Text.lineAt text ((behind front kind value).line - 1) = seg ++ value ++ zs := by
        simpa [behind, hplace] using Text.lineAt_of_getElem? hline
      refine ⟨zs, ?_⟩
      rw [before, hat]
      simp [behind, hplace]
  | eof => exact absurd rfl heof

theorem isWordChar_of_mem (h : t ∈ (Lexed.ofText text).tokens)
    (hkind : t.kind = .ident ∨ t.kind = .keyword) :
    ∀ c ∈ t.value.toList, Text.isWordChar c = true := by
  have hfamily : t.kind.family = .ident := by
    rcases hkind with hkind | hkind <;> rw [hkind] <;> rfl
  cases Lexed.located_of_mem h with
  | lexeme hlexeme _ => simpa [behind] using hlexeme.isWordChar_of_word hfamily
  | eof => cases hfamily

end Token

namespace Position

variable {units : Units} {text : String}

theorem toList_stem (p : Position) (units : Units) (text : String) :
    (p.stem units text).toList = (p.before units text).rtakeWhile Text.isWordChar := by
  simp [stem, List.rtakeWhile]

theorem before_of_line {n : Int} {front back : List Char}
    (h : Text.lineAt text n = front ++ back) :
    before ⟨n, units.count front⟩ units text = front := by
  simp only [before, h]
  rw [units.offset_count, List.take_left]

theorem stem_of_line {n : Int} {front run back : List Char}
    (hline : Text.lineAt text n = front ++ run ++ back)
    (hrun : ∀ c ∈ run, Text.isWordChar c = true)
    (hfront : ∀ c ∈ front.getLast?, Text.isWordChar c = false) :
    stem ⟨n, units.count (front ++ run)⟩ units text = String.ofList run := by
  rw [← String.toList_inj, toList_stem, before_of_line hline, Text.rtakeWhile_append hrun hfront,
    String.toList_ofList]

/--
The word before a position is the longest run of word characters that ends at the character
where the column stands.  A word of the lexer stands on its line, and if no word character
touches it on the left, the position behind its first `k` characters has just these
characters before it.
-/
theorem stem_agrees_with_lexer (units : Units) (text : String) :
    (∀ t ∈ (Lexed.ofText text).tokens, t.kind = .ident ∨ t.kind = .keyword →
      t.before text ++ t.value.toList <+: Text.lineAt text (t.line - 1) ∧
        ((∀ c ∈ (t.before text).getLast?, Text.isWordChar c = false) →
          ∀ k ≤ t.value.length,
            stem ⟨t.line - 1, units.count (t.before text ++ t.value.toList.take k)⟩ units text =
              String.ofList (t.value.toList.take k))) ∧
      ∀ p : Position, 0 ≤ p.character →
        ∃ i, IsGreatest {i | i ≤ (Text.lineAt text p.line).length ∧
            (units.count ((Text.lineAt text p.line).take i) : Int) ≤ p.character} i ∧
          Text.LastWord ((Text.lineAt text p.line).take i) (p.stem units text).toList := by
  constructor
  · intro t ht hkind
    have hnewline : t.kind ≠ .newline := by
      rcases hkind with hkind | hkind <;> simp [hkind]
    have heof : t.kind ≠ .eof := by
      rcases hkind with hkind | hkind <;> simp [hkind]
    rcases Token.line_of_mem ht hnewline heof with ⟨after, hline⟩
    refine ⟨⟨after, hline.symm⟩, ?_⟩
    intro hfree k _
    have hcut : Text.lineAt text (t.line - 1) =
        t.before text ++ t.value.toList.take k ++ (t.value.toList.drop k ++ after) := by
      rw [hline, List.append_assoc, List.append_assoc, ← List.append_assoc (t.value.toList.take k),
        List.take_append_drop]
    apply stem_of_line hcut _ hfree
    intro c hc
    exact Token.isWordChar_of_mem ht hkind c (List.mem_of_mem_take hc)
  · intro p hcharacter
    refine ⟨_, units.offset_isGreatest _ hcharacter, ?_⟩
    rw [toList_stem]
    exact Text.lastWord_rtakeWhile _

def typedName : String :=
  "x = \"😀\" + naïve½\r\n"

theorem stem_agrees_with_lexer_typedName :
    let t : Token := ⟨.ident, "naïve½", 1, 11⟩
    let line := Text.lineAt typedName 0
    t ∈ (Lexed.ofText typedName).tokens ∧ t.before typedName = "x = \"😀\" + ".toList ∧
      t.before typedName ++ t.value.toList <+: line ∧
      stem ⟨0, 17⟩ .utf8 typedName = "naï" ∧
      stem ⟨0, 16⟩ .utf8 typedName = "na" ∧
      ∃ i, IsGreatest {i | i ≤ line.length ∧ (Units.utf8.count (line.take i) : Int) ≤ 16} i ∧
        Text.LastWord (line.take i) ['n', 'a'] := by
  intro t line
  have ht : t ∈ (Lexed.ofText typedName).tokens := by
    decide +kernel
  have hbefore : t.before typedName = "x = \"😀\" + ".toList := by
    decide +kernel
  have hspace : Text.isWordChar ' ' = false := by
    decide +kernel
  have hlast : (t.before typedName).getLast? = some ' ' := by
    rw [hbefore]
    decide +kernel
  have hfree : ∀ c ∈ (t.before typedName).getLast?, Text.isWordChar c = false := by
    intro c hc
    cases hlast.symm.trans hc
    exact hspace
  have hcolumn : Units.utf8.count (t.before typedName ++ t.value.toList.take 3) = 17 := by
    rw [hbefore]
    decide +kernel
  have hinside : stem ⟨0, 16⟩ .utf8 typedName = "na" := by
    decide +kernel
  rcases stem_agrees_with_lexer .utf8 typedName with ⟨hwords, hruns⟩
  rcases hwords t ht (Or.inl rfl) with ⟨hline, hstem⟩
  have hthree := hstem hfree 3 (by decide +kernel)
  rw [hcolumn] at hthree
  have hvalue : String.ofList (t.value.toList.take 3) = "naï" := by
    decide +kernel
  have hrun := hruns ⟨0, 16⟩ (by decide)
  rw [hinside] at hrun
  exact ⟨ht, hbefore, hline, hthree.trans hvalue, hinside, hrun⟩

end Position
end TypedAnt
