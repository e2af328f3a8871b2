import Mathlib.Data.List.TakeWhile
import TypedAnt.Numeral

/-!
# Plain numerals

A run of ASCII digits is read as the integer that it denotes, unless it is too long, and two
such runs with a point between them are read as a floating-point number.
-/

namespace TypedAnt
namespace Numeral

variable {c : Char} {cs whole fraction : List Char} {text : String}

def Digits (cs : List Char) : Prop :=
  cs ≠ [] ∧ ∀ c ∈ cs, Text.isAsciiDigit c = true

instance : Decidable (Digits cs) :=
  decidable_of_iff (cs ≠ [] ∧ cs.all Text.isAsciiDigit = true) (by rw [Digits, List.all_eq_true])

/-!
# Digits
-/

theorem toNat_of_digit (h : Text.isAsciiDigit c = true) : 48 ≤ c.toNat ∧ c.toNat ≤ 57 := by
  simp only [Text.isAsciiDigit, Bool.and_eq_true, decide_eq_true_eq, Char.le_def,
    UInt32.le_iff_toNat_le] at h
  exact h

theorem ne_of_digit {d : Char} (h : Text.isAsciiDigit c = true)
    (hd : d.toNat < 48 ∨ 57 < d.toNat) : c ≠ d := by
  intro heq
  subst heq
  have hbounds := toNat_of_digit h
  omega

theorem isPlainBlank_of_digit (h : Text.isAsciiDigit c = true) : isPlainBlank c = false := by
  have hbounds := toNat_of_digit h
  have hspace : c ≠ ' ' := ne_of_digit h (by decide)
  simp only [isPlainBlank, Bool.or_eq_false_iff, beq_eq_false_iff_ne, Bool.and_eq_false_iff,
    decide_eq_false_iff_not]
  exact ⟨hspace, Or.inr (by omega)⟩

theorem splitSign_of_digit (h : Text.isAsciiDigit c = true) :
    splitSign (c :: cs) = (false, c :: cs) := by
  have hminus : c ≠ '-' := ne_of_digit h (by decide)
  have hplus : c ≠ '+' := ne_of_digit h (by decide)
  simp [splitSign, hminus, hplus]

theorem asciiDigit?_of_digit (h : Text.isAsciiDigit c = true) :
    Text.asciiDigit? c = some (c.toNat - 48) := by
  simp only [Text.isAsciiDigit, Bool.and_eq_true, decide_eq_true_eq] at h
  simp [Text.asciiDigit?, h]

theorem length_digitValues (h : ∀ c ∈ cs, Text.isAsciiDigit c = true) :
    (digitValues cs).length = cs.length := by
  induction cs with
  | nil => rfl
  | cons c cs ih =>
      have hc := asciiDigit?_of_digit (h c List.mem_cons_self)
      have hcs := ih fun d hd => h d (List.mem_cons_of_mem _ hd)
      unfold digitValues at hcs ⊢
      simp [hc, hcs]

theorem underscoresInside_of_not_mem {before : Option Char} (hbefore : before ≠ some '_')
    (h : '_' ∉ cs) : underscoresInside before cs = true := by
  induction cs generalizing before with
  | nil => simp [underscoresInside, hbefore]
  | cons c cs ih =>
      simp only [List.mem_cons, not_or] at h
      have hc : c ≠ '_' := fun heq => h.1 heq.symm
      have hrest : underscoresInside (some c) cs = true := ih (by simpa using hc) h.2
      simp [underscoresInside, hc, hbefore, hrest]

/-!
# Integers
-/

theorem dropWhile_plainChar (hc : Text.isAsciiDigit c = true) (h : ∀ d ∈ c :: cs, d.toNat < 127) :
    ((c :: cs).map plainChar).dropWhile isPlainBlank = c :: cs := by
  have hplain : (c :: cs).map plainChar = (c :: cs).map id := by
    apply List.map_congr_left
    intro d hd
    simp [plainChar, h d hd]
  rw [hplain, List.map_id, List.dropWhile_cons_of_neg (by simp [isPlainBlank_of_digit hc])]

theorem readInt_eq_of_digits (h : Digits text.toList) :
    readInt text =
      if digitLimit < text.toList.length then .error (.tooLong text.toList.length)
      else .ok (ofDigits (digitValues text.toList)) := by
  unfold readInt
  generalize text.toList = cs at h
  rcases h with ⟨hne, hdigits⟩
  cases cs with
  | nil => exact absurd rfl hne
  | cons c cs =>
      have hc := hdigits c List.mem_cons_self
      have hstart : ((c :: cs).map plainChar).dropWhile isPlainBlank = c :: cs :=
        dropWhile_plainChar hc fun d hd =>
          Nat.lt_of_le_of_lt (toNat_of_digit (hdigits d hd)).2 (by decide)
      have hrun : ∀ d ∈ c :: cs, isDigitOrUnderscore d = true := by
        intro d hd
        simp [isDigitOrUnderscore, hdigits d hd]
      have hinside : underscoresInside none (c :: cs) = true := by
        apply underscoresInside_of_not_mem (by simp)
        intro hmem
        exact ne_of_digit (hdigits '_' hmem) (by decide) rfl
      have hcount := length_digitValues hdigits
      have hsome : (digitValues (c :: cs)).isEmpty = false := by
        rw [List.isEmpty_eq_false_iff, ← List.length_pos_iff, hcount]
        exact Nat.succ_pos _
      simp only [hstart, splitSign_of_digit hc, List.takeWhile_eq_self_iff.mpr hrun,
        List.dropWhile_eq_nil_iff.mpr hrun, hinside, hcount, hsome]
      simp

theorem toLower_of_digit (hc : Text.isAsciiDigit c = true) : c.toLower = c := by
  have hbounds := toNat_of_digit hc
  have hval : c.val.toNat = c.toNat := rfl
  have hupper : ¬(c.val ≥ 'A'.val ∧ c.val ≤ 'Z'.val) := by
    rw [ge_iff_le, UInt32.le_iff_toNat_le, UInt32.le_iff_toNat_le, hval]
    have hA : 'A'.val.toNat = 65 := rfl
    omega
  unfold Char.toLower
  rw [dif_neg hupper]

/-- No numeral that starts with a digit is one of the words for infinity or for no number. -/
theorem unsignedBits_of_digit (hc : Text.isAsciiDigit c = true) :
    unsignedBits (c :: cs) = decimalBits (c :: cs) := by
  have hfirst {word : String} (h : String.ofList ((c :: cs).map Char.toLower) = word) :
      word.toList.head? = some c := by
    rw [← h]
    simp [toLower_of_digit hc]
  unfold unsignedBits
  split
  · rename_i heq
    have hc' : 'i' = c := by simpa using hfirst heq
    exact absurd hc'.symm (ne_of_digit hc (by decide))
  · rename_i heq
    have hc' : 'i' = c := by simpa using hfirst heq
    exact absurd hc'.symm (ne_of_digit hc (by decide))
  · rename_i heq
    have hc' : 'n' = c := by simpa using hfirst heq
    exact absurd hc'.symm (ne_of_digit hc (by decide))
  · rfl

theorem decimalBits_of_digits (hwhole : Digits whole) (hfraction : Digits fraction) :
    decimalBits (whole ++ '.' :: fraction) =
      some (nearestBits (digitValues (whole ++ fraction)) (-(fraction.length : Int))) := by
  have hpoint : Text.isAsciiDigit '.' = false := by decide
  have htake : (whole ++ '.' :: fraction).takeWhile Text.isAsciiDigit = whole := by
    rw [List.takeWhile_append_of_pos hwhole.2]
    simp [hpoint]
  have hdrop : (whole ++ '.' :: fraction).dropWhile Text.isAsciiDigit = '.' :: fraction := by
    rw [List.dropWhile_append_of_pos hwhole.2]
    simp [hpoint]
  have hnonempty : whole.isEmpty = false := by simp [hwhole.1]
  simp only [decimalBits, htake, hdrop, List.takeWhile_eq_self_iff.mpr hfraction.2,
    List.dropWhile_eq_nil_iff.mpr hfraction.2, hnonempty]
  simp [readExponent]

theorem dropWhile_reverse_of_digits (h : Digits fraction) :
    ((whole ++ '.' :: fraction).reverse.dropWhile isPlainBlank).reverse =
      whole ++ '.' :: fraction := by
  cases hrev : fraction.reverse with
  | nil => exact absurd (List.reverse_eq_nil_iff.mp hrev) h.1
  | cons d rest =>
      have hd : Text.isAsciiDigit d = true := by
        apply h.2 d
        rw [← List.mem_reverse, hrev]
        exact List.mem_cons_self
      have hsplit : (whole ++ '.' :: fraction).reverse = d :: (rest ++ '.' :: whole.reverse) := by
        simp [hrev]
      rw [hsplit, List.dropWhile_cons_of_neg (by simp [isPlainBlank_of_digit hd]), ← hsplit,
        List.reverse_reverse]

theorem readFloat_of_digits (htext : text.toList = whole ++ '.' :: fraction) (hwhole : Digits whole)
    (hfraction : Digits fraction) :
    readFloat text =
      .ok (nearestBits (digitValues (whole ++ fraction)) (-(fraction.length : Int))) := by
  have hchars : ∀ d ∈ whole ++ '.' :: fraction, Text.isAsciiDigit d = true ∨ d = '.' := by
    intro d hd
    rcases List.mem_append.mp hd with hd | hd
    · exact Or.inl (hwhole.2 d hd)
    · rcases List.mem_cons.mp hd with rfl | hd
      · exact Or.inr rfl
      · exact Or.inl (hfraction.2 d hd)
  have hascii : ∀ d ∈ whole ++ '.' :: fraction, d.toNat < 127 := by
    intro d hd
    rcases hchars d hd with hdigit | rfl
    · exact Nat.lt_of_le_of_lt (toNat_of_digit hdigit).2 (by decide)
    · decide
  have hunderscore : ∀ d ∈ whole ++ '.' :: fraction, d ≠ '_' := by
    intro d hd
    rcases hchars d hd with hdigit | rfl
    · exact ne_of_digit hdigit (by decide)
    · decide
  have hinside : underscoresInside none (whole ++ '.' :: fraction) = true := by
    apply underscoresInside_of_not_mem (by simp)
    intro hmem
    exact hunderscore '_' hmem rfl
  have hfilter : (whole ++ '.' :: fraction).filter (· != '_') = whole ++ '.' :: fraction := by
    apply List.filter_eq_self.mpr
    intro d hd
    simpa using hunderscore d hd
  have hend := @dropWhile_reverse_of_digits whole fraction hfraction
  have hbits := decimalBits_of_digits hwhole hfraction
  unfold readFloat
  rw [htext]
  cases whole with
  | nil => exact absurd rfl hwhole.1
  | cons c cs =>
      have hc := hwhole.2 c List.mem_cons_self
      rw [List.cons_append] at *
      simp only [dropWhile_plainChar hc hascii, hend, hfilter, splitSign_of_digit hc,
        unsignedBits_of_digit hc, hbits, hinside]
      rfl

end Numeral
end TypedAnt
