import TypedAnt.Text.Utf8

/-!
# What UTF-8 is read

Strict reading takes exactly the octets that some text is written in, and gives that text
back.  What it refuses is therefore no text at all.
-/

namespace TypedAnt
namespace Utf8

variable {octet : UInt8} {rest octets : List UInt8} {c : Char} {n size : Nat}

def encode (cs : List Char) : List UInt8 :=
  cs.flatMap String.utf8EncodeChar

theorem encode_cons (c : Char) (cs : List Char) :
    encode (c :: cs) = String.utf8EncodeChar c ++ encode cs :=
  List.flatMap_cons

/-!
# Single characters
-/

theorem toNat_ofNat (h : n.isValidChar) : (Char.ofNat n).toNat = n := by
  rw [Char.ofNat, dif_pos h]
  rfl

theorem ofNat_eq (octet : UInt8) (h : n = octet.toNat) : UInt8.ofNat n = octet := by
  rw [h]
  exact UInt8.ofNat_toNat

theorem continued_eq_char_iff {owed low high code taken : Nat} :
    continued (owed + 1) low high code taken octets = .char c size ↔
      ∃ next rest, octets = next :: rest ∧ (low ≤ next.toNat ∧ next.toNat ≤ high) ∧
        continued owed 0x80 0xBF (64 * code + next.toNat % 64) (taken + 1) rest =
          .char c size := by
  constructor
  · intro h
    cases octets with
    | nil => cases h
    | cons next rest =>
        by_cases hbounds : low ≤ next.toNat ∧ next.toNat ≤ high
        · rw [continued, if_pos hbounds] at h
          exact ⟨next, rest, rfl, hbounds, h⟩
        · rw [continued, if_neg hbounds] at h
          cases h
  · intro h
    rcases h with ⟨next, rest, rfl, hbounds, h⟩
    rw [continued, if_pos hbounds]
    exact h

theorem continued_zero {low high code taken : Nat} :
    continued 0 low high code taken octets = .char (Char.ofNat code) taken :=
  rfl

theorem encodeChar_ofNat (h : n.isValidChar) :
    String.utf8EncodeChar (Char.ofNat n) =
      if n ≤ 0x7F then [UInt8.ofNat n]
      else if n ≤ 0x7FF then [UInt8.ofNat (n / 64 % 32 + 0xC0), UInt8.ofNat (n % 64 + 0x80)]
      else if n ≤ 0xFFFF then
        [UInt8.ofNat (n / 4096 % 16 + 0xE0), UInt8.ofNat (n / 64 % 64 + 0x80),
          UInt8.ofNat (n % 64 + 0x80)]
      else
        [UInt8.ofNat (n / 262144 % 8 + 0xF0), UInt8.ofNat (n / 4096 % 64 + 0x80),
          UInt8.ofNat (n / 64 % 64 + 0x80), UInt8.ofNat (n % 64 + 0x80)] := by
  have hcode : (Char.ofNat n).val.toNat = n := toNat_ofNat h
  unfold String.utf8EncodeChar
  rw [hcode]

theorem encodeChar_two {a : UInt8} (hn : 0xC2 ≤ octet.toNat ∧ octet.toNat < 0xE0)
    (ha : 0x80 ≤ a.toNat ∧ a.toNat ≤ 0xBF) :
    String.utf8EncodeChar (Char.ofNat (64 * (octet.toNat - 0xC0) + a.toNat % 64)) =
      [octet, a] := by
  rw [encodeChar_ofNat (Or.inl (by omega)), if_neg (by omega), if_pos (by omega),
    ofNat_eq octet (by omega), ofNat_eq a (by omega)]

/-- The bounds of the second octet keep out codes that are too small and those of surrogates. -/
theorem encodeChar_three {a b : UInt8} (hn : 0xE0 ≤ octet.toNat ∧ octet.toNat < 0xF0)
    (hlow : (if octet.toNat = 0xE0 then 0xA0 else 0x80) ≤ a.toNat)
    (hhigh : a.toNat ≤ if octet.toNat = 0xED then 0x9F else 0xBF)
    (hb : 0x80 ≤ b.toNat ∧ b.toNat ≤ 0xBF) :
    String.utf8EncodeChar
        (Char.ofNat (64 * (64 * (octet.toNat - 0xE0) + a.toNat % 64) + b.toNat % 64)) =
      [octet, a, b] := by
  have hsmall : 0x80 ≤ a.toNat ∧ (octet.toNat = 0xE0 → 0xA0 ≤ a.toNat) := by
    split at hlow <;> omega
  have hsurrogate : a.toNat ≤ 0xBF ∧ (octet.toNat = 0xED → a.toNat ≤ 0x9F) := by
    split at hhigh <;> omega
  have hvalid : (64 * (64 * (octet.toNat - 0xE0) + a.toNat % 64) + b.toNat % 64).isValidChar := by
    unfold Nat.isValidChar
    omega
  rw [encodeChar_ofNat hvalid, if_neg (by omega), if_neg (by omega), if_pos (by omega),
    ofNat_eq octet (by omega), ofNat_eq a (by omega),
    ofNat_eq b (by omega)]

/-- The bounds of the second octet keep out codes that are too small and those too large. -/
theorem encodeChar_four {a b d : UInt8} (hn : 0xF0 ≤ octet.toNat ∧ octet.toNat < 0xF5)
    (hlow : (if octet.toNat = 0xF0 then 0x90 else 0x80) ≤ a.toNat)
    (hhigh : a.toNat ≤ if octet.toNat = 0xF4 then 0x8F else 0xBF)
    (hb : 0x80 ≤ b.toNat ∧ b.toNat ≤ 0xBF) (hd : 0x80 ≤ d.toNat ∧ d.toNat ≤ 0xBF) :
    String.utf8EncodeChar
        (Char.ofNat
          (64 * (64 * (64 * (octet.toNat - 0xF0) + a.toNat % 64) + b.toNat % 64) +
            d.toNat % 64)) =
      [octet, a, b, d] := by
  have hsmall : 0x80 ≤ a.toNat ∧ (octet.toNat = 0xF0 → 0x90 ≤ a.toNat) := by
    split at hlow <;> omega
  have hlarge : a.toNat ≤ 0xBF ∧ (octet.toNat = 0xF4 → a.toNat ≤ 0x8F) := by
    split at hhigh <;> omega
  have hvalid :
      (64 * (64 * (64 * (octet.toNat - 0xF0) + a.toNat % 64) + b.toNat % 64) +
        d.toNat % 64).isValidChar := by
    unfold Nat.isValidChar
    omega
  rw [encodeChar_ofNat hvalid, if_neg (by omega), if_neg (by omega), if_neg (by omega),
    ofNat_eq octet (by omega), ofNat_eq a (by omega),
    ofNat_eq b (by omega), ofNat_eq d (by omega)]

/-- A character that is read is written in the octets that were read for it. -/
theorem encodeChar_of_first (h : first octet rest = .char c size) :
    ∃ more rest', rest = more ++ rest' ∧ String.utf8EncodeChar c = octet :: more ∧
      size = more.length + 1 := by
  dsimp only [first] at h
  split at h
  · cases h
    refine ⟨[], rest, rfl, ?_, rfl⟩
    rw [encodeChar_ofNat (Or.inl (by omega)), if_pos (by omega), ofNat_eq octet rfl]
  split at h
  · cases h
  split at h
  · rcases continued_eq_char_iff.mp h with ⟨a, rest, rfl, ha, h⟩
    cases continued_zero.symm.trans h
    exact ⟨[a], rest, rfl, encodeChar_two (by omega) ha, rfl⟩
  split at h
  · rcases continued_eq_char_iff.mp h with ⟨a, rest, rfl, ⟨hlow, hhigh⟩, h⟩
    rcases continued_eq_char_iff.mp h with ⟨b, rest, rfl, hb, h⟩
    cases continued_zero.symm.trans h
    exact ⟨[a, b], rest, rfl, encodeChar_three (by omega) hlow hhigh hb, rfl⟩
  split at h
  · rcases continued_eq_char_iff.mp h with ⟨a, rest, rfl, ⟨hlow, hhigh⟩, h⟩
    rcases continued_eq_char_iff.mp h with ⟨b, rest, rfl, hb, h⟩
    rcases continued_eq_char_iff.mp h with ⟨d, rest, rfl, hd, h⟩
    cases continued_zero.symm.trans h
    exact ⟨[a, b, d], rest, rfl, encodeChar_four (by omega) hlow hhigh hb hd, rfl⟩
  · cases h

theorem toNat_ofNat_octet (h : n < 256) : (UInt8.ofNat n).toNat = n :=
  UInt8.toNat_ofNat_of_lt' h

theorem first_of_encodeChar (c : Char) (rest : List UInt8) :
    ∃ octet more, String.utf8EncodeChar c = octet :: more ∧
      first octet (more ++ rest) = .char c (more.length + 1) := by
  have hvalid : c.toNat < 0xD800 ∨ 0xDFFF < c.toNat ∧ c.toNat < 0x110000 := c.valid
  have hchar {code : Nat} (h : code = c.toNat) (size : Nat) :
      Piece.char (Char.ofNat code) size = .char c size := by
    rw [h, Char.ofNat_toNat]
  have hencode := encodeChar_ofNat (n := c.toNat) c.valid
  rw [Char.ofNat_toNat] at hencode
  split at hencode
  · refine ⟨_, _, hencode, ?_⟩
    dsimp only [first]
    rw [toNat_ofNat_octet (by omega), if_pos (by omega)]
    exact hchar rfl _
  split at hencode
  · refine ⟨_, _, hencode, ?_⟩
    dsimp only [first]
    rw [toNat_ofNat_octet (by omega), if_neg (by omega), if_neg (by omega), if_pos (by omega)]
    refine continued_eq_char_iff.mpr ⟨_, _, rfl, ?_, ?_⟩
    · rw [toNat_ofNat_octet (by omega)]
      omega
    · rw [toNat_ofNat_octet (by omega)]
      exact hchar (by omega) _
  split at hencode
  · refine ⟨_, _, hencode, ?_⟩
    dsimp only [first]
    rw [toNat_ofNat_octet (by omega), if_neg (by omega), if_neg (by omega), if_neg (by omega),
      if_pos (by omega)]
    refine continued_eq_char_iff.mpr ⟨_, _, rfl, ?_, continued_eq_char_iff.mpr ⟨_, _, rfl, ?_, ?_⟩⟩
    · rw [toNat_ofNat_octet (by omega)]
      split <;> split <;> omega
    · rw [toNat_ofNat_octet (by omega)]
      omega
    · rw [toNat_ofNat_octet (by omega), toNat_ofNat_octet (by omega)]
      exact hchar (by omega) _
  · refine ⟨_, _, hencode, ?_⟩
    dsimp only [first]
    rw [toNat_ofNat_octet (by omega), if_neg (by omega), if_neg (by omega), if_neg (by omega),
      if_neg (by omega), if_pos (by omega)]
    refine continued_eq_char_iff.mpr ⟨_, _, rfl, ?_, continued_eq_char_iff.mpr ⟨_, _, rfl, ?_,
      continued_eq_char_iff.mpr ⟨_, _, rfl, ?_, ?_⟩⟩⟩
    · rw [toNat_ofNat_octet (by omega)]
      split <;> split <;> omega
    · rw [toNat_ofNat_octet (by omega)]
      omega
    · rw [toNat_ofNat_octet (by omega)]
      omega
    · rw [toNat_ofNat_octet (by omega), toNat_ofNat_octet (by omega), toNat_ofNat_octet (by omega)]
      exact hchar (by omega) _

/-!
# Whole texts
-/

theorem pieces_drop (skip : Nat) (octets : List UInt8) :
    pieces skip octets = pieces 0 (octets.drop skip) := by
  induction octets generalizing skip with
  | nil => simp [pieces]
  | cons octet rest ih =>
      cases skip with
      | zero => rfl
      | succ skip =>
          rw [pieces, List.drop_succ_cons]
          exact ih skip

theorem pieces_encodeChar (c : Char) (rest : List UInt8) :
    ∃ size, pieces 0 (String.utf8EncodeChar c ++ rest) = .char c size :: pieces 0 rest := by
  rcases first_of_encodeChar c rest with ⟨octet, more, hencode, hfirst⟩
  refine ⟨more.length + 1, ?_⟩
  rw [hencode, List.cons_append, pieces, hfirst]
  dsimp only [Piece.size]
  rw [pieces_drop, Nat.add_sub_cancel, List.drop_left]

theorem encodeChar_of_pieces {more : List Piece} (h : pieces 0 octets = .char c size :: more) :
    ∃ rest, octets = String.utf8EncodeChar c ++ rest ∧ more = pieces 0 rest := by
  cases octets with
  | nil => cases h
  | cons octet rest =>
      rw [pieces, List.cons.injEq] at h
      rcases h with ⟨hfirst, hmore⟩
      rcases encodeChar_of_first hfirst with ⟨taken, rest, rfl, hencode, rfl⟩
      refine ⟨rest, by rw [hencode, List.cons_append], ?_⟩
      rw [← hmore, hfirst, pieces_drop]
      dsimp only [Piece.size]
      rw [Nat.add_sub_cancel, List.drop_left]

theorem decodeLossy_of_pieces {more : List Piece} (h : pieces 0 octets = .char c size :: more)
    (hmore : more = pieces 0 rest) : decodeLossy octets = c :: decodeLossy rest := by
  unfold decodeLossy
  rw [h, hmore, List.map_cons]

theorem eq_encode_of_pieces {all : List UInt8} {position : Nat} {ps : List Piece}
    (hps : pieces 0 octets = ps) (h : firstFault all position ps = none) :
    octets = encode (decodeLossy octets) := by
  induction ps generalizing octets position with
  | nil =>
      cases octets with
      | nil => rfl
      | cons octet rest => cases hps
  | cons piece ps ih =>
      cases piece with
      | fault reason size => cases h
      | char c size =>
          rcases encodeChar_of_pieces hps with ⟨rest, hoctets, hmore⟩
          rw [decodeLossy_of_pieces hps hmore, encode_cons, ← ih hmore.symm h]
          exact hoctets

theorem firstFault_encode (all : List UInt8) (position : Nat) (cs : List Char) :
    firstFault all position (pieces 0 (encode cs)) = none := by
  induction cs generalizing position with
  | nil => rfl
  | cons c cs ih =>
      rcases pieces_encodeChar c (encode cs) with ⟨size, hpieces⟩
      rw [encode_cons, hpieces, firstFault]
      exact ih _

theorem decodeLossy_encode (cs : List Char) : decodeLossy (encode cs) = cs := by
  induction cs with
  | nil => rfl
  | cons c cs ih =>
      rcases pieces_encodeChar c (encode cs) with ⟨size, hpieces⟩
      rw [encode_cons, decodeLossy_of_pieces hpieces rfl, ih]

theorem decode_encode (cs : List Char) : decode (encode cs) = .ok cs := by
  unfold decode
  rw [firstFault_encode, decodeLossy_encode]

theorem decode_eq_ok_iff {cs : List Char} : decode octets = .ok cs ↔ octets = encode cs := by
  constructor
  · intro h
    unfold decode at h
    split at h
    · cases h
    · rename_i hnone
      cases h
      exact eq_encode_of_pieces rfl hnone
  · intro h
    rw [h]
    exact decode_encode cs

theorem exists_decode_eq_error_iff :
    (∃ fault, decode octets = .error fault) ↔ ∀ cs, octets ≠ encode cs := by
  constructor
  · intro h cs hcs
    rcases h with ⟨fault, hfault⟩
    cases hfault.symm.trans (decode_eq_ok_iff.mpr hcs)
  · intro h
    cases hdecode : decode octets with
    | error fault => exact ⟨fault, rfl⟩
    | ok cs => exact absurd (decode_eq_ok_iff.mp hdecode) (h cs)

end Utf8
end TypedAnt
