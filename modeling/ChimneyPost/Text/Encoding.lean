import ChimneyPost.Text.Offset
import ChimneyPost.Text.Utf8

/-!
# Encoded and decoded again

The decoder of `Text/Utf8.lean` reads back every text that was written as UTF-8, the
strict reading and the lossy one (`fromUtf8_utf8`, `fromUtf8Lossy_utf8`).
-/

namespace ChimneyPost

section Steps

variable {s : Utf8State} {b : UInt8} {bs : List UInt8}

/-- A continuation byte that is not the last. -/
theorem utf8Decode_more (hneeded : 1 < s.needed) (hb : s.low ≤ b.toNat ∧ b.toNat ≤ s.high) :
    utf8Decode s (b :: bs) =
      utf8Decode ⟨s.needed - 1, 0x80, 0xBF, s.bits * 64 + (b.toNat - 0x80)⟩ bs := by
  rw [utf8Decode, utf8Step, if_neg (by omega), if_pos hb, if_neg (by omega), List.nil_append]

/-- The last continuation byte completes the character. -/
theorem utf8Decode_last (hneeded : s.needed = 1) (hb : s.low ≤ b.toNat ∧ b.toNat ≤ s.high) :
    utf8Decode s (b :: bs) =
      some (Char.ofNat (s.bits * 64 + (b.toNat - 0x80))) :: utf8Decode .ground bs := by
  rw [utf8Decode, utf8Step, if_neg (by omega), if_pos hb, if_pos hneeded]
  rfl

/-- A first byte that begins a longer character. -/
theorem utf8Decode_lead {t : Utf8State} (h : utf8Lead b.toNat = ([], t)) :
    utf8Decode .ground (b :: bs) = utf8Decode t bs := by
  rw [utf8Decode, utf8Step, if_pos (show Utf8State.ground.needed = 0 from rfl), h,
    List.nil_append]

end Steps

/-- The six bits of a continuation byte. -/
theorem toNat_continuation (n : Nat) : (UInt8.ofNat (n % 0x40 + 0x80)).toNat = n % 0x40 + 0x80 := by
  exact toNat_ofNat_byte (by omega)

theorem char_scalar (c : Char) : c.toNat < 0xD800 ∨ 0xDFFF < c.toNat ∧ c.toNat < 0x110000 := by
  exact c.valid

/-- A character of two bytes. -/
theorem utf8Decode_two {n : Nat} (hlow : 0x80 ≤ n) (hhigh : n < 0x800) (bs : List UInt8) :
    utf8Decode .ground (UInt8.ofNat (n / 0x40 % 0x20 + 0xC0) ::
      UInt8.ofNat (n % 0x40 + 0x80) :: bs) = some (Char.ofNat n) :: utf8Decode .ground bs := by
  have hlead : (UInt8.ofNat (n / 0x40 % 0x20 + 0xC0)).toNat = n / 0x40 + 0xC0 := by
    rw [toNat_ofNat_byte (by omega)]
    omega
  have hcont := toNat_continuation n
  have hstate : utf8Lead (n / 0x40 + 0xC0) = ([], ⟨1, 0x80, 0xBF, n / 0x40⟩) := by
    rw [utf8Lead, if_neg (by omega), if_neg (by omega), if_pos (by omega), Nat.add_sub_cancel]
  rw [utf8Decode_lead (by rw [hlead]; exact hstate), utf8Decode_last rfl (by
    rw [hcont]; dsimp only; omega), hcont]
  have hbits : n / 0x40 * 64 + (n % 0x40 + 0x80 - 0x80) = n := by omega
  rw [hbits]

/-- A character of three bytes. -/
theorem utf8Decode_three {n : Nat} (hlow : 0x800 ≤ n) (hhigh : n < 0x10000)
    (hscalar : n < 0xD800 ∨ 0xDFFF < n) (bs : List UInt8) :
    utf8Decode .ground (UInt8.ofNat (n / 0x1000 % 0x10 + 0xE0) ::
      UInt8.ofNat (n / 0x40 % 0x40 + 0x80) :: UInt8.ofNat (n % 0x40 + 0x80) :: bs) =
        some (Char.ofNat n) :: utf8Decode .ground bs := by
  have hlead : (UInt8.ofNat (n / 0x1000 % 0x10 + 0xE0)).toNat = n / 0x1000 + 0xE0 := by
    rw [toNat_ofNat_byte (by omega)]
    omega
  have hcont := toNat_continuation n
  have hcont' := toNat_continuation (n / 0x40)
  obtain ⟨low, high, hstate, hbounds⟩ : ∃ low high,
      utf8Lead (n / 0x1000 + 0xE0) = ([], ⟨2, low, high, n / 0x1000⟩) ∧
        low ≤ n / 0x40 % 0x40 + 0x80 ∧ n / 0x40 % 0x40 + 0x80 ≤ high := by
    rw [utf8Lead, if_neg (by omega), if_neg (by omega), if_neg (by omega)]
    split_ifs with hzero hsurrogate
    · refine ⟨0xA0, 0xBF, ?_, by omega, by omega⟩
      have hbits : n / 0x1000 = 0 := by omega
      rw [hbits]
    · refine ⟨0x80, 0x9F, ?_, by omega, by omega⟩
      have hbits : n / 0x1000 = 0xD := by omega
      rw [hbits]
    · refine ⟨0x80, 0xBF, ?_, by omega, by omega⟩
      rw [Nat.add_sub_cancel]
    · omega
    · omega
    · omega
    · omega
  rw [utf8Decode_lead (by rw [hlead]; exact hstate),
    utf8Decode_more (s := ⟨2, low, high, n / 0x1000⟩) (by simp) (by rw [hcont']; exact hbounds),
    utf8Decode_last rfl (by rw [hcont]; dsimp only; omega), hcont, hcont']
  have hbits : (n / 0x1000 * 64 + (n / 0x40 % 0x40 + 0x80 - 0x80)) * 64 +
      (n % 0x40 + 0x80 - 0x80) = n := by omega
  rw [hbits]

/-- A character of four bytes. -/
theorem utf8Decode_four {n : Nat} (hlow : 0x10000 ≤ n) (hhigh : n < 0x110000) (bs : List UInt8) :
    utf8Decode .ground (UInt8.ofNat (n / 0x40000 % 0x08 + 0xF0) ::
      UInt8.ofNat (n / 0x1000 % 0x40 + 0x80) :: UInt8.ofNat (n / 0x40 % 0x40 + 0x80) ::
        UInt8.ofNat (n % 0x40 + 0x80) :: bs) = some (Char.ofNat n) :: utf8Decode .ground bs := by
  have hlead : (UInt8.ofNat (n / 0x40000 % 0x08 + 0xF0)).toNat = n / 0x40000 + 0xF0 := by
    rw [toNat_ofNat_byte (by omega)]
    omega
  have hcont := toNat_continuation n
  have hcont' := toNat_continuation (n / 0x40)
  have hcont'' := toNat_continuation (n / 0x1000)
  obtain ⟨low, high, hstate, hbounds⟩ : ∃ low high,
      utf8Lead (n / 0x40000 + 0xF0) = ([], ⟨3, low, high, n / 0x40000⟩) ∧
        low ≤ n / 0x1000 % 0x40 + 0x80 ∧ n / 0x1000 % 0x40 + 0x80 ≤ high := by
    rw [utf8Lead, if_neg (by omega), if_neg (by omega), if_neg (by omega), if_neg (by omega),
      if_neg (by omega), if_neg (by omega)]
    split_ifs with hzero hmiddle hlast
    · refine ⟨0x90, 0xBF, ?_, by omega, by omega⟩
      have hbits : n / 0x40000 = 0 := by omega
      rw [hbits]
    · refine ⟨0x80, 0xBF, ?_, by omega, by omega⟩
      rw [Nat.add_sub_cancel]
    · refine ⟨0x80, 0x8F, ?_, by omega, by omega⟩
      have hbits : n / 0x40000 = 4 := by omega
      rw [hbits]
    · omega
  rw [utf8Decode_lead (by rw [hlead]; exact hstate),
    utf8Decode_more (s := ⟨3, low, high, n / 0x40000⟩) (by simp) (by rw [hcont'']; exact hbounds),
    utf8Decode_more (by simp) (by rw [hcont']; dsimp only; omega),
    utf8Decode_last rfl (by rw [hcont]; dsimp only; omega), hcont, hcont', hcont'']
  have hbits : ((n / 0x40000 * 64 + (n / 0x1000 % 0x40 + 0x80 - 0x80)) * 64 +
      (n / 0x40 % 0x40 + 0x80 - 0x80)) * 64 + (n % 0x40 + 0x80 - 0x80) = n := by omega
  rw [hbits]

/-- **One character** is decoded as it was encoded. -/
theorem utf8Decode_encodeChar (c : Char) (bs : List UInt8) :
    utf8Decode .ground (String.utf8EncodeChar c ++ bs) = some c :: utf8Decode .ground bs := by
  have hscalar := char_scalar c
  rw [String.utf8EncodeChar, Char.toNat_val]
  split_ifs with hone htwo hthree
  · rw [List.singleton_append, utf8Decode, toNat_ofNat_byte (by omega), utf8Step,
      if_pos (show Utf8State.ground.needed = 0 from rfl), utf8Lead, if_pos (by omega),
      Char.ofNat_toNat]
    rfl
  · have hdecode := utf8Decode_two (n := c.toNat) (by omega) (by omega) bs
    rw [Char.ofNat_toNat] at hdecode
    exact hdecode
  · have hdecode := utf8Decode_three (n := c.toNat) (by omega) (by omega) (by omega) bs
    rw [Char.ofNat_toNat] at hdecode
    exact hdecode
  · have hdecode := utf8Decode_four (n := c.toNat) (by omega) (by omega) bs
    rw [Char.ofNat_toNat] at hdecode
    exact hdecode

theorem utf8Decode_utf8 (s : Str) : utf8Decode .ground (utf8 s) = s.map some := by
  induction s with
  | nil => rfl
  | cons c s ih => rw [utf8_cons, utf8Decode_encodeChar, ih, List.map_cons]

/-- **A text is read back**, strictly. -/
theorem fromUtf8_utf8 (s : Str) : fromUtf8 (utf8 s) = some s := by
  rw [fromUtf8, utf8Decode_utf8, if_neg (by simp), List.filterMap_map]
  exact congrArg some (List.filterMap_some)

/-- **A text is read back**, lossily. -/
theorem fromUtf8Lossy_utf8 (s : Str) : fromUtf8Lossy (utf8 s) = s := by
  rw [fromUtf8Lossy, utf8Decode_utf8, List.map_map]
  exact List.map_id s

/-- The bytes of a text have a line feed where the text has one. -/
theorem newline_mem_utf8 {s : Str} (h : (10 : UInt8) ∈ utf8 s) : '\n' ∈ s := by
  have hcount := count_fromUtf8Lossy (c := '\n') (by decide) (by decide) (utf8 s)
  rw [fromUtf8Lossy_utf8] at hcount
  rw [← List.count_pos_iff, hcount, List.countP_pos_iff]
  exact ⟨10, h, by decide⟩

end ChimneyPost
