import ChimneyPost.Text.Str

/-!
# UTF-8

`String::from_utf8` and `String::from_utf8_lossy` as one decoder: it reads byte by
byte and yields a character, or an error for each maximal ill-formed sequence.
The strict reading refuses errors, the lossy one writes U+FFFD for each.
-/

namespace ChimneyPost

/-- What the decoder still expects: so many continuation bytes, the next of them
between `low` and `high`, on top of the bits read so far. -/
structure Utf8State where
  needed : Nat
  low : Nat
  high : Nat
  bits : Nat
deriving DecidableEq

/-- Between two characters. -/
def Utf8State.ground : Utf8State where
  needed := 0
  low := 0x80
  high := 0xBF
  bits := 0

/-- A first byte: the character or error it yields, and the state after it. -/
def utf8Lead (b : Nat) : List (Option Char) × Utf8State :=
  if b < 0x80 then ([some (Char.ofNat b)], .ground)
  else if b < 0xC2 then ([none], .ground)
  else if b < 0xE0 then ([], ⟨1, 0x80, 0xBF, b - 0xC0⟩)
  else if b = 0xE0 then ([], ⟨2, 0xA0, 0xBF, 0⟩)
  else if b = 0xED then ([], ⟨2, 0x80, 0x9F, 0xD⟩)
  else if b < 0xF0 then ([], ⟨2, 0x80, 0xBF, b - 0xE0⟩)
  else if b = 0xF0 then ([], ⟨3, 0x90, 0xBF, 0⟩)
  else if b < 0xF4 then ([], ⟨3, 0x80, 0xBF, b - 0xF0⟩)
  else if b = 0xF4 then ([], ⟨3, 0x80, 0x8F, 4⟩)
  else ([none], .ground)

/-- One byte; a byte that does not continue the sequence starts a new one. -/
def utf8Step (s : Utf8State) (b : Nat) : List (Option Char) × Utf8State :=
  if s.needed = 0 then
    utf8Lead b
  else if s.low ≤ b ∧ b ≤ s.high then
    if s.needed = 1 then ([some (Char.ofNat (s.bits * 64 + (b - 0x80)))], .ground)
    else ([], ⟨s.needed - 1, 0x80, 0xBF, s.bits * 64 + (b - 0x80)⟩)
  else
    (none :: (utf8Lead b).1, (utf8Lead b).2)

/-- The characters and errors of a byte string, from a decoder state. -/
def utf8Decode : Utf8State → List UInt8 → List (Option Char)
  | s, [] => if s.needed = 0 then [] else [none]
  | s, b :: bs => (utf8Step s b.toNat).1 ++ utf8Decode (utf8Step s b.toNat).2 bs

/-- `String::from_utf8`. -/
def fromUtf8 (bs : List UInt8) : Option Str :=
  if none ∈ utf8Decode .ground bs then none
  else some ((utf8Decode .ground bs).filterMap id)

/-- `String::from_utf8_lossy`. -/
def fromUtf8Lossy (bs : List UInt8) : Str :=
  (utf8Decode .ground bs).map (fun c => c.getD '\uFFFD')

/-! ## ASCII characters -/

theorem charOfNat_eq {n : Nat} {c : Char} (hpos : 0 < c.toNat) (h : Char.ofNat n = c) :
    n = c.toNat := by
  by_cases hvalid : n.isValidChar
  · have hval : (Char.ofNat n).toNat = n := by
      unfold Char.ofNat
      rw [dif_pos hvalid]
      rfl
    rw [h] at hval
    exact hval.symm
  · unfold Char.ofNat at h
    rw [dif_neg hvalid] at h
    rw [← h] at hpos
    exact absurd hpos (by decide)

/-- The character a pending sequence ends in is not an ASCII one. -/
structure Utf8State.Wide (s : Utf8State) : Prop where
  low : 0x80 ≤ s.low
  one : s.needed = 1 → 2 ≤ s.bits
  two : s.needed = 2 → 2 ≤ s.bits * 64 + (s.low - 0x80)
  three : s.needed = 3 → 1 ≤ s.bits * 64 + (s.low - 0x80)
  few : s.needed ≤ 3

theorem wide_ground : Utf8State.ground.Wide := by
  constructor <;> decide

/-- A first byte yields an ASCII character only if it is its byte. -/
theorem utf8Lead_ascii {b : Nat} {c : Char} (hpos : 0 < c.toNat)
    (h : some c ∈ (utf8Lead b).1) : b = c.toNat := by
  unfold utf8Lead at h
  split_ifs at h <;> simp at h
  exact charOfNat_eq hpos h.symm

theorem wide_utf8Lead (b : Nat) : (utf8Lead b).2.Wide := by
  unfold utf8Lead
  split_ifs with h₁ h₂ h₃ h₄ h₅ h₆ h₇ h₈ h₉
  · exact wide_ground
  · exact wide_ground
  · exact ⟨by simp, fun _ => by simp; omega, by simp, by simp, by simp⟩
  · exact ⟨by simp, by simp, by simp, by simp, by simp⟩
  · exact ⟨by simp, by simp, by simp, by simp, by simp⟩
  · exact ⟨by simp, by simp, fun _ => by simp; omega, by simp, by simp⟩
  · exact ⟨by simp, by simp, by simp, by simp, by simp⟩
  · exact ⟨by simp, by simp, by simp, fun _ => by simp; omega, by simp⟩
  · exact ⟨by simp, by simp, by simp, by simp, by simp⟩
  · exact wide_ground

theorem wide_utf8Step {s : Utf8State} (hs : s.Wide) (b : Nat) :
    (utf8Step s b).2.Wide := by
  unfold utf8Step
  by_cases hzero : s.needed = 0
  · rw [if_pos hzero]
    exact wide_utf8Lead b
  · rw [if_neg hzero]
    by_cases hrange : s.low ≤ b ∧ b ≤ s.high
    · rw [if_pos hrange]
      by_cases hone : s.needed = 1
      · simp only [hone, if_true]
        exact wide_ground
      · simp only [hone, if_false]
        have hlow := hs.low
        have htwo := hs.two
        have hthree := hs.three
        have hfew := hs.few
        constructor
        · simp
        · intro hneeded
          simp only at hneeded ⊢
          have hbits := htwo (by omega)
          omega
        · intro hneeded
          simp only at hneeded ⊢
          have hbits := hthree (by omega)
          omega
        · intro hneeded
          simp only at hneeded
          omega
        · simp only
          omega
    · rw [if_neg hrange]
      exact wide_utf8Lead b

/-- Only the byte of an ASCII character yields it. -/
theorem utf8Step_ascii {s : Utf8State} (hs : s.Wide) {b : Nat} {c : Char}
    (hpos : 0 < c.toNat) (hascii : c.toNat < 0x80) (h : some c ∈ (utf8Step s b).1) :
    b = c.toNat := by
  unfold utf8Step at h
  by_cases hzero : s.needed = 0
  · rw [if_pos hzero] at h
    exact utf8Lead_ascii hpos h
  · rw [if_neg hzero] at h
    by_cases hrange : s.low ≤ b ∧ b ≤ s.high
    · rw [if_pos hrange] at h
      by_cases hone : s.needed = 1
      · simp only [hone, if_true, List.mem_singleton, Option.some.injEq] at h
        have hbits := charOfNat_eq hpos h.symm
        have htwo := hs.one hone
        have hlow := hs.low
        omega
      · simp [hone] at h
    · rw [if_neg hrange] at h
      rcases List.mem_cons.mp h with h | h
      · cases h
      · exact utf8Lead_ascii hpos h

/-- The byte of an ASCII character yields it, once. -/
theorem count_utf8Step_self {s : Utf8State} (hs : s.Wide) {c : Char}
    (hascii : c.toNat < 0x80) :
    (utf8Step s c.toNat).1.count (some c) = 1 := by
  have hlead : (utf8Lead c.toNat).1 = [some c] := by
    rw [utf8Lead, if_pos hascii, Char.ofNat_toNat]
  unfold utf8Step
  by_cases hzero : s.needed = 0
  · rw [if_pos hzero, hlead]
    simp
  · have hlow := hs.low
    rw [if_neg hzero, if_neg (by omega), hlead]
    simp

/-- Decoding keeps the number of times an ASCII character occurs. -/
theorem count_utf8Decode {s : Utf8State} (hs : s.Wide) {c : Char} (hpos : 0 < c.toNat)
    (hascii : c.toNat < 0x80) (bs : List UInt8) :
    (utf8Decode s bs).count (some c) = bs.countP (fun b => b.toNat = c.toNat) := by
  induction bs generalizing s with
  | nil =>
      rw [utf8Decode]
      split_ifs <;> simp
  | cons b bs ih =>
      rw [utf8Decode, List.count_append, ih (wide_utf8Step hs _), List.countP_cons]
      by_cases hb : b.toNat = c.toNat
      · rw [hb, count_utf8Step_self hs hascii]
        simp [Nat.add_comm]
      · have hnot : some c ∉ (utf8Step s b.toNat).1 := by
          intro hmem
          exact hb (utf8Step_ascii hs hpos hascii hmem)
        rw [List.count_eq_zero.mpr hnot]
        simp [hb]

theorem count_fromUtf8Lossy {c : Char} (hpos : 0 < c.toNat) (hascii : c.toNat < 0x80)
    (bs : List UInt8) :
    (fromUtf8Lossy bs).count c = bs.countP (fun b => b.toNat = c.toNat) := by
  rw [← count_utf8Decode wide_ground hpos hascii, fromUtf8Lossy]
  induction utf8Decode Utf8State.ground bs with
  | nil =>
      rfl
  | cons x xs ih =>
      rw [List.map_cons, List.count_cons, List.count_cons, ih]
      cases x with
      | some d => simp
      | none =>
          have hne : '\uFFFD' ≠ c := by
            rintro rfl
            exact absurd hascii (by decide)
          simp [hne]

/-! ## Line feeds -/

theorem newline_mem_of_mem_utf8Decode {s : Utf8State} (hs : s.Wide) {bs : List UInt8}
    (h : some '\n' ∈ utf8Decode s bs) : 10 ∈ bs := by
  induction bs generalizing s with
  | nil =>
      unfold utf8Decode at h
      split_ifs at h <;> simp at h
  | cons b bs ih =>
      rw [utf8Decode] at h
      rcases List.mem_append.mp h with h | h
      · have hb := utf8Step_ascii hs (by decide) (by decide) h
        have hbyte : b = 10 := UInt8.toNat.inj hb
        rw [hbyte]
        exact List.mem_cons_self
      · exact List.mem_cons_of_mem _ (ih (wide_utf8Step hs _) h)

/-- A well-formed string that ends in the byte of a line feed ends in a line feed. -/
theorem utf8Decode_concat_newline {s : Utf8State} (hs : s.Wide) {bs : List UInt8}
    (hok : none ∉ utf8Decode s (bs ++ [10])) :
    utf8Decode s (bs ++ [10]) = utf8Decode s bs ++ [some '\n'] := by
  induction bs generalizing s with
  | nil =>
      by_cases hzero : s.needed = 0
      · simp [utf8Decode, utf8Step, hzero, utf8Lead, Utf8State.ground]
      · have hlow := hs.low
        exfalso
        apply hok
        have hrange : ¬ (s.low ≤ 10 ∧ 10 ≤ s.high) := by omega
        simp [utf8Decode, utf8Step, hzero, hrange]
  | cons b bs ih =>
      rw [List.cons_append, utf8Decode, List.mem_append, not_or] at hok
      rw [List.cons_append, utf8Decode, utf8Decode, ih (wide_utf8Step hs _) hok.2,
        List.append_assoc]

/-- Of a decoded line only the end can be a line feed. -/
theorem newline_not_mem_of_fromUtf8 {bs : List UInt8} {text : Str}
    (hline : 10 ∉ bs ∨ ∃ front, bs = front ++ [10] ∧ 10 ∉ front)
    (htext : fromUtf8 bs = some text) :
    '\n' ∉ trimEndMatches ['\r', '\n'] text := by
  unfold fromUtf8 at htext
  split_ifs at htext with hok
  obtain rfl := Option.some.inj htext
  have hfree : ∀ front : List UInt8, 10 ∉ front →
      '\n' ∉ (utf8Decode .ground front).filterMap id := by
    intro front hfront hmem
    obtain ⟨c, hc, hcn⟩ := List.mem_filterMap.mp hmem
    have hcn : c = some '\n' := hcn
    rw [hcn] at hc
    exact hfront (newline_mem_of_mem_utf8Decode wide_ground hc)
  rcases hline with hnone | ⟨front, rfl, hfront⟩
  · intro hmem
    exact hfree bs hnone (mem_of_mem_trimEndMatches hmem)
  · rw [utf8Decode_concat_newline wide_ground hok, List.filterMap_append]
    intro hmem
    unfold trimEndMatches at hmem
    have hdrop : List.rdropWhile (fun c => ['\r', '\n'].contains c)
        ((utf8Decode .ground front).filterMap id ++ ['\n']) =
        List.rdropWhile (fun c => ['\r', '\n'].contains c)
          ((utf8Decode .ground front).filterMap id) :=
      List.rdropWhile_concat_pos _ _ _ (by decide)
    have hmem' : '\n' ∈ List.rdropWhile (fun c => ['\r', '\n'].contains c)
        ((utf8Decode .ground front).filterMap id ++ ['\n']) := hmem
    rw [hdrop] at hmem'
    exact hfree front hfront (mem_of_mem_trimEndMatches hmem')

end ChimneyPost
