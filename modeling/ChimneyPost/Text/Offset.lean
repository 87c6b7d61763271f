import ChimneyPost.Lib.Search
import ChimneyPost.Text.Casing

/-!
# Byte offsets

Rust strings are searched and cut at byte offsets.  A cut is possible where a character
begins and at the end (`isSome_slice`), elsewhere it panics.  What `find` reports for an ASCII
pattern is such a place (`find_eq`), and it is one of the lowercase copy and of the string
alike, as the two have their characters at the same offsets (`len_toAsciiLowercase`).
-/

namespace ChimneyPost

open Search

/-! ## The bytes -/

/-- `str::as_bytes`. -/
def utf8 (s : Str) : List UInt8 :=
  s.flatMap String.utf8EncodeChar

/-- `str::len`. -/
def len (s : Str) : Nat :=
  (utf8 s).length

/-- `str::is_char_boundary`: the end, or a byte that does not continue a character. -/
def isCharBoundary (s : Str) (i : Nat) : Bool :=
  i == len s || ((utf8 s)[i]?).any (fun b => b.toNat < 0x80 || 0xC0 ≤ b.toNat)

/-- Cut at a byte offset; `none` where no character begins. -/
def splitOffset : Str → Nat → Option (Str × Str)
  | s, 0 => some ([], s)
  | [], _ + 1 => none
  | c :: s, i + 1 =>
      if c.utf8Size ≤ i + 1 then
        (splitOffset s (i + 1 - c.utf8Size)).map (fun p => (c :: p.1, p.2))
      else none

/-- `&s[i..]`; `none` is a panic. -/
def sliceFrom (s : Str) (i : Nat) : Option Str :=
  (splitOffset s i).map Prod.snd

/-- `&s[..j]`. -/
def sliceTo (s : Str) (j : Nat) : Option Str :=
  (splitOffset s j).map Prod.fst

/-- `&s[i..j]`. -/
def slice (s : Str) (i j : Nat) : Option Str :=
  (sliceTo s j).bind (fun t => sliceFrom t i)

/-- `str::find`: the byte offset at which the pattern first occurs. -/
def find (pat s : Str) : Option Nat :=
  position (utf8 pat) (utf8 s)

@[simp] theorem utf8_nil : utf8 [] = [] := by
  rfl

theorem utf8_cons (c : Char) (s : Str) : utf8 (c :: s) = String.utf8EncodeChar c ++ utf8 s := by
  rfl

theorem utf8_append (s t : Str) : utf8 (s ++ t) = utf8 s ++ utf8 t := by
  exact List.flatMap_append

@[simp] theorem len_nil : len [] = 0 := by
  rfl

@[simp] theorem len_cons (c : Char) (s : Str) : len (c :: s) = c.utf8Size + len s := by
  rw [len, utf8_cons, List.length_append, String.length_utf8EncodeChar, len]

@[simp] theorem len_append (s t : Str) : len (s ++ t) = len s + len t := by
  rw [len, utf8_append, List.length_append, len, len]

theorem toNat_ofNat_byte {n : Nat} (h : n < 256) : (UInt8.ofNat n).toNat = n := by
  rw [UInt8.toNat_ofNat', Nat.mod_eq_of_lt h]

/-- The first byte of a character begins one, the others continue it. -/
theorem utf8EncodeChar_shape (c : Char) : ∃ b bs, String.utf8EncodeChar c = b :: bs ∧
    (bs = [] ∧ b.toNat = c.toNat ∧ c.toNat < 0x80 ∨ 0x80 ≤ c.toNat ∧ 0xC0 ≤ b.toNat) ∧
      ∀ d ∈ bs, 0x80 ≤ d.toNat ∧ d.toNat < 0xC0 := by
  have htail : ∀ n : Nat, 0x80 ≤ (UInt8.ofNat (n % 0x40 + 0x80)).toNat ∧
      (UInt8.ofNat (n % 0x40 + 0x80)).toNat < 0xC0 := by
    intro n
    rw [toNat_ofNat_byte (by omega)]
    omega
  rw [String.utf8EncodeChar, Char.toNat_val]
  split_ifs with hone htwo hthree
  · refine ⟨_, _, rfl, Or.inl ⟨rfl, toNat_ofNat_byte (by omega), by omega⟩, ?_⟩
    intro d hd
    cases hd
  · refine ⟨_, _, rfl, Or.inr ⟨by omega, ?_⟩, ?_⟩
    · rw [toNat_ofNat_byte (by omega)]
      omega
    · simp only [List.mem_singleton, forall_eq]
      exact htail _
  · refine ⟨_, _, rfl, Or.inr ⟨by omega, ?_⟩, ?_⟩
    · rw [toNat_ofNat_byte (by omega)]
      omega
    · simp only [List.mem_cons, List.not_mem_nil, or_false, forall_eq_or_imp, forall_eq]
      exact ⟨htail _, htail _⟩
  · refine ⟨_, _, rfl, Or.inr ⟨by omega, ?_⟩, ?_⟩
    · rw [toNat_ofNat_byte (by omega)]
      omega
    · simp only [List.mem_cons, List.not_mem_nil, or_false, forall_eq_or_imp, forall_eq]
      exact ⟨htail _, htail _, htail _⟩

/-! ## Cutting -/

theorem splitOffset_append (front rear : Str) :
    splitOffset (front ++ rear) (len front) = some (front, rear) := by
  induction front with
  | nil =>
      cases rear <;> rfl
  | cons c front ih =>
      obtain ⟨n, hn⟩ : ∃ n, c.utf8Size + len front = n + 1 :=
        ⟨c.utf8Size + len front - 1, by have hpos := c.utf8Size_pos; omega⟩
      rw [len_cons, hn, List.cons_append, splitOffset, if_pos (by omega), ← hn,
        Nat.add_sub_cancel_left, ih]
      rfl

theorem splitOffset_eq_some_iff {s front rear : Str} {i : Nat} :
    splitOffset s i = some (front, rear) ↔ s = front ++ rear ∧ i = len front := by
  constructor
  · intro h
    induction s generalizing i front with
    | nil =>
        cases i with
        | zero =>
            cases h
            exact ⟨rfl, rfl⟩
        | succ i =>
            cases h
    | cons c s ih =>
        cases i with
        | zero =>
            cases h
            exact ⟨rfl, rfl⟩
        | succ i =>
            rw [splitOffset] at h
            split_ifs at h with hsize
            rw [Option.map_eq_some_iff] at h
            obtain ⟨⟨front, rear'⟩, hsplit, heq⟩ := h
            cases heq
            obtain ⟨rfl, hlen⟩ := ih hsplit
            refine ⟨rfl, ?_⟩
            dsimp only
            rw [len_cons]
            omega
  · rintro ⟨rfl, rfl⟩
    exact splitOffset_append front rear

theorem sliceFrom_append (front rear : Str) :
    sliceFrom (front ++ rear) (len front) = some rear := by
  rw [sliceFrom, splitOffset_append]
  rfl

theorem sliceTo_append (front rear : Str) :
    sliceTo (front ++ rear) (len front) = some front := by
  rw [sliceTo, splitOffset_append]
  rfl

theorem slice_append (front mid rear : Str) :
    slice (front ++ (mid ++ rear)) (len front) (len front + len mid) = some mid := by
  rw [slice, ← len_append, ← List.append_assoc, sliceTo_append]
  exact sliceFrom_append front mid

/-- A place to cut is the one that the standard library tests for. -/
theorem isSome_splitOffset (s : Str) (i : Nat) :
    (splitOffset s i).isSome = isCharBoundary s i := by
  induction s generalizing i with
  | nil =>
      cases i <;> rfl
  | cons c s ih =>
      obtain ⟨b, bs, hform, hfirst, hcontinue⟩ := utf8EncodeChar_shape c
      have hsize : c.utf8Size = bs.length + 1 := by
        rw [← String.length_utf8EncodeChar, hform, List.length_cons]
      cases i with
      | zero =>
          have hb : b.toNat < 0x80 ∨ 0xC0 ≤ b.toNat := by
            rcases hfirst with ⟨-, hb, hc⟩ | ⟨-, hb⟩
            · omega
            · exact Or.inr hb
          simp [splitOffset, isCharBoundary, utf8_cons, hform, hb]
      | succ i =>
          rw [splitOffset, isCharBoundary, len_cons, utf8_cons, hform, List.cons_append,
            List.getElem?_cons_succ]
          by_cases hle : c.utf8Size ≤ i + 1
          · rw [if_pos hle, Option.isSome_map, ih, isCharBoundary,
              List.getElem?_append_right (by omega)]
            have hindex : i + 1 - c.utf8Size = i - bs.length := by omega
            rw [hindex]
            congr 1
            rw [Bool.eq_iff_iff, beq_iff_eq, beq_iff_eq]
            omega
          · rw [if_neg hle, List.getElem?_append_left (by omega),
              List.getElem?_eq_getElem (by omega)]
            have hd := hcontinue bs[i] (List.getElem_mem (by omega))
            have hshort : i + 1 ≠ c.utf8Size + len s := by omega
            simp [hshort, hd]

theorem isCharBoundary_iff {s : Str} {i : Nat} :
    isCharBoundary s i = true ↔ ∃ front rear, s = front ++ rear ∧ i = len front := by
  rw [← isSome_splitOffset, Option.isSome_iff_exists]
  simp only [Prod.exists, splitOffset_eq_some_iff]

theorem slice_eq_some_iff {s t : Str} {i j : Nat} : slice s i j = some t ↔
    ∃ front rear, s = front ++ (t ++ rear) ∧ i = len front ∧ j = len front + len t := by
  constructor
  · intro h
    rw [slice, Option.bind_eq_some_iff] at h
    obtain ⟨u, hu, ht⟩ := h
    rw [sliceTo, Option.map_eq_some_iff] at hu
    rw [sliceFrom, Option.map_eq_some_iff] at ht
    obtain ⟨⟨_, rear⟩, hu, rfl⟩ := hu
    obtain ⟨⟨front, _⟩, ht, rfl⟩ := ht
    obtain ⟨rfl, rfl⟩ := splitOffset_eq_some_iff.mp hu
    obtain ⟨rfl, rfl⟩ := splitOffset_eq_some_iff.mp ht
    exact ⟨front, rear, List.append_assoc _ _ _, rfl, len_append _ _⟩
  · rintro ⟨front, rear, rfl, rfl, rfl⟩
    exact slice_append front t rear

/-- A slice is cut when its ends are in order and character boundaries. -/
theorem isSome_slice (s : Str) (i j : Nat) : (slice s i j).isSome =
    (decide (i ≤ j) && isCharBoundary s i && isCharBoundary s j) := by
  rw [Bool.eq_iff_iff, Option.isSome_iff_exists]
  simp only [Bool.and_eq_true, decide_eq_true_eq, isCharBoundary_iff, slice_eq_some_iff]
  constructor
  · rintro ⟨t, front, rear, rfl, rfl, rfl⟩
    exact ⟨⟨Nat.le_add_right _ _, front, t ++ rear, rfl, rfl⟩, front ++ t, rear, by simp, by simp⟩
  · rintro ⟨⟨hle, front, rear, rfl, rfl⟩, front', rear', heq, rfl⟩
    -- the nearer cut is within the text up to the farther one
    rcases List.append_eq_append_iff.mp heq with ⟨t, rfl, rfl⟩ | ⟨t, rfl, rfl⟩
    · exact ⟨t, front, rear', by simp, rfl, len_append _ _⟩
    · have hnil : t = [] := by
        cases t with
        | nil =>
            rfl
        | cons c t =>
            have hpos := c.utf8Size_pos
            rw [len_append, len_cons] at hle
            omega
      subst hnil
      exact ⟨[], front', rear, by simp, by simp, by simp⟩

/-! ## Searching -/

/-- The characters of ASCII are the bytes below 128. -/
def Ascii (s : Str) : Prop :=
  ∀ c ∈ s, c.toNat < 0x80

instance (s : Str) : Decidable (Ascii s) :=
  List.decidableBAll (fun c : Char => c.toNat < 0x80) s

theorem utf8EncodeChar_ascii {c : Char} (hc : c.toNat < 0x80) :
    ∃ b, String.utf8EncodeChar c = [b] ∧ b.toNat = c.toNat := by
  obtain ⟨b, bs, hform, ⟨rfl, hb, -⟩ | ⟨hbig, -⟩, -⟩ := utf8EncodeChar_shape c
  · exact ⟨b, hform, hb⟩
  · omega

/-- An ASCII pattern is in the bytes where it is in the characters. -/
theorem utf8_prefix_iff {pat s : Str} (hpat : Ascii pat) : utf8 pat <+: utf8 s ↔ pat <+: s := by
  induction pat generalizing s with
  | nil =>
      simp
  | cons p pat ih =>
      have hp := hpat p List.mem_cons_self
      have hrest : Ascii pat := fun c hc => hpat c (List.mem_cons_of_mem p hc)
      obtain ⟨b, hb, hcode⟩ := utf8EncodeChar_ascii hp
      cases s with
      | nil =>
          rw [utf8_cons, hb]
          simp
      | cons c s =>
          obtain ⟨d, ds, hd, hfirst, -⟩ := utf8EncodeChar_shape c
          rw [utf8_cons, utf8_cons, hb, hd, List.singleton_append, List.cons_append,
            List.cons_prefix_cons, List.cons_prefix_cons]
          rcases hfirst with ⟨rfl, hcode', -⟩ | ⟨hbig, hbig'⟩
          · rw [List.nil_append, ih hrest, ← UInt8.toNat_inj, hcode, hcode', Char.toNat_inj]
          · have hne : b ≠ d := by
              rintro rfl
              omega
            have hne' : p ≠ c := by
              rintro rfl
              omega
            simp [hne, hne']

/-- **A byte search finds the characters**, for an ASCII pattern. -/
theorem find_eq {pat s : Str} (hpat : Ascii pat) (hne : pat ≠ []) :
    find pat s = (position pat s).map (fun n => len (s.take n)) := by
  obtain ⟨p, pat, rfl⟩ := List.exists_cons_of_ne_nil hne
  obtain ⟨b, hb, hcode⟩ := utf8EncodeChar_ascii (hpat p List.mem_cons_self)
  have hbytes : utf8 (p :: pat) = b :: utf8 pat := by
    rw [utf8_cons, hb, List.singleton_append]
  induction s with
  | nil =>
      rw [find, hbytes]
      rfl
  | cons c s ih =>
      by_cases hhere : p :: pat <+: c :: s
      · rw [find, position_here ((utf8_prefix_iff hpat).mpr hhere), position_here hhere]
        rfl
      · have havoids : Avoids (utf8 (p :: pat)) (String.utf8EncodeChar c) (utf8 s) := by
          have hnot := mt (utf8_prefix_iff hpat).mp hhere
          obtain ⟨d, ds, hd, -, hcontinue⟩ := utf8EncodeChar_shape c
          rw [utf8_cons c, hd, List.cons_append] at hnot
          rw [hd]
          refine avoids_cons.mpr ⟨hnot, ?_⟩
          rw [hbytes]
          apply avoids_of_not_mem
          intro hmem
          have hbig := (hcontinue b hmem).1
          have hsmall := hpat p List.mem_cons_self
          omega
        rw [find] at ih
        rw [find, utf8_cons c, position_append havoids, ih, position_later hhere, Option.map_map,
          Option.map_map]
        congr 1
        funext n
        simp [Nat.add_comm]

/-- One character of ASCII. -/
theorem find_char {c : Char} (hc : c.toNat < 0x80) {front : Str} (hfront : c ∉ front)
    (rear : Str) : find [c] (front ++ c :: rear) = some (len front) := by
  rw [find_eq (by simpa [Ascii] using hc) (List.cons_ne_nil _ _),
    position_append (avoids_of_not_mem hfront), position_here (by simp)]
  simp

theorem find_char_none {c : Char} (hc : c.toNat < 0x80) {s : Str} (hs : c ∉ s) :
    find [c] s = none := by
  have havoids : Avoids [c] s [] := avoids_of_not_mem hs
  have happend := position_append havoids
  rw [List.append_nil] at happend
  rw [find_eq (by simpa [Ascii] using hc) (List.cons_ne_nil _ _), happend]
  rfl

/-! ## The lowercase copy -/

theorem utf8Size_of_lt {c : Char} (hc : c.toNat < 0x80) : c.utf8Size = 1 := by
  obtain ⟨b, hb, -⟩ := utf8EncodeChar_ascii hc
  rw [← String.length_utf8EncodeChar, hb]
  rfl

theorem utf8Size_toLower (c : Char) : c.toLower.utf8Size = c.utf8Size := by
  rcases toLower_cases c with hsame | ⟨hupper, hlower⟩
  · rw [hsame]
  · rw [utf8Size_of_lt (lt_of_isLower hlower), utf8Size_of_lt (lt_of_isUpper hupper)]

theorem len_toAsciiLowercase (s : Str) : len (toAsciiLowercase s) = len s := by
  induction s with
  | nil =>
      rfl
  | cons c s ih =>
      rw [toAsciiLowercase_cons, len_cons, len_cons, utf8Size_toLower, ih]

/-- The characters of the lowercase copy begin where those of the string do. -/
theorem isCharBoundary_toAsciiLowercase {s : Str} {i : Nat} :
    isCharBoundary (toAsciiLowercase s) i = true ↔ isCharBoundary s i = true := by
  rw [isCharBoundary_iff, isCharBoundary_iff]
  constructor
  · rintro ⟨front, rear, heq, rfl⟩
    have hfront : toAsciiLowercase (s.take front.length) = front := by
      rw [toAsciiLowercase, List.map_take]
      rw [toAsciiLowercase] at heq
      rw [heq, List.take_left]
    refine ⟨s.take front.length, s.drop front.length, (List.take_append_drop _ _).symm, ?_⟩
    rw [← len_toAsciiLowercase (s.take front.length), hfront]
  · rintro ⟨front, rear, rfl, rfl⟩
    exact ⟨_, _, toAsciiLowercase_append front rear, (len_toAsciiLowercase front).symm⟩

/-- What is found from a cut on is a place to cut. -/
theorem isCharBoundary_of_find {pat s view : Str} {cursor i : Nat} (hpat : Ascii pat)
    (hne : pat ≠ []) (hview : sliceFrom s cursor = some view) (hfind : find pat view = some i) :
    isCharBoundary s (cursor + i) = true := by
  rw [sliceFrom, Option.map_eq_some_iff] at hview
  obtain ⟨⟨front, rear⟩, hsplit, heq⟩ := hview
  obtain ⟨rfl, rfl⟩ := splitOffset_eq_some_iff.mp hsplit
  dsimp only at heq
  subst heq
  rw [find_eq hpat hne, Option.map_eq_some_iff] at hfind
  obtain ⟨n, -, rfl⟩ := hfind
  rw [isCharBoundary_iff]
  refine ⟨front ++ rear.take n, rear.drop n, ?_, (len_append _ _).symm⟩
  rw [List.append_assoc, List.take_append_drop]

end ChimneyPost
