import ChimneyPost.Text.Casing
import ChimneyPost.Text.Words

/-!
# Uppercase

What `to_uppercase` leaves of a string to its prefixes.  Whitespace comes from whitespace and
from nothing else, so trimming commutes with it (`trimStart_toUppercase`).  An ASCII letter
comes from a letter of ASCII; or it is `I` or `S` and comes from a dotless i or a long s; or
it begins one of the `ligatures`, whose uppercase form has several characters.
-/

namespace ChimneyPost

/-! ## The tables -/

def whitespaceCodes : List Nat :=
  [9, 10, 11, 12, 13, 32, 133, 160, 5760, 8192, 8193, 8194, 8195, 8196, 8197, 8198, 8199, 8200,
    8201, 8202, 8232, 8233, 8239, 8287, 12288]

theorem isWhitespace_iff {c : Char} : isWhitespace c = true ↔ c.toNat ∈ whitespaceCodes := by
  simp only [isWhitespace, whitespaceCodes, List.mem_cons, List.not_mem_nil, or_false,
    Bool.or_eq_true, Bool.and_eq_true, decide_eq_true_eq, beq_iff_eq]
  omega

/-- Two runs of letters have their uppercase letters in ASCII, none has them in whitespace. -/
theorem uppercaseRuns_image : ∀ x ∈ uppercaseRuns,
    (128 ≤ (x.1 : Int) + x.2.2.2 ∨ x = (305, 305, 1, -232) ∨ x = (383, 383, 1, -300)) ∧
      ∀ w ∈ whitespaceCodes, ¬ ((x.1 : Int) + x.2.2.2 ≤ w ∧ (w : Int) ≤ x.2.1 + x.2.2.2) ∧
        ¬ (x.1 ≤ w ∧ w ≤ x.2.1) := by
  decide +kernel

theorem uppercaseExpansions_image : ∀ x ∈ uppercaseExpansions,
    2 ≤ x.2.length ∧ x.1 ∉ whitespaceCodes ∧ ∀ v ∈ x.2, v ∉ whitespaceCodes := by
  decide +kernel

/-- The first two characters of the expansions. -/
def ligatures : List (Char × Char) :=
  uppercaseExpansions.map (fun x =>
    (Char.ofNat (x.2[0]?.getD 0), Char.ofNat (x.2[1]?.getD 0)))

/-! ## One character -/

/-- The four ways to an uppercase form. -/
theorem charToUppercase_cases (c : Char) :
    (c.toNat < 128 ∧ charToUppercase c = [c.toUpper]) ∨
    (∃ x ∈ uppercaseExpansions, x.1 = c.toNat ∧ charToUppercase c = x.2.map Char.ofNat) ∨
    (∃ x ∈ uppercaseRuns, x.1 ≤ c.toNat ∧ c.toNat ≤ x.2.1 ∧
      charToUppercase c = [Char.ofNat ((c.toNat : Int) + x.2.2.2).toNat]) ∨
    (128 ≤ c.toNat ∧ charToUppercase c = [c]) := by
  rw [charToUppercase]
  split_ifs with hascii
  · exact Or.inl ⟨hascii, rfl⟩
  · rw [uppercaseNonAscii]
    cases hexpansion : uppercaseExpansions.find? (fun x => x.1 == c.toNat) with
    | some x =>
        have hcode := List.find?_some hexpansion
        exact Or.inr (Or.inl ⟨x, List.mem_of_find?_eq_some hexpansion, by simpa using hcode, rfl⟩)
    | none =>
        dsimp only
        cases hrun : uppercaseRuns.find? (fun x =>
            x.1 ≤ c.toNat && c.toNat ≤ x.2.1 && (c.toNat - x.1) % x.2.2.1 == 0) with
        | some x =>
            have hrange := List.find?_some hrun
            simp only [Bool.and_eq_true, decide_eq_true_eq] at hrange
            exact Or.inr (Or.inr (Or.inl ⟨x, List.mem_of_find?_eq_some hrun, hrange.1.1,
              hrange.1.2, rfl⟩))
        | none =>
            refine Or.inr (Or.inr (Or.inr ⟨Nat.not_lt.mp hascii, ?_⟩))
            rw [List.map_singleton, Char.ofNat_toNat]

/-- A code point that is none stands for the null character. -/
theorem toNat_ofNat (n : Nat) : (Char.ofNat n).toNat = n ∨ (Char.ofNat n).toNat = 0 := by
  rw [Char.toNat_ofNat]
  split_ifs
  · exact Or.inl rfl
  · exact Or.inr rfl

theorem not_isWhitespace_ofNat {n : Nat} (h : n ∉ whitespaceCodes) :
    isWhitespace (Char.ofNat n) = false := by
  rw [Bool.eq_false_iff, Ne, isWhitespace_iff]
  rcases toNat_ofNat n with heq | heq
  · rw [heq]
    exact h
  · rw [heq]
    decide

theorem ascii_casing : ∀ n < 128, (Char.ofNat n).toUpper.toLower = (Char.ofNat n).toLower ∧
    (Char.ofNat n).toLower.toUpper = (Char.ofNat n).toUpper ∧
      (isWhitespace (Char.ofNat n) = true → (Char.ofNat n).toUpper = Char.ofNat n) ∧
        (isWhitespace (Char.ofNat n).toUpper = true → isWhitespace (Char.ofNat n) = true) := by
  decide +kernel

theorem ascii_casing_of_lt {c : Char} (h : c.toNat < 128) : c.toUpper.toLower = c.toLower ∧
    c.toLower.toUpper = c.toUpper ∧ (isWhitespace c = true → c.toUpper = c) ∧
      (isWhitespace c.toUpper = true → isWhitespace c = true) := by
  have hall := ascii_casing c.toNat h
  rw [Char.ofNat_toNat] at hall
  exact hall

theorem charToUppercase_of_isWhitespace {c : Char} (h : isWhitespace c = true) :
    charToUppercase c = [c] := by
  have hcode := isWhitespace_iff.mp h
  rcases charToUppercase_cases c with ⟨hascii, heq⟩ | ⟨x, hx, hcode', -⟩ | ⟨x, hx, hle, hle', -⟩ |
    ⟨-, heq⟩
  · rw [heq, (ascii_casing_of_lt hascii).2.2.1 h]
  · rw [← hcode'] at hcode
    exact absurd hcode (uppercaseExpansions_image x hx).2.1
  · exact absurd ⟨hle, hle'⟩ ((uppercaseRuns_image x hx).2 _ hcode).2
  · exact heq

theorem not_isWhitespace_charToUppercase {c : Char} (h : isWhitespace c = false) :
    ∀ d ∈ charToUppercase c, isWhitespace d = false := by
  intro d hd
  rcases charToUppercase_cases c with ⟨hascii, heq⟩ | ⟨x, hx, -, heq⟩ | ⟨x, hx, hle, hle', heq⟩ |
    ⟨-, heq⟩
  · rw [heq, List.mem_singleton] at hd
    rw [hd, Bool.eq_false_iff]
    exact mt (ascii_casing_of_lt hascii).2.2.2 (by simp [h])
  · rw [heq] at hd
    obtain ⟨v, hv, rfl⟩ := List.mem_map.mp hd
    exact not_isWhitespace_ofNat ((uppercaseExpansions_image x hx).2.2 v hv)
  · rw [heq, List.mem_singleton] at hd
    rw [hd]
    apply not_isWhitespace_ofNat
    intro hmem
    have himage := ((uppercaseRuns_image x hx).2 _ hmem).1
    have hpos : 0 ≤ (c.toNat : Int) + x.2.2.2 := by
      rcases (uppercaseRuns_image x hx).1 with hbig | rfl | rfl
      · omega
      · dsimp only at hle ⊢
        omega
      · dsimp only at hle ⊢
        omega
    omega
  · rw [heq, List.mem_singleton] at hd
    rw [hd]
    exact h

/-- Of the letters outside ASCII two have an uppercase form in it. -/
theorem charToUppercase_eq_singleton {c d : Char} (h : charToUppercase c = [d])
    (hpos : 0 < d.toNat) (hascii : d.toNat < 128) :
    (c.toNat < 128 ∧ c.toUpper = d) ∨ (c = 'ı' ∧ d = 'I') ∨ (c = 'ſ' ∧ d = 'S') := by
  rcases charToUppercase_cases c with ⟨hc, heq⟩ | ⟨x, hx, -, heq⟩ | ⟨x, hx, hle, hle', heq⟩ |
    ⟨hc, heq⟩
  · rw [heq] at h
    exact Or.inl ⟨hc, List.singleton_inj.mp h⟩
  · have hlength := congrArg List.length (heq.symm.trans h)
    have htwo := (uppercaseExpansions_image x hx).1
    rw [List.length_map, List.length_singleton] at hlength
    omega
  · rw [heq] at h
    have hd := List.singleton_inj.mp h
    right
    rcases (uppercaseRuns_image x hx).1 with hbig | rfl | rfl
    · rcases toNat_ofNat ((c.toNat : Int) + x.2.2.2).toNat with hcode | hcode
      · rw [hd] at hcode
        omega
      · rw [hd] at hcode
        omega
    · left
      dsimp only at hle hle'
      have hcode : c.toNat = 305 := by omega
      rw [hcode] at hd
      refine ⟨?_, hd.symm⟩
      rw [← Char.ofNat_toNat c, hcode]
    · right
      dsimp only at hle hle'
      have hcode : c.toNat = 383 := by omega
      rw [hcode] at hd
      refine ⟨?_, hd.symm⟩
      rw [← Char.ofNat_toNat c, hcode]
  · rw [heq] at h
    have hd := List.singleton_inj.mp h
    rw [hd] at hc
    omega

theorem mem_ligatures {c d e : Char} {s : Str} (h : charToUppercase c = d :: e :: s) :
    (d, e) ∈ ligatures := by
  rcases charToUppercase_cases c with ⟨-, heq⟩ | ⟨x, hx, -, heq⟩ | ⟨x, -, -, -, heq⟩ | ⟨-, heq⟩
  · rw [heq] at h
    cases h
  · refine List.mem_map.mpr ⟨x, hx, ?_⟩
    rw [heq] at h
    obtain ⟨code, codes⟩ := x
    cases codes with
    | nil =>
        cases h
    | cons v codes =>
        cases codes with
        | nil =>
            cases h
        | cons w codes =>
            obtain ⟨hv, hrest⟩ := List.cons.inj h
            obtain ⟨hw, -⟩ := List.cons.inj hrest
            rw [← hv, ← hw]
            rfl
  · rw [heq] at h
    cases h
  · rw [heq] at h
    cases h

theorem charToUppercase_ne_nil (c : Char) : charToUppercase c ≠ [] := by
  rcases charToUppercase_cases c with ⟨-, heq⟩ | ⟨x, hx, -, heq⟩ | ⟨x, -, -, -, heq⟩ | ⟨-, heq⟩
  · simp [heq]
  · have htwo := (uppercaseExpansions_image x hx).1
    intro hnil
    rw [heq, List.map_eq_nil_iff] at hnil
    rw [hnil] at htwo
    simp at htwo
  · simp [heq]
  · simp [heq]

/-! ## Strings -/

theorem toUppercase_cons (c : Char) (s : Str) :
    toUppercase (c :: s) = charToUppercase c ++ toUppercase s := by
  rfl

theorem toUppercase_append (s t : Str) : toUppercase (s ++ t) = toUppercase s ++ toUppercase t := by
  exact List.flatMap_append

/-- Trimming and uppercasing may change places. -/
theorem trimStart_toUppercase (s : Str) : trimStart (toUppercase s) = toUppercase (trimStart s) := by
  induction s with
  | nil =>
      rfl
  | cons c s ih =>
      by_cases hc : isWhitespace c = true
      · rw [toUppercase_cons, charToUppercase_of_isWhitespace hc, trimStart, trimStart,
          List.singleton_append, List.dropWhile_cons_of_pos hc, List.dropWhile_cons_of_pos hc]
        exact ih
      · obtain ⟨d, ds, hform⟩ := List.exists_cons_of_ne_nil (charToUppercase_ne_nil c)
        have hd : ¬ isWhitespace d = true := by
          have hall := not_isWhitespace_charToUppercase (by simpa using hc) d (by simp [hform])
          simp [hall]
        rw [trimStart, trimStart, List.dropWhile_cons_of_neg hc, toUppercase_cons, hform,
          List.cons_append, List.dropWhile_cons_of_neg hd]

/-! ## Keywords -/

/-- No ligature writes two letters of the word, and one that ends it adds something that is
not in ASCII. -/
def unligated : Str → Bool
  | [] => true
  | [x] => ligatures.all (fun e => e.1 ≠ x || 128 ≤ e.2.toNat)
  | x :: y :: word => !ligatures.contains (x, y) && unligated (y :: word)

/-- The characters of a word, each of which is written for one letter. -/
def Spells (s word : Str) : Prop :=
  List.Forall₂ (fun c x => charToUppercase c = [x]) s word

/-- An uppercase word is spelled in the string, or a ligature goes on after it. -/
theorem toUppercase_eq_append {word rest : Str} (hword : unligated word = true) {s : Str}
    (h : toUppercase s = word ++ rest) :
    (∃ spelled tail, s = spelled ++ tail ∧ Spells spelled word ∧ rest = toUppercase tail) ∨
      ∃ y rest', rest = y :: rest' ∧ 128 ≤ y.toNat ∧ isWhitespace y = false := by
  induction word generalizing s with
  | nil =>
      exact Or.inl ⟨[], s, rfl, .nil, h.symm⟩
  | cons x word ih =>
      cases s with
      | nil =>
          cases h
      | cons c s =>
          rw [toUppercase_cons] at h
          obtain ⟨d, ds, hform⟩ := List.exists_cons_of_ne_nil (charToUppercase_ne_nil c)
          rw [hform, List.cons_append, List.cons_append] at h
          obtain ⟨rfl, hrest⟩ := List.cons.inj h
          cases ds with
          | nil =>
              have hword' : unligated word = true := by
                cases word with
                | nil =>
                    rfl
                | cons y word =>
                    rw [unligated, Bool.and_eq_true] at hword
                    exact hword.2
              rcases ih hword' hrest with ⟨spelled, tail, rfl, hspells, hupper⟩ | hligature
              · exact Or.inl ⟨c :: spelled, tail, rfl, .cons hform hspells, hupper⟩
              · exact Or.inr hligature
          | cons e ds =>
              have hmem := mem_ligatures hform
              rw [List.cons_append] at hrest
              cases word with
              | nil =>
                  right
                  rw [unligated, List.all_eq_true] at hword
                  have hbig := hword _ hmem
                  have hc : isWhitespace c = false := by
                    by_contra hspace
                    rw [Bool.not_eq_false] at hspace
                    rw [charToUppercase_of_isWhitespace hspace] at hform
                    cases hform
                  refine ⟨e, ds ++ toUppercase s, hrest.symm, by simpa using hbig, ?_⟩
                  exact not_isWhitespace_charToUppercase hc e (by simp [hform])
              | cons y word =>
                  obtain ⟨rfl, -⟩ := List.cons.inj hrest
                  rw [unligated, Bool.and_eq_true] at hword
                  simp [hmem] at hword

theorem toUppercase_of_spells {s word : Str} (h : Spells s word) : toUppercase s = word := by
  induction h with
  | nil =>
      rfl
  | cons hc _ ih =>
      rw [toUppercase_cons, hc, ih]
      rfl

theorem ascii_letters : ∀ n < 128, (Char.ofNat n).toLower.toNat < 128 ∧
    (65 ≤ n ∧ n ≤ 90 → (Char.ofNat n).toUpper = Char.ofNat n) := by
  decide +kernel

/-- A letter other than `I` and `S` is spelled in ASCII only. -/
theorem charToUppercase_eq_iff {c x : Char} (hx : 65 ≤ x.toNat) (hx' : x.toNat ≤ 90)
    (hi : x ≠ 'I') (hs : x ≠ 'S') : charToUppercase c = [x] ↔ c.toLower = x.toLower := by
  have hascii : x.toNat < 128 := by omega
  constructor
  · intro h
    rcases charToUppercase_eq_singleton h (by omega) hascii with ⟨hc, hupper⟩ | ⟨-, rfl⟩ | ⟨-, rfl⟩
    · rw [← hupper, (ascii_casing_of_lt hc).1]
    · exact absurd rfl hi
    · exact absurd rfl hs
  · intro h
    obtain ⟨hlower, hupper⟩ := ascii_letters x.toNat hascii
    rw [Char.ofNat_toNat] at hlower hupper
    have hc : c.toNat < 128 := by
      rcases toLower_cases c with hsame | ⟨hc, -⟩
      · rw [hsame] at h
        rw [h]
        exact hlower
      · exact lt_of_isUpper hc
    rw [charToUppercase, if_pos hc, ← (ascii_casing_of_lt hc).2.1, h,
      (ascii_casing_of_lt hascii).2.1, hupper ⟨hx, hx'⟩]

end ChimneyPost
