import Mathlib
import ChimneyPost.Text.Str

/-!
# ASCII case

Lowercasing changes the letters of ASCII and nothing else: a character that is no letter is
found in a lowercased string exactly where it stands in the string
(`toLower_eq_iff`, `mem_toAsciiLowercase`).
-/

namespace ChimneyPost

/-- Lowercasing leaves a character alone or makes a letter of a letter. -/
theorem toLower_cases (c : Char) :
    c.toLower = c ∨ c.isUpper = true ∧ c.toLower.isLower = true := by
  by_cases h : c.isUpper = true
  · right
    refine ⟨h, ?_⟩
    rw [Char.isLower_toLower_eq_isAlpha, Char.isAlpha, h, Bool.true_or]
  · left
    exact Char.toLower_eq_of_not_isUpper h

theorem lt_of_isUpper {c : Char} (h : c.isUpper = true) : c.toNat < 128 := by
  simp only [Char.isUpper, UInt32.le_iff_toNat_le, ge_iff_le, Char.toNat_val, Bool.and_eq_true,
    decide_eq_true_eq, UInt32.reduceToNat, Char.reduceVal] at h
  omega

theorem lt_of_isLower {c : Char} (h : c.isLower = true) : c.toNat < 128 := by
  simp only [Char.isLower, UInt32.le_iff_toNat_le, ge_iff_le, Char.toNat_val, Bool.and_eq_true,
    decide_eq_true_eq, UInt32.reduceToNat, Char.reduceVal] at h
  omega

/-- Only itself becomes a character that is no letter. -/
theorem toLower_eq_iff {c d : Char} (hd : d.isLower = false) (hd' : d.isUpper = false) :
    c.toLower = d ↔ c = d := by
  constructor
  · rintro rfl
    rcases toLower_cases c with h | ⟨_, h⟩
    · exact h.symm
    · rw [h] at hd
      cases hd
  · rintro rfl
    rcases toLower_cases c with h | ⟨h, _⟩
    · exact h
    · rw [h] at hd'
      cases hd'

/-- Whitespace is no letter. -/
theorem not_letter_of_isWhitespace {c : Char} (h : isWhitespace c = true) :
    c.isUpper = false ∧ c.isLower = false := by
  simp only [isWhitespace, Bool.or_eq_true, Bool.and_eq_true, decide_eq_true_eq,
    beq_iff_eq] at h
  simp only [Char.isUpper, Char.isLower, UInt32.le_iff_toNat_le, ge_iff_le, Char.toNat_val,
    Bool.and_eq_false_iff, decide_eq_false_iff_not, UInt32.reduceToNat, Char.reduceVal]
  constructor
  · omega
  · omega

theorem mem_toAsciiLowercase {s : Str} {d : Char} (hd : d.isLower = false)
    (hd' : d.isUpper = false) : d ∈ toAsciiLowercase s ↔ d ∈ s := by
  rw [toAsciiLowercase, List.mem_map]
  constructor
  · rintro ⟨c, hc, hlower⟩
    rw [← (toLower_eq_iff hd hd').mp hlower]
    exact hc
  · intro hmem
    exact ⟨d, hmem, (toLower_eq_iff hd hd').mpr rfl⟩

/-- A string without letters is the lowercase form of itself only. -/
theorem eq_of_toAsciiLowercase_eq {s t : Str} (h : toAsciiLowercase s = t)
    (ht : t.all (fun d => !d.isLower && !d.isUpper) = true) : s = t := by
  induction s generalizing t with
  | nil =>
      exact h
  | cons c s ih =>
      subst h
      rw [toAsciiLowercase, List.map_cons] at ht ⊢
      simp only [List.all_cons, Bool.and_eq_true, Bool.not_eq_true'] at ht
      rw [← (toLower_eq_iff ht.1.1 ht.1.2).mp rfl]
      exact congrArg (c :: ·) (ih rfl ht.2)

theorem toAsciiLowercase_append (s t : Str) :
    toAsciiLowercase (s ++ t) = toAsciiLowercase s ++ toAsciiLowercase t := by
  exact List.map_append

theorem toAsciiLowercase_cons (c : Char) (s : Str) :
    toAsciiLowercase (c :: s) = c.toLower :: toAsciiLowercase s := by
  rfl

theorem toAsciiLowercase_drop (s : Str) (i : Nat) :
    toAsciiLowercase (s.drop i) = (toAsciiLowercase s).drop i := by
  exact List.map_drop

theorem length_toAsciiLowercase (s : Str) : (toAsciiLowercase s).length = s.length := by
  exact List.length_map _

end ChimneyPost
