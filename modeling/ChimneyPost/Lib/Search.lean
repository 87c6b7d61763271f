import Mathlib.Tactic

/-!
# Where a pattern does not begin

`Search.Avoids pat s t` says that no occurrence of `pat` in `s ++ t` begins inside of
`s`.  A search for `pat` passes over such an `s`; a text made of pieces is passed over
piece by piece (`avoids_append`).
-/

namespace Search

universe u

variable {α : Type u} {a d : α} {pat s s' t n v : List α}

/-- No occurrence of `pat` begins inside of the first list, when the second follows. -/
def Avoids (pat : List α) : List α → List α → Prop
  | [], _ => True
  | c :: s, t => ¬ pat <+: c :: (s ++ t) ∧ Avoids pat s t

@[simp] theorem avoids_nil : Avoids pat [] t := by
  trivial

theorem avoids_cons {c : α} : Avoids pat (c :: s) t ↔ ¬ pat <+: c :: (s ++ t) ∧ Avoids pat s t := by
  rfl

theorem avoids_append :
    Avoids pat (s ++ s') t ↔ Avoids pat s (s' ++ t) ∧ Avoids pat s' t := by
  induction s with
  | nil =>
      simp
  | cons c s ih =>
      rw [List.cons_append, avoids_cons, avoids_cons, ih, List.append_assoc, and_assoc]

/-- A pattern does not begin where its first symbol does not stand. -/
theorem avoids_of_not_mem (h : a ∉ s) : Avoids (a :: pat) s t := by
  induction s with
  | nil =>
      exact avoids_nil
  | cons c s ih =>
      rw [List.mem_cons, not_or] at h
      refine ⟨?_, ih h.2⟩
      intro hprefix
      exact h.1 (List.cons_prefix_cons.mp hprefix).1

/-- A prefix ends before a symbol that it does not have. -/
theorem prefix_append_cons_iff (hd : d ∉ n) : n <+: s ++ d :: v ↔ n <+: s := by
  constructor
  · intro h
    rcases List.prefix_or_prefix_of_prefix h (List.prefix_append s (d :: v)) with hn | hs
    · exact hn
    · obtain ⟨w, rfl⟩ := hs
      have hw : w <+: d :: v := (List.prefix_append_right_inj s).mp h
      cases w with
      | nil => simp
      | cons x w =>
          obtain rfl := (List.cons_prefix_cons.mp hw).1
          exact absurd (by simp) hd
  · intro h
    exact h.trans (List.prefix_append s _)

/-! ## The first occurrence -/

section Position

variable [DecidableEq α]

/-- Where a pattern first occurs. -/
def position (pat : List α) : List α → Option Nat
  | [] => if pat = [] then some 0 else none
  | c :: s => if pat.isPrefixOf (c :: s) then some 0 else (position pat s).map (fun i => i + 1)

theorem position_here (h : pat <+: s) : position pat s = some 0 := by
  cases s with
  | nil =>
      rw [position, if_pos (List.prefix_nil.mp h)]
  | cons c s =>
      rw [position, if_pos (List.isPrefixOf_iff_prefix.mpr h)]

theorem position_later {c : α} (h : ¬ pat <+: c :: s) :
    position pat (c :: s) = (position pat s).map (fun i => i + 1) := by
  rw [position, if_neg (mt List.isPrefixOf_iff_prefix.mp h)]

/-- A search goes on behind what the pattern avoids. -/
theorem position_append (h : Avoids pat s t) :
    position pat (s ++ t) = (position pat t).map (fun i => i + s.length) := by
  induction s with
  | nil =>
      simp
  | cons c s ih =>
      obtain ⟨hnot, havoids⟩ := avoids_cons.mp h
      rw [List.cons_append, position_later hnot, ih havoids, Option.map_map, List.length_cons]
      rfl

/-- The text up to an occurrence that is found, and from there on. -/
theorem of_position {n : Nat} (h : position pat s = some n) :
    n ≤ s.length ∧ Avoids pat (s.take n) (s.drop n) ∧ pat <+: s.drop n := by
  induction s generalizing n with
  | nil =>
      rw [position] at h
      split_ifs at h with hpat
      cases h
      rw [hpat]
      exact ⟨le_rfl, avoids_nil, List.nil_prefix⟩
  | cons c s ih =>
      by_cases hpat : pat <+: c :: s
      · rw [position_here hpat] at h
        cases h
        exact ⟨Nat.zero_le _, avoids_nil, hpat⟩
      · rw [position_later hpat, Option.map_eq_some_iff] at h
        obtain ⟨n, hn, rfl⟩ := h
        obtain ⟨hle, havoids, hhere⟩ := ih hn
        refine ⟨Nat.succ_le_succ hle, ?_, hhere⟩
        rw [List.take_succ_cons, List.drop_succ_cons, avoids_cons, List.take_append_drop]
        exact ⟨hpat, havoids⟩

end Position

end Search
