import Mathlib.Data.List.Basic
import Mathlib.Tactic

/-!
# Cutting a stream into lines

A stream over `α` is cut after each occurrence of a separator.  The last line has
no separator when the stream does not end in one.

* `Lines.cut`: the first line and what follows it, with its behaviour on a stream
  that arrives in two pieces.
* `Lines.block`, `Lines.after`: the lines before the first one that satisfies
  `stop`, and the stream after that line.
-/

universe u

namespace Lines

variable {α : Type u} [DecidableEq α] (sep : α)

/-- The first line, with its separator, and the rest of the stream. -/
def cut : List α → List α × List α
  | [] => ([], [])
  | x :: xs => if x = sep then ([x], xs) else (x :: (cut xs).1, (cut xs).2)

theorem cut_append (xs : List α) :
    (cut sep xs).1 ++ (cut sep xs).2 = xs := by
  induction xs with
  | nil =>
      rfl
  | cons x xs ih =>
      by_cases hx : x = sep
      · simp [cut, hx]
      · simp [cut, hx, ih]

theorem cut_length (xs : List α) :
    (cut sep xs).1.length + (cut sep xs).2.length = xs.length := by
  have h := congrArg List.length (cut_append sep xs)
  rw [List.length_append] at h
  exact h

theorem cut_fst_ne_nil {xs : List α} (h : xs ≠ []) :
    (cut sep xs).1 ≠ [] := by
  cases xs with
  | nil => exact absurd rfl h
  | cons x xs =>
      by_cases hx : x = sep
      · simp [cut, hx]
      · simp [cut, hx]

theorem cut_snd_length_lt {xs : List α} (h : xs ≠ []) :
    (cut sep xs).2.length < xs.length := by
  have hlength := cut_length sep xs
  have hpos := List.length_pos_of_ne_nil (cut_fst_ne_nil sep h)
  omega

variable {sep}

/-- A stream without separator is one line. -/
theorem cut_of_not_mem {xs : List α} (h : sep ∉ xs) :
    cut sep xs = (xs, []) := by
  induction xs with
  | nil =>
      rfl
  | cons x xs ih =>
      rw [List.mem_cons, not_or] at h
      simp [cut, Ne.symm h.1, ih h.2]

/-- A first line that is complete ends in its only separator. -/
theorem cut_of_mem {xs : List α} (h : sep ∈ xs) :
    ∃ front, (cut sep xs).1 = front ++ [sep] ∧ sep ∉ front := by
  induction xs with
  | nil =>
      simp at h
  | cons x xs ih =>
      by_cases hx : x = sep
      · exact ⟨[], by simp [cut, hx], by simp⟩
      · have hxs : sep ∈ xs := by
          rcases List.mem_cons.mp h with heq | hxs
          · exact absurd heq.symm hx
          · exact hxs
        obtain ⟨front, hfront, hfree⟩ := ih hxs
        refine ⟨x :: front, by simp [cut, hx, hfront], ?_⟩
        rw [List.mem_cons, not_or]
        exact ⟨fun heq => hx heq.symm, hfree⟩

/-- A complete first line does not depend on what arrives later. -/
theorem cut_append_of_mem {xs : List α} (h : sep ∈ xs) (ys : List α) :
    cut sep (xs ++ ys) = ((cut sep xs).1, (cut sep xs).2 ++ ys) := by
  induction xs with
  | nil =>
      simp at h
  | cons x xs ih =>
      by_cases hx : x = sep
      · simp [cut, hx]
      · have hxs : sep ∈ xs := by
          rcases List.mem_cons.mp h with heq | hxs
          · exact absurd heq.symm hx
          · exact hxs
        simp [cut, hx, ih hxs]

/-- An incomplete first line is continued by what arrives later. -/
theorem cut_append_of_not_mem {xs : List α} (h : sep ∉ xs) (ys : List α) :
    cut sep (xs ++ ys) = (xs ++ (cut sep ys).1, (cut sep ys).2) := by
  induction xs with
  | nil =>
      rfl
  | cons x xs ih =>
      rw [List.mem_cons, not_or] at h
      simp [cut, Ne.symm h.1, ih h.2]

/-- The position of the separator cuts the stream in the same place. -/
theorem cut_of_findIdx? {xs : List α} {i : Nat}
    (h : xs.findIdx? (fun x => x = sep) = some i) :
    sep ∈ xs ∧ cut sep xs = (xs.take (i + 1), xs.drop (i + 1)) := by
  induction xs generalizing i with
  | nil =>
      simp at h
  | cons x xs ih =>
      by_cases hx : x = sep
      · simp only [List.findIdx?_cons, hx, decide_true, if_true, Option.some.injEq] at h
        subst h
        simp [cut, hx]
      · simp only [List.findIdx?_cons, hx, decide_false, Bool.false_eq_true, if_false,
          Option.map_eq_some_iff] at h
        obtain ⟨j, hj, rfl⟩ := h
        obtain ⟨hmem, hcut⟩ := ih hj
        exact ⟨List.mem_cons_of_mem _ hmem, by simp [cut, hx, hcut]⟩

section Block

variable (sep) (stop : List α → Bool)

/-- The lines before the first one that satisfies `stop`; `current` is the part of
the first line that has been read already. -/
def blockFrom : List α → List α → List (List α)
  | current, [] => if current = [] then [] else [current]
  | current, x :: xs =>
      if x = sep then
        if stop (current ++ [x]) then [] else (current ++ [x]) :: blockFrom [] xs
      else
        blockFrom (current ++ [x]) xs

/-- The stream after the first line that satisfies `stop`, if there is one. -/
def afterFrom : List α → List α → Option (List α)
  | _, [] => none
  | current, x :: xs =>
      if x = sep then
        if stop (current ++ [x]) then some xs else afterFrom [] xs
      else
        afterFrom (current ++ [x]) xs

def block (xs : List α) : List (List α) :=
  blockFrom sep stop [] xs

def after (xs : List α) : Option (List α) :=
  afterFrom sep stop [] xs

variable {sep} {stop}

theorem blockFrom_cut (current xs : List α) (h : sep ∈ xs) :
    blockFrom sep stop current xs =
      if stop (current ++ (cut sep xs).1) then []
      else (current ++ (cut sep xs).1) :: block sep stop (cut sep xs).2 := by
  induction xs generalizing current with
  | nil =>
      simp at h
  | cons x xs ih =>
      by_cases hx : x = sep
      · simp [blockFrom, cut, hx, block]
      · have hxs : sep ∈ xs := by
          rcases List.mem_cons.mp h with heq | hxs
          · exact absurd heq.symm hx
          · exact hxs
        simp [blockFrom, cut, hx, ih _ hxs]

theorem afterFrom_cut (current xs : List α) (h : sep ∈ xs) :
    afterFrom sep stop current xs =
      if stop (current ++ (cut sep xs).1) then some (cut sep xs).2
      else after sep stop (cut sep xs).2 := by
  induction xs generalizing current with
  | nil =>
      simp at h
  | cons x xs ih =>
      by_cases hx : x = sep
      · simp [afterFrom, cut, hx, after]
      · have hxs : sep ∈ xs := by
          rcases List.mem_cons.mp h with heq | hxs
          · exact absurd heq.symm hx
          · exact hxs
        simp [afterFrom, cut, hx, ih _ hxs]

theorem blockFrom_of_not_mem (current xs : List α) (h : sep ∉ xs) :
    blockFrom sep stop current xs = if current ++ xs = [] then [] else [current ++ xs] := by
  induction xs generalizing current with
  | nil =>
      simp [blockFrom]
  | cons x xs ih =>
      rw [List.mem_cons, not_or] at h
      simp [blockFrom, Ne.symm h.1, ih _ h.2]

theorem afterFrom_of_not_mem (current xs : List α) (h : sep ∉ xs) :
    afterFrom sep stop current xs = none := by
  induction xs generalizing current with
  | nil =>
      rfl
  | cons x xs ih =>
      rw [List.mem_cons, not_or] at h
      simp [afterFrom, Ne.symm h.1, ih _ h.2]

/-- A line that is complete either stops the block or belongs to it. -/
theorem block_of_mem {xs : List α} (h : sep ∈ xs) :
    block sep stop xs =
      if stop (cut sep xs).1 then []
      else (cut sep xs).1 :: block sep stop (cut sep xs).2 := by
  exact blockFrom_cut [] xs h

theorem after_of_mem {xs : List α} (h : sep ∈ xs) :
    after sep stop xs =
      if stop (cut sep xs).1 then some (cut sep xs).2
      else after sep stop (cut sep xs).2 := by
  exact afterFrom_cut [] xs h

/-- An incomplete line belongs to the block. -/
theorem block_of_not_mem {xs : List α} (h : sep ∉ xs) (hne : xs ≠ []) :
    block sep stop xs = [xs] := by
  unfold block
  rw [blockFrom_of_not_mem [] xs h]
  simp [hne]

theorem after_of_not_mem {xs : List α} (h : sep ∉ xs) :
    after sep stop xs = none := by
  exact afterFrom_of_not_mem [] xs h

/-- What follows a block is shorter than the stream. -/
theorem after_length_lt {xs ys : List α} (h : after sep stop xs = some ys) :
    ys.length < xs.length := by
  induction hn : xs.length using Nat.strong_induction_on generalizing xs with
  | _ n ih =>
      by_cases hmem : sep ∈ xs
      · have hne : xs ≠ [] := List.ne_nil_of_mem hmem
        have hlt := cut_snd_length_lt sep hne
        rw [after_of_mem hmem] at h
        split_ifs at h
        · obtain rfl := Option.some.inj h
          omega
        · have hrest := ih _ (hn ▸ hlt) h rfl
          omega
      · rw [after_of_not_mem hmem] at h
        cases h

/-- What follows a block, or the end of the stream, is no longer than the stream. -/
theorem after_getD_length_le (xs : List α) :
    ((after sep stop xs).getD []).length ≤ xs.length := by
  cases h : after sep stop xs with
  | none =>
      simp
  | some ys =>
      have hlt := after_length_lt h
      rw [Option.getD_some]
      omega

/-- A stream with no line before its end and no line that stops it is empty. -/
theorem eq_nil_of_block_eq_nil {xs : List α} (hblock : block sep stop xs = [])
    (hafter : after sep stop xs = none) : xs = [] := by
  by_contra hne
  by_cases hmem : sep ∈ xs
  · rw [block_of_mem hmem] at hblock
    rw [after_of_mem hmem] at hafter
    by_cases hstop : stop (cut sep xs).1 = true
    · rw [if_pos hstop] at hafter
      cases hafter
    · rw [if_neg hstop] at hblock
      cases hblock
  · rw [block_of_not_mem hmem hne] at hblock
    cases hblock

end Block

end Lines
