import Mathlib.Data.List.Chain
import Mathlib.Data.List.DropRight
import Mathlib.Tactic

/-!
# Rows of entries

A page is a list of rows, and a row the list of its entries.  `places` numbers the row of
each entry, and `steps` says how many rows on the next entry stands.

`squeeze` makes one blank row of several and takes away those at either end.  It keeps
the entries (`flatten_squeeze`), a next row stays a next row and all that is further away
comes to stand two rows on (`steps_squeeze`), its result is `Normal`, and what is normal is
left as it is (`squeeze_of_normal`).
-/

universe u

namespace Rows

variable {α : Type u}

/-! ## Places -/

/-- The number of the row each entry stands in, from `n` on. -/
def places (n : Nat) : List (List α) → List Nat
  | [] => []
  | row :: rows => List.replicate row.length n ++ places (n + 1) rows

/-- How many rows on the next entry stands. -/
def steps : List Nat → List Nat
  | [] => []
  | [_] => []
  | n :: m :: ns => (m - n) :: steps (m :: ns)

theorem places_append (n : Nat) (rows rows' : List (List α)) :
    places n (rows ++ rows') = places n rows ++ places (n + rows.length) rows' := by
  induction rows generalizing n with
  | nil =>
      rfl
  | cons row rows ih =>
      rw [List.cons_append, places, places, ih, List.append_assoc, List.length_cons,
        Nat.add_assoc, Nat.add_comm 1]

theorem places_concat (n : Nat) (rows : List (List α)) (row : List α) :
    places n (rows ++ [row]) =
      places n rows ++ List.replicate row.length (n + rows.length) := by
  rw [places_append, places, places, List.append_nil]

@[simp] theorem places_concat_nil (n : Nat) (rows : List (List α)) :
    places n (rows ++ [[]]) = places n rows := by
  rw [places_concat, List.length_nil, List.replicate_zero, List.append_nil]

theorem length_places (n : Nat) (rows : List (List α)) :
    (places n rows).length = rows.flatten.length := by
  induction rows generalizing n with
  | nil =>
      rfl
  | cons row rows ih =>
      rw [places, List.length_append, List.length_replicate, ih, List.flatten_cons,
        List.length_append]

theorem places_eq_nil {n : Nat} {rows : List (List α)} :
    places n rows = [] ↔ rows.flatten = [] := by
  rw [← List.length_eq_zero_iff, length_places, List.length_eq_zero_iff]

/-! ## Steps -/

theorem steps_concat (ns : List Nat) (a b : Nat) :
    steps (ns ++ [a, b]) = steps (ns ++ [a]) ++ [b - a] := by
  induction ns with
  | nil =>
      rfl
  | cons n ns ih =>
      cases ns with
      | nil =>
          rfl
      | cons m ns =>
          rw [List.cons_append, List.cons_append, steps, ← List.cons_append, ih]
          rfl

theorem steps_getElem? (ns ms : List Nat) (a b : Nat) :
    (steps (ns ++ a :: b :: ms))[ns.length]? = some (b - a) := by
  induction ns with
  | nil =>
      rfl
  | cons n ns ih =>
      cases ns with
      | nil =>
          rfl
      | cons m ns =>
          exact ih

theorem steps_replicate (m k : Nat) :
    steps (List.replicate (k + 1) m) = List.replicate k 0 := by
  induction k with
  | zero =>
      rfl
  | succ k ih =>
      rw [List.replicate_succ, List.replicate_succ, steps, ← List.replicate_succ, ih,
        Nat.sub_self]
      rfl

/-- The entries of one more row are one step away from the last entry, then none. -/
theorem steps_append_replicate (ns : List Nat) (a m k : Nat) :
    steps (ns ++ [a] ++ List.replicate (k + 1) m) =
      steps (ns ++ [a]) ++ (m - a) :: List.replicate k 0 := by
  induction k with
  | zero =>
      rw [List.append_assoc]
      exact steps_concat ns a m
  | succ k ih =>
      have htwo : ns ++ [a] ++ List.replicate (k + 1 + 1) m =
          ns ++ [a] ++ List.replicate k m ++ [m, m] := by
        rw [List.replicate_succ', List.replicate_succ']
        simp only [List.append_assoc, List.cons_append, List.nil_append]
      have hone : ns ++ [a] ++ List.replicate (k + 1) m =
          ns ++ [a] ++ List.replicate k m ++ [m] := by
        rw [List.replicate_succ', List.append_assoc _ _ [m]]
      rw [htwo, steps_concat, ← hone, ih, Nat.sub_self, List.replicate_succ', List.append_assoc]
      rfl

/-! ## Squeezing -/

/-- One more row: the rows kept so far and the run of blank ones at the end. -/
def keepRow (kept : List (List α) × Nat) (row : List α) : List (List α) × Nat :=
  if row = [] then
    if kept.2 + 1 > 1 ∨ kept.1 = [] then (kept.1, kept.2 + 1)
    else (kept.1 ++ [[]], kept.2 + 1)
  else
    (kept.1 ++ [row], 0)

/-- One blank row for several, and none at either end. -/
def squeeze (rows : List (List α)) : List (List α) :=
  (rows.foldl keepRow ([], 0)).1.rdropWhile List.isEmpty

/-- Of two neighbours one is not blank. -/
def Apart (rows : List (List α)) : Prop :=
  rows.IsChain (fun row next => row ≠ [] ∨ next ≠ [])

/-- No blank row at either end, and no two of them together. -/
structure Normal (rows : List (List α)) : Prop where
  head : rows.head? ≠ some []
  last : rows.getLast? ≠ some []
  apart : Apart rows

/-- What the rows kept so far have to do with the rows read. -/
structure Kept (rows kept : List (List α)) (run : Nat) : Prop where
  entries : kept.flatten = rows.flatten
  head : kept.head? ≠ some []
  apart : Apart kept
  full : run = 0 → kept.getLast? ≠ some []
  blank : run ≠ 0 → kept ≠ [] → kept.getLast? = some []
  steps : steps (places 0 kept) = (steps (places 0 rows)).map (min 2)
  /-- the rows since the last entry -/
  since : ∀ a, (places 0 rows).getLast? = some a → ∃ b, (places 0 kept).getLast? = some b ∧
    rows.length = a + 1 + run ∧ kept.length = b + 1 + min run 1

theorem Apart.concat {rows : List (List α)} {row : List α} (h : Apart rows)
    (hrow : rows.getLast? = some [] → row ≠ []) : Apart (rows ++ [row]) := by
  rw [Apart, List.isChain_append]
  refine ⟨h, List.IsChain.singleton row, ?_⟩
  intro last hlast next hnext
  obtain rfl : row = next := by simpa using hnext
  by_cases hblank : last = []
  · subst hblank
    exact Or.inr (hrow hlast)
  · exact Or.inl hblank

theorem kept_nil : Kept ([] : List (List α)) [] 0 where
  entries := rfl
  head := by simp
  apart := List.IsChain.nil
  full := by simp
  blank := by simp
  steps := rfl
  since := by simp [places]

/-- A blank row that follows a blank one, or comes before all others, is passed over. -/
theorem Kept.skip {rows kept : List (List α)} {run : Nat} (h : Kept rows kept run)
    (hskip : run ≠ 0 ∨ kept = []) : Kept (rows ++ [[]]) kept (run + 1) where
  entries := by simp [h.entries]
  head := h.head
  apart := h.apart
  full := by omega
  blank := by
    intro _ hne
    exact h.blank (hskip.resolve_right hne) hne
  steps := by
    rw [places_concat_nil]
    exact h.steps
  since := by
    intro a ha
    rw [places_concat_nil] at ha
    obtain ⟨b, hb, hrows, hkept⟩ := h.since a ha
    refine ⟨b, hb, ?_, ?_⟩
    · rw [List.length_append, hrows]
      rfl
    · have hrun : run ≠ 0 := by
        rcases hskip with hrun | rfl
        · exact hrun
        · rw [places] at hb
          cases hb
      omega

/-- The first blank row after an entry stays. -/
theorem Kept.separate {rows kept : List (List α)} (h : Kept rows kept 0) (hne : kept ≠ []) :
    Kept (rows ++ [[]]) (kept ++ [[]]) 1 where
  entries := by simp [h.entries]
  head := by
    rw [List.head?_append_of_ne_nil _ hne]
    exact h.head
  apart := h.apart.concat fun hlast => absurd hlast (h.full rfl)
  full := by omega
  blank := by simp
  steps := by
    rw [places_concat_nil, places_concat_nil]
    exact h.steps
  since := by
    intro a ha
    rw [places_concat_nil] at ha ⊢
    obtain ⟨b, hb, hrows, hkept⟩ := h.since a ha
    refine ⟨b, hb, ?_, ?_⟩
    · rw [List.length_append, hrows]
      rfl
    · rw [List.length_append, hkept]
      rfl

/-- A row with entries stays. -/
theorem Kept.fill {rows kept : List (List α)} {run : Nat} (h : Kept rows kept run)
    {row : List α} (hrow : row ≠ []) : Kept (rows ++ [row]) (kept ++ [row]) 0 where
  entries := by rw [List.flatten_append, List.flatten_append, h.entries]
  head := by
    cases kept with
    | nil =>
        simpa using hrow
    | cons first kept =>
        exact h.head
  apart := h.apart.concat fun _ => hrow
  full := by simpa using hrow
  blank := by simp
  steps := by
    obtain ⟨k, hk⟩ : ∃ k, row.length = k + 1 :=
      Nat.exists_eq_succ_of_ne_zero (List.length_eq_zero_iff.not.mpr hrow)
    rw [places_concat, places_concat, hk, Nat.zero_add, Nat.zero_add]
    cases hlast : (places 0 rows).getLast? with
    | none =>
        have hrows : places 0 rows = [] := List.getLast?_eq_none_iff.mp hlast
        have hkept : places 0 kept = [] := by
          rw [places_eq_nil, h.entries, ← places_eq_nil (n := 0), hrows]
        rw [hrows, hkept, List.nil_append, List.nil_append, steps_replicate, steps_replicate]
        simp
    | some a =>
        obtain ⟨b, hb, hlength, hlength'⟩ := h.since a hlast
        obtain ⟨ns, hns⟩ := List.getLast?_eq_some_iff.mp hlast
        obtain ⟨ms, hms⟩ := List.getLast?_eq_some_iff.mp hb
        have hsteps := h.steps
        rw [hns, hms] at hsteps
        have hstep : kept.length - b = min 2 (rows.length - a) := by omega
        rw [hns, hms, steps_append_replicate, steps_append_replicate, hsteps, hstep]
        simp
  since := by
    intro a ha
    obtain ⟨k, hk⟩ : ∃ k, row.length = k + 1 :=
      Nat.exists_eq_succ_of_ne_zero (List.length_eq_zero_iff.not.mpr hrow)
    have hlast : ∀ page : List (List α),
        (places 0 (page ++ [row])).getLast? = some page.length := by
      intro page
      rw [places_concat, hk, List.replicate_succ', ← List.append_assoc, Nat.zero_add,
        List.getLast?_concat]
    rw [hlast] at ha
    obtain rfl := Option.some.inj ha
    exact ⟨kept.length, hlast kept, by simp, by simp⟩

theorem kept_keepRow {rows : List (List α)} {kept : List (List α) × Nat}
    (h : Kept rows kept.1 kept.2) (row : List α) :
    Kept (rows ++ [row]) (keepRow kept row).1 (keepRow kept row).2 := by
  rw [keepRow]
  split_ifs with hrow hskip
  · subst hrow
    exact h.skip (hskip.imp_left (by omega))
  · rw [not_or] at hskip
    obtain ⟨hrun, hne⟩ := hskip
    have hzero : kept.2 = 0 := by omega
    rw [hzero] at h ⊢
    subst hrow
    exact h.separate hne
  · exact h.fill hrow

theorem kept_foldl (rows : List (List α)) :
    Kept rows (rows.foldl keepRow ([], 0)).1 (rows.foldl keepRow ([], 0)).2 := by
  induction rows using List.reverseRecOn with
  | nil =>
      exact kept_nil
  | append_singleton rows row ih =>
      rw [List.foldl_append]
      exact kept_keepRow ih row

/-! ## The end -/

theorem flatten_rdropWhile (rows : List (List α)) :
    (rows.rdropWhile List.isEmpty).flatten = rows.flatten := by
  induction rows using List.reverseRecOn with
  | nil =>
      rfl
  | append_singleton rows row ih =>
      cases row with
      | nil =>
          rw [List.rdropWhile_concat_pos _ _ _ rfl, ih]
          simp
      | cons entry row =>
          rw [List.rdropWhile_concat_neg _ _ _ (by simp)]

theorem places_rdropWhile (n : Nat) (rows : List (List α)) :
    places n (rows.rdropWhile List.isEmpty) = places n rows := by
  induction rows using List.reverseRecOn with
  | nil =>
      rfl
  | append_singleton rows row ih =>
      cases row with
      | nil =>
          rw [List.rdropWhile_concat_pos _ _ _ rfl, ih, places_concat_nil]
      | cons entry row =>
          rw [List.rdropWhile_concat_neg _ _ _ (by simp)]

theorem flatten_squeeze (rows : List (List α)) : (squeeze rows).flatten = rows.flatten := by
  rw [squeeze, flatten_rdropWhile]
  exact (kept_foldl rows).entries

/-- **Next to each other stays so, and one blank row stands for several.** -/
theorem steps_squeeze (rows : List (List α)) :
    steps (places 0 (squeeze rows)) = (steps (places 0 rows)).map (min 2) := by
  rw [squeeze, places_rdropWhile]
  exact (kept_foldl rows).steps

theorem normal_squeeze (rows : List (List α)) : Normal (squeeze rows) where
  head := by
    intro hhead
    obtain ⟨tail, htail⟩ := List.rdropWhile_prefix List.isEmpty (rows.foldl keepRow ([], 0)).1
    have hkept := (kept_foldl rows).head
    rw [← htail, List.head?_append] at hkept
    rw [squeeze] at hhead
    rw [hhead] at hkept
    exact hkept rfl
  last := by
    intro hlast
    obtain ⟨front, hfront⟩ := List.getLast?_eq_some_iff.mp hlast
    have hne : squeeze rows ≠ [] := by
      rw [hfront]
      simp
    have hnot := List.rdropWhile_last_not List.isEmpty (rows.foldl keepRow ([], 0)).1 hne
    rw [List.getLast?_eq_some_getLast hne] at hlast
    exact hnot (List.isEmpty_iff.mpr (Option.some.inj hlast))
  apart := List.IsChain.prefix (kept_foldl rows).apart (List.rdropWhile_prefix _ _)

theorem foldl_keepRow_of_apart {rows : List (List α)} (hhead : rows.head? ≠ some [])
    (hapart : Apart rows) : (rows.foldl keepRow ([], 0)).1 = rows ∧
      (rows.getLast? ≠ some [] → (rows.foldl keepRow ([], 0)).2 = 0) := by
  induction rows using List.reverseRecOn with
  | nil =>
      exact ⟨rfl, fun _ => rfl⟩
  | append_singleton rows row ih =>
      obtain ⟨hrows, -, hlast⟩ := List.isChain_append.mp hapart
      have hhead' : rows.head? ≠ some [] := by
        intro hblank
        rw [List.head?_append, hblank] at hhead
        exact hhead rfl
      obtain ⟨hkept, hrun⟩ := ih hhead' hrows
      rw [List.foldl_append, List.foldl_cons, List.foldl_nil, keepRow, hkept,
        List.getLast?_concat]
      by_cases hrow : row = []
      · subst hrow
        have hne : rows ≠ [] := by
          rintro rfl
          exact hhead rfl
        have hfull : rows.getLast? ≠ some [] := by
          intro hblank
          rcases hlast [] hblank [] rfl with h | h
          · exact h rfl
          · exact h rfl
        simp [hrun hfull, hne]
      · simp [hrow]

/-- **What is normal is left as it is.** -/
theorem squeeze_of_normal {rows : List (List α)} (h : Normal rows) : squeeze rows = rows := by
  rw [squeeze, (foldl_keepRow_of_apart h.head h.apart).1, List.rdropWhile_eq_self_iff]
  intro hne hblank
  have hlast := h.last
  rw [List.getLast?_eq_some_getLast hne, List.isEmpty_iff.mp hblank] at hlast
  exact hlast rfl

end Rows
