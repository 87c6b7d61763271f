import ChimneyPost.Text.Words

/-!
# Trimming

Whitespace at the ends of a string, and strings that are put together from parts with
whitespace in them.  Where a part has a character that is none, trimming stops in that part
(`trimStart_append`, `trimEnd_append`).
-/

namespace ChimneyPost

/-! ## Blank strings -/

theorem trimStart_eq_nil_iff {s : Str} : trimStart s = [] ↔ ∀ c ∈ s, isWhitespace c = true := by
  exact List.dropWhile_eq_nil_iff

theorem trimEnd_eq_nil_iff {s : Str} : trimEnd s = [] ↔ ∀ c ∈ s, isWhitespace c = true := by
  exact List.rdropWhile_eq_nil_iff

theorem trim_eq_nil_iff {s : Str} : trim s = [] ↔ ∀ c ∈ s, isWhitespace c = true := by
  exact trim_eq_nil.trans splitWhitespace_eq_nil

theorem trimStart_blank_append {gap : Str} (hgap : ∀ c ∈ gap, isWhitespace c = true) (s : Str) :
    trimStart (gap ++ s) = trimStart s := by
  rw [trimStart, List.dropWhile_append_of_pos hgap]
  rfl

theorem trimEnd_append_blank {gap : Str} (hgap : ∀ c ∈ gap, isWhitespace c = true) (s : Str) :
    trimEnd (s ++ gap) = trimEnd s := by
  induction gap using List.reverseRecOn with
  | nil =>
      rw [List.append_nil]
  | append_singleton gap c ih =>
      have hc := hgap c (by simp)
      rw [← List.append_assoc, trimEnd, List.rdropWhile_concat_pos _ _ _ hc]
      exact ih (fun d hd => hgap d (List.mem_append_left _ hd))

/-! ## Where trimming stops -/

theorem trimStart_of_head {c : Char} (hc : isWhitespace c = false) (s : Str) :
    trimStart (c :: s) = c :: s := by
  exact List.dropWhile_cons_of_neg (by simp [hc])

theorem exists_blank_trimStart (s : Str) : ∃ gap, s = gap ++ trimStart s ∧
    ∀ c ∈ gap, isWhitespace c = true := by
  exact ⟨s.takeWhile isWhitespace, List.takeWhile_append_dropWhile.symm,
    fun c hc => List.mem_takeWhile_imp hc⟩

theorem exists_trimEnd_blank (s : Str) : ∃ gap, s = trimEnd s ++ gap ∧
    ∀ c ∈ gap, isWhitespace c = true := by
  exact ⟨s.rtakeWhile isWhitespace, List.rdropWhile_append_rtakeWhile.symm,
    fun c hc => List.mem_rtakeWhile_imp hc⟩

/-- What is trimmed from the start begins with no whitespace. -/
theorem head_trimStart {s : Str} {c : Char} (h : (trimStart s).head? = some c) :
    isWhitespace c = false := by
  have hnot := List.head?_dropWhile_not isWhitespace s
  rw [trimStart] at h
  rw [h] at hnot
  simpa using hnot

theorem trimStart_append {s : Str} (h : trimStart s ≠ []) (t : Str) :
    trimStart (s ++ t) = trimStart s ++ t := by
  obtain ⟨gap, hs, hgap⟩ := exists_blank_trimStart s
  obtain ⟨c, rest, hrest⟩ := List.exists_cons_of_ne_nil h
  have hc : isWhitespace c = false := head_trimStart (s := s) (by rw [hrest]; rfl)
  rw [hs, List.append_assoc, trimStart_blank_append hgap, trimStart_blank_append hgap, hrest,
    List.cons_append, trimStart_of_head hc, trimStart_of_head hc]
  rfl

theorem trimEnd_append {t : Str} (h : trimEnd t ≠ []) (s : Str) :
    trimEnd (s ++ t) = s ++ trimEnd t := by
  induction t using List.reverseRecOn with
  | nil =>
      exact absurd rfl h
  | append_singleton t c ih =>
      by_cases hc : isWhitespace c = true
      · rw [trimEnd, List.rdropWhile_concat_pos _ _ _ hc] at h
        rw [← List.append_assoc, trimEnd, trimEnd, List.rdropWhile_concat_pos _ _ _ hc,
          List.rdropWhile_concat_pos _ _ _ hc]
        exact ih h
      · rw [← List.append_assoc, trimEnd, trimEnd, List.rdropWhile_concat_neg _ _ _ hc,
          List.rdropWhile_concat_neg _ _ _ hc, List.append_assoc]

theorem trimEnd_trimEnd (s : Str) : trimEnd (trimEnd s) = trimEnd s := by
  exact List.rdropWhile_idempotent _ _

/-! ## Both ends -/

theorem head_trim {s : Str} {c : Char} (h : (trim s).head? = some c) :
    isWhitespace c = false := by
  obtain ⟨gap, htail, -⟩ := exists_trimEnd_blank (trimStart s)
  apply head_trimStart (s := s)
  rw [htail, List.head?_append]
  rw [trim] at h
  rw [h]
  rfl

theorem trim_isSubstring (s : Str) : trim s <:+: s := by
  have hend : trimEnd (trimStart s) <+: trimStart s := List.rdropWhile_prefix _ _
  have hstart : trimStart s <:+ s := List.dropWhile_suffix _
  exact hend.isInfix.trans hstart.isInfix

/-- The ends may be trimmed in either order. -/
theorem trimStart_trimEnd (s : Str) : trimStart (trimEnd s) = trim s := by
  by_cases h : trimStart s = []
  · have hblank := trimStart_eq_nil_iff.mp h
    rw [trimEnd_eq_nil_iff.mpr hblank, trim, h]
    rfl
  · obtain ⟨gap, hs, hgap⟩ := exists_blank_trimStart s
    obtain ⟨c, rest, hrest⟩ := List.exists_cons_of_ne_nil h
    have hc : isWhitespace c = false := head_trimStart (s := s) (by rw [hrest]; rfl)
    have hsolid : trimEnd (c :: rest) ≠ [] := by
      intro hnil
      have hall := trimEnd_eq_nil_iff.mp hnil c List.mem_cons_self
      rw [hc] at hall
      cases hall
    obtain ⟨d, front, hfront⟩ := List.exists_cons_of_ne_nil hsolid
    have hbegins : trimEnd (c :: rest) <+: c :: rest := List.rdropWhile_prefix _ _
    rw [hfront, List.cons_prefix_cons] at hbegins
    rw [trim, hrest]
    rw [hrest] at hs
    rw [hs, trimEnd_append hsolid, trimStart_blank_append hgap, hfront, hbegins.1,
      trimStart_of_head hc]

theorem trim_trimEnd (s : Str) : trim (trimEnd s) = trim s := by
  rw [trim, trimStart_trimEnd, trim, trimEnd_trimEnd]

end ChimneyPost
