import ChimneyPost.Smtp.Mime
import ChimneyPost.Text.Words

/-!
# Tidy lines

The lines `tidy` keeps have no whitespace in them but single spaces, and the last one is
not blank.  So its result is read back line by line as it was written, and normalising
its newlines does nothing (`normaliseNewlines_tidy`).  The characters that are not
whitespace are kept, in order (`solid_tidy`).
-/

namespace ChimneyPost
namespace Smtp

/-! ## Lines -/

/-- Lines without line ends, the last one not blank, are read back as they were joined. -/
theorem lines_join {ls : List Str} (hends : ∀ l ∈ ls, '\n' ∉ l ∧ '\r' ∉ l)
    (hlast : ls.getLast? ≠ some []) : lines (join ['\n'] ls) = ls := by
  cases ls using List.reverseRecOn with
  | nil =>
      rfl
  | append_singleton ls last =>
      have hne : last ≠ [] := by
        rintro rfl
        simp at hlast
      have hsplit : (join ['\n'] (ls ++ [last])).splitOn '\n' = ls ++ [last] :=
        List.splitOn_intercalate '\n' (fun l hl => (hends l hl).1) (by simp)
      have hstrip : ∀ l ∈ ls, stripCarriageReturn l = l := by
        intro l hl
        rw [stripCarriageReturn, if_neg]
        intro hcr
        exact (hends l (List.mem_append_left _ hl)).2 (List.mem_of_getLast? hcr)
      rw [lines, hsplit]
      simp only [List.dropLast_concat, List.getLast?_concat, Option.getD_some, if_neg hne]
      rw [List.map_congr_left hstrip, List.map_id']

/-- What joined pieces are made of. -/
theorem mem_join {sep : Str} {parts : List Str} {c : Char} (h : c ∈ join sep parts) :
    c ∈ sep ∨ ∃ part ∈ parts, c ∈ part := by
  induction parts with
  | nil =>
      cases h
  | cons part parts ih =>
      cases parts with
      | nil =>
          rw [join, List.intercalate_singleton] at h
          exact Or.inr ⟨part, List.mem_cons_self, h⟩
      | cons next parts =>
          rw [join, List.intercalate_cons_cons, List.mem_append, List.mem_append] at h
          rcases h with (h | h) | h
          · exact Or.inr ⟨part, List.mem_cons_self, h⟩
          · exact Or.inl h
          · rcases ih h with hsep | ⟨q, hq, hc⟩
            · exact Or.inl hsep
            · exact Or.inr ⟨q, List.mem_cons_of_mem _ hq, hc⟩

/-! ## The lines that are kept -/

/-- No whitespace but spaces. -/
def Spaced (line : Str) : Prop :=
  ∀ c ∈ line, isWhitespace c = true → c = ' '

theorem spaced_collapseSpaces (line : Str) : Spaced (collapseSpaces line) := by
  intro c hc hspace
  rcases mem_join hc with hsep | ⟨w, hw, hcw⟩
  · exact List.mem_singleton.mp hsep
  · rw [not_isWhitespace_of_mem_splitWhitespace hw hcw] at hspace
    cases hspace

theorem Spaced.ends {line : Str} (h : Spaced line) : '\n' ∉ line ∧ '\r' ∉ line := by
  constructor
  · intro hmem
    exact absurd (h _ hmem (by decide)) (by decide)
  · intro hmem
    exact absurd (h _ hmem (by decide)) (by decide)

theorem spaced_tidyLine {kept : List Str × Nat} (h : ∀ l ∈ kept.1, Spaced l) (line : Str) :
    ∀ l ∈ (tidyLine kept line).1, Spaced l := by
  have hblank : Spaced [] := by
    intro c hc
    cases hc
  rw [tidyLine]
  split_ifs
  · exact h
  · intro l hl
    rcases List.mem_append.mp hl with hl | hl
    · exact h l hl
    · rw [List.mem_singleton.mp hl]
      exact hblank
  · intro l hl
    rcases List.mem_append.mp hl with hl | hl
    · exact h l hl
    · rw [List.mem_singleton.mp hl]
      exact spaced_collapseSpaces _

theorem spaced_foldl_tidyLine (ls : List Str) {kept : List Str × Nat}
    (h : ∀ l ∈ kept.1, Spaced l) : ∀ l ∈ (ls.foldl tidyLine kept).1, Spaced l := by
  induction ls generalizing kept with
  | nil =>
      exact h
  | cons line ls ih =>
      rw [List.foldl_cons]
      exact ih (spaced_tidyLine h line)

/-- The lines of the result. -/
def tidyLines (text : Str) : List Str :=
  ((lines text).foldl tidyLine ([], 0)).1.rdropWhile (fun l => l = [])

theorem tidy_eq (text : Str) : tidy text = join ['\n'] (tidyLines text) := by
  rfl

theorem spaced_of_mem_tidyLines {text line : Str} (h : line ∈ tidyLines text) :
    Spaced line := by
  have hkept : ∀ l ∈ (([], 0) : List Str × Nat).1, Spaced l := by
    intro l hl
    cases hl
  exact spaced_foldl_tidyLine (lines text) hkept line
    ((List.rdropWhile_prefix _ _).subset h)

/-- No blank line ends the result. -/
theorem getLast?_tidyLines (text : Str) : (tidyLines text).getLast? ≠ some [] := by
  intro hlast
  have hne : tidyLines text ≠ [] := by
    intro hnil
    rw [hnil] at hlast
    cases hlast
  have hnot := List.rdropWhile_last_not (fun l : Str => decide (l = []))
    ((lines text).foldl tidyLine ([], 0)).1 hne
  rw [List.getLast?_eq_some_getLast hne] at hlast
  exact hnot (decide_eq_true (Option.some.inj hlast))

theorem lines_tidy (text : Str) : lines (tidy text) = tidyLines text := by
  rw [tidy_eq]
  apply lines_join
  · intro l hl
    exact (spaced_of_mem_tidyLines hl).ends
  · exact getLast?_tidyLines text

/-- **The newlines of tidy text are normal.** -/
theorem normaliseNewlines_tidy (text : Str) : normaliseNewlines (tidy text) = tidy text := by
  rw [normaliseNewlines, lines_tidy, tidy_eq]

theorem normaliseNewlines_htmlToText (html : Str) :
    normaliseNewlines (htmlToText html) = htmlToText html := by
  exact normaliseNewlines_tidy _

/-! ## The characters that are kept -/

/-- The characters that are not whitespace. -/
def solid (s : Str) : Str :=
  s.filter (fun c => !isWhitespace c)

@[simp] theorem solid_append (s t : Str) : solid (s ++ t) = solid s ++ solid t := by
  exact List.filter_append s t

theorem solid_eq_nil {s : Str} : solid s = [] ↔ ∀ c ∈ s, isWhitespace c = true := by
  simp [solid]

/-- Separators of whitespace add nothing. -/
theorem solid_join {sep : Str} (hsep : solid sep = []) (parts : List Str) :
    solid (join sep parts) = solid parts.flatten := by
  induction parts with
  | nil =>
      rfl
  | cons part parts ih =>
      cases parts with
      | nil =>
          rw [join, List.intercalate_singleton, List.flatten_singleton]
      | cons next parts =>
          rw [join] at ih ⊢
          rw [List.intercalate_cons_cons, solid_append, solid_append, hsep, List.append_nil, ih,
            ← solid_append]
          rfl

theorem solid_stripCarriageReturn (line : Str) : solid (stripCarriageReturn line) = solid line := by
  rw [stripCarriageReturn]
  split_ifs with hlast
  · obtain ⟨front, rfl⟩ := List.getLast?_eq_some_iff.mp hlast
    rw [List.dropLast_concat, solid_append]
    exact (List.append_nil _).symm
  · rfl

/-- Reading lines takes line ends away and nothing else. -/
theorem solid_lines (s : Str) : solid (lines s).flatten = solid s := by
  have hjoin : join ['\n'] (s.splitOn '\n') = s := List.intercalate_splitOn '\n'
  have hsplit : solid (s.splitOn '\n').flatten = solid s := by
    rw [← solid_join (by decide : solid ['\n'] = []), hjoin]
  rw [lines, ← hsplit]
  cases s.splitOn '\n' using List.reverseRecOn with
  | nil =>
      rfl
  | append_singleton parts last =>
      have hstrip : ∀ ls : List Str, solid (ls.map stripCarriageReturn).flatten =
          solid ls.flatten := by
        intro ls
        induction ls with
        | nil =>
            rfl
        | cons l ls ih =>
            rw [List.map_cons, List.flatten_cons, List.flatten_cons, solid_append, solid_append,
              solid_stripCarriageReturn, ih]
      rw [List.dropLast_concat, List.getLast?_concat, Option.getD_some, List.flatten_append,
        List.flatten_append, solid_append, solid_append, hstrip, List.flatten_singleton]
      split_ifs with hlast
      · rw [hlast, List.flatten_nil]
      · rw [List.flatten_singleton]

theorem solid_trim (s : Str) : solid (trim s) = solid s := by
  have hstart : ∀ t : Str, solid (trimStart t) = solid t := by
    intro t
    have hnone : solid (t.takeWhile isWhitespace) = [] :=
      solid_eq_nil.mpr fun c hc => List.mem_takeWhile_imp hc
    have hsplit : solid (t.takeWhile isWhitespace ++ t.dropWhile isWhitespace) = solid t :=
      congrArg solid List.takeWhile_append_dropWhile
    rw [solid_append, hnone, List.nil_append] at hsplit
    exact hsplit
  have hend : ∀ t : Str, solid (trimEnd t) = solid t := by
    intro t
    have hnone : solid (t.rtakeWhile isWhitespace) = [] :=
      solid_eq_nil.mpr fun c hc => List.mem_rtakeWhile_imp hc
    have hsplit : solid (t.rdropWhile isWhitespace ++ t.rtakeWhile isWhitespace) = solid t :=
      congrArg solid List.rdropWhile_append_rtakeWhile
    rw [solid_append, hnone, List.append_nil] at hsplit
    exact hsplit
  rw [trim, hend, hstart]

/-- Splitting at whitespace leaves the other characters. -/
theorem flatten_splitOnP (s : Str) : (s.splitOnP isWhitespace).flatten = solid s := by
  induction s with
  | nil =>
      rw [List.splitOnP_nil]
      rfl
  | cons c s ih =>
      rw [List.splitOnP_cons_eq_if_modifyHead]
      split_ifs with hspace
      · rw [List.flatten_cons, List.nil_append, ih, solid, solid, List.filter_cons_of_neg]
        simpa using hspace
      · obtain ⟨head, tail, hparts⟩ :=
          List.exists_cons_of_ne_nil (List.splitOnP_ne_nil isWhitespace s)
        rw [hparts, List.flatten_cons] at ih
        rw [hparts, List.modifyHead_cons, List.flatten_cons, List.cons_append, ih, solid, solid,
          List.filter_cons_of_pos]
        simpa using hspace

theorem solid_collapseSpaces (line : Str) : solid (collapseSpaces line) = solid line := by
  have hflatten : (splitWhitespace line).flatten = solid line := by
    rw [← flatten_splitOnP line, splitWhitespace]
    generalize line.splitOnP isWhitespace = ws
    induction ws with
    | nil =>
        rfl
    | cons w ws ih =>
        rw [List.filter_cons]
        split_ifs with hne
        · rw [List.flatten_cons, List.flatten_cons, ih]
        · have hnil : w = [] := by simpa using hne
          rw [List.flatten_cons, hnil, List.nil_append, ih]
  rw [collapseSpaces, solid_join (by decide), hflatten, solid, solid, List.filter_filter]
  simp

theorem solid_tidyLine (kept : List Str × Nat) (line : Str) :
    solid (tidyLine kept line).1.flatten = solid kept.1.flatten ++ solid line := by
  rw [tidyLine]
  split_ifs with hblank hskip
  · rw [← solid_trim line, hblank]
    exact (List.append_nil _).symm
  · rw [← solid_trim line, hblank, List.flatten_append, solid_append]
    rfl
  · rw [List.flatten_append, solid_append, List.flatten_singleton, solid_collapseSpaces,
      solid_trim]

theorem solid_foldl_tidyLine (ls : List Str) (kept : List Str × Nat) :
    solid (ls.foldl tidyLine kept).1.flatten = solid kept.1.flatten ++ solid ls.flatten := by
  induction ls generalizing kept with
  | nil =>
      exact (List.append_nil _).symm
  | cons line ls ih =>
      rw [List.foldl_cons, ih, solid_tidyLine, List.flatten_cons, solid_append,
        List.append_assoc]

/-- **Tidying loses whitespace only.** -/
theorem solid_tidy (text : Str) : solid (tidy text) = solid text := by
  have hblank : ∀ ls : List Str, (ls.rdropWhile (fun l => l = [])).flatten = ls.flatten := by
    intro ls
    induction ls using List.reverseRecOn with
    | nil =>
        rfl
    | append_singleton ls last ih =>
        by_cases hlast : last = []
        · rw [List.rdropWhile_concat, if_pos (decide_eq_true hlast), ih, hlast,
            List.flatten_append]
          exact (List.append_nil _).symm
        · rw [List.rdropWhile_concat, if_neg (by simpa using hlast)]
  rw [tidy_eq, solid_join (by decide), tidyLines, hblank, solid_foldl_tidyLine, solid_lines]
  rfl

theorem solid_normaliseNewlines (text : Str) : solid (normaliseNewlines text) = solid text := by
  rw [normaliseNewlines, solid_join (by decide), solid_lines]

end Smtp
end ChimneyPost
