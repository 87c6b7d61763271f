import ChimneyPost.Text.Str

/-!
# Words

What `split_whitespace` does with strings that are put together.  All of it comes from one
equation: a string is split at each of its whitespace characters
(`splitWhitespace_append_cons`).
-/

namespace ChimneyPost

/-- Not empty, and without whitespace. -/
def IsWord (w : Str) : Prop :=
  w ≠ [] ∧ ∀ c ∈ w, isWhitespace c = false

theorem splitWhitespace_append_cons (s t : Str) {c : Char} (hc : isWhitespace c = true) :
    splitWhitespace (s ++ c :: t) = splitWhitespace s ++ splitWhitespace t := by
  rw [splitWhitespace, List.splitOnP_append_cons s t hc, List.filter_append]
  rfl

@[simp] theorem splitWhitespace_nil : splitWhitespace [] = [] := by
  rw [splitWhitespace, List.splitOnP_nil]
  rfl

theorem splitWhitespace_cons {c : Char} (hc : isWhitespace c = true) (s : Str) :
    splitWhitespace (c :: s) = splitWhitespace s := by
  have h := splitWhitespace_append_cons [] s hc
  rw [splitWhitespace_nil, List.nil_append, List.nil_append] at h
  exact h

theorem splitWhitespace_concat (s : Str) {c : Char} (hc : isWhitespace c = true) :
    splitWhitespace (s ++ [c]) = splitWhitespace s := by
  rw [splitWhitespace_append_cons s [] hc, splitWhitespace_nil, List.append_nil]

theorem splitWhitespace_cons_ne_nil {c : Char} (hc : isWhitespace c = false) (s : Str) :
    splitWhitespace (c :: s) ≠ [] := by
  obtain ⟨head, tail, hparts⟩ :=
    List.exists_cons_of_ne_nil (List.splitOnP_ne_nil isWhitespace s)
  rw [splitWhitespace, List.splitOnP_cons_eq_if_modifyHead, if_neg (by simp [hc]), hparts,
    List.modifyHead_cons]
  simp

/-- There is no word where there is whitespace only. -/
theorem splitWhitespace_eq_nil {s : Str} :
    splitWhitespace s = [] ↔ ∀ c ∈ s, isWhitespace c = true := by
  induction s with
  | nil =>
      simp
  | cons c s ih =>
      by_cases hc : isWhitespace c = true
      · rw [splitWhitespace_cons hc, ih]
        simp [hc]
      · constructor
        · intro hnil
          exact absurd hnil (splitWhitespace_cons_ne_nil (by simpa using hc) s)
        · intro hall
          exact absurd (hall c List.mem_cons_self) hc

theorem splitWhitespace_word {w : Str} (hw : IsWord w) : splitWhitespace w = [w] := by
  rw [splitWhitespace, List.splitOnP_eq_singleton hw.2]
  simp [hw.1]

theorem splitWhitespace_word_cons {w : Str} (hw : IsWord w) {c : Char}
    (hc : isWhitespace c = true) (s : Str) :
    splitWhitespace (w ++ c :: s) = w :: splitWhitespace s := by
  rw [splitWhitespace_append_cons w s hc, splitWhitespace_word hw, List.singleton_append]

/-- The words of a line have no whitespace in them. -/
theorem not_isWhitespace_of_mem_splitWhitespace {s w : Str} {c : Char}
    (hw : w ∈ splitWhitespace s) (hc : c ∈ w) : isWhitespace c = false := by
  have hmem := List.mem_of_mem_filter hw
  clear hw
  induction s generalizing w with
  | nil =>
      simp only [List.splitOnP_nil, List.mem_singleton] at hmem
      subst hmem
      cases hc
  | cons x s ih =>
      rw [List.splitOnP_cons_eq_if_modifyHead] at hmem
      split_ifs at hmem with hx
      · rcases List.mem_cons.mp hmem with rfl | hmem
        · cases hc
        · exact ih hc hmem
      · obtain ⟨head, tail, hparts⟩ :=
          List.exists_cons_of_ne_nil (List.splitOnP_ne_nil isWhitespace s)
        rw [hparts, List.modifyHead_cons] at hmem
        rcases List.mem_cons.mp hmem with rfl | hmem
        · rcases List.mem_cons.mp hc with rfl | hc
          · simpa using hx
          · exact ih hc (by rw [hparts]; exact List.mem_cons_self)
        · exact ih hc (by rw [hparts]; exact List.mem_cons_of_mem _ hmem)

theorem isWord_of_mem_splitWhitespace {s w : Str} (hw : w ∈ splitWhitespace s) : IsWord w := by
  constructor
  · simpa using (List.mem_filter.mp hw).2
  · intro c hc
    exact not_isWhitespace_of_mem_splitWhitespace hw hc

theorem join_cons_cons (sep part next : Str) (parts : List Str) :
    join sep (part :: next :: parts) = part ++ (sep ++ join sep (next :: parts)) := by
  rw [join, List.intercalate_cons_cons, List.append_assoc]
  rfl

theorem join_eq_nil_of_words {ws : List Str} (hws : ∀ w ∈ ws, IsWord w) :
    join [' '] ws = [] ↔ ws = [] := by
  constructor
  · intro hjoin
    cases ws with
    | nil =>
        rfl
    | cons w ws =>
        have hne := (hws w List.mem_cons_self).1
        cases ws with
        | nil =>
            rw [join, List.intercalate_singleton] at hjoin
            exact absurd hjoin hne
        | cons next ws =>
            rw [join_cons_cons] at hjoin
            exact absurd (List.append_eq_nil_iff.mp hjoin).1 hne
  · rintro rfl
    rfl

/-- Words that are joined are read back. -/
theorem splitWhitespace_join {ws : List Str} (hws : ∀ w ∈ ws, IsWord w) :
    splitWhitespace (join [' '] ws) = ws := by
  induction ws with
  | nil =>
      exact splitWhitespace_nil
  | cons w ws ih =>
      have hw := hws w List.mem_cons_self
      have hrest := ih fun v hv => hws v (List.mem_cons_of_mem _ hv)
      cases ws with
      | nil =>
          rw [join, List.intercalate_singleton]
          exact splitWhitespace_word hw
      | cons next ws =>
          rw [join_cons_cons, List.singleton_append,
            splitWhitespace_word_cons hw (by decide), hrest]

/-! ## Trimming -/

theorem splitWhitespace_trimStart (s : Str) :
    splitWhitespace (trimStart s) = splitWhitespace s := by
  induction s with
  | nil =>
      rfl
  | cons c s ih =>
      by_cases hc : isWhitespace c = true
      · rw [trimStart, List.dropWhile_cons_of_pos hc, splitWhitespace_cons hc]
        exact ih
      · rw [trimStart, List.dropWhile_cons_of_neg hc]

theorem splitWhitespace_trimEnd (s : Str) :
    splitWhitespace (trimEnd s) = splitWhitespace s := by
  induction s using List.reverseRecOn with
  | nil =>
      rfl
  | append_singleton s c ih =>
      by_cases hc : isWhitespace c = true
      · rw [trimEnd, List.rdropWhile_concat_pos _ _ _ hc, splitWhitespace_concat s hc]
        exact ih
      · rw [trimEnd, List.rdropWhile_concat_neg _ _ _ hc]

theorem splitWhitespace_trim (s : Str) : splitWhitespace (trim s) = splitWhitespace s := by
  rw [trim, splitWhitespace_trimEnd, splitWhitespace_trimStart]

theorem trim_eq_nil {s : Str} : trim s = [] ↔ splitWhitespace s = [] := by
  constructor
  · intro hnil
    rw [← splitWhitespace_trim, hnil, splitWhitespace_nil]
  · intro hnil
    have hstart : trimStart s = [] :=
      List.dropWhile_eq_nil_iff.mpr (splitWhitespace_eq_nil.mp hnil)
    rw [trim, hstart]
    rfl

theorem splitWhitespace_stripCarriageReturn (line : Str) :
    splitWhitespace (stripCarriageReturn line) = splitWhitespace line := by
  rw [stripCarriageReturn]
  split_ifs with hlast
  · obtain ⟨front, rfl⟩ := List.getLast?_eq_some_iff.mp hlast
    rw [List.dropLast_concat, splitWhitespace_concat front (by decide)]
  · rfl

end ChimneyPost
