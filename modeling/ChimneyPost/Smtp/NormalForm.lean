import ChimneyPost.Lib.Rows
import ChimneyPost.Smtp.Tidy

/-!
# The normal form of tidy text

A text is seen here as the rows of its words.  Tidying is `Rows.squeeze` on them
(`tidyLines_eq`), and each row is written with single spaces.

`TidyForm` is the normal form; its `breaks` are the line feeds between one word and the
next (`breaks_between`).
-/

namespace ChimneyPost
namespace Smtp

open Rows

/-! ## The rows of a text -/

/-- The words of each line. -/
def wordRows (text : Str) : List (List Str) :=
  (text.splitOn '\n').map splitWhitespace

/-- How many line feeds stand between each word and the next one. -/
def breaks (text : Str) : List Nat :=
  steps (places 0 (wordRows text))

/-- The rows of the lines that `lines` reads. -/
def readRows (text : Str) : List (List Str) :=
  (lines text).map splitWhitespace

theorem wordRows_eq (text : Str) :
    wordRows text = readRows text ∨ wordRows text = readRows text ++ [[]] := by
  obtain ⟨parts, last, hparts⟩ := exists_splitOn_eq_concat '\n' text
  have hstrip : (parts.map stripCarriageReturn).map splitWhitespace =
      parts.map splitWhitespace := by
    rw [List.map_map]
    apply List.map_congr_left
    intro line _
    exact splitWhitespace_stripCarriageReturn line
  rw [wordRows, readRows, lines, hparts]
  simp only [List.dropLast_concat, List.getLast?_concat, Option.getD_some, List.map_append,
    hstrip]
  by_cases hlast : last = []
  · right
    simp [hlast]
  · left
    rw [if_neg hlast]

theorem places_wordRows (text : Str) : places 0 (wordRows text) = places 0 (readRows text) := by
  rcases wordRows_eq text with h | h
  · rw [h]
  · rw [h, places_concat_nil]

theorem flatten_wordRows (text : Str) : (wordRows text).flatten = splitWhitespace text := by
  have hjoin : ∀ parts : List Str, (parts.map splitWhitespace).flatten =
      splitWhitespace (join ['\n'] parts) := by
    intro parts
    induction parts with
    | nil =>
        rfl
    | cons part parts ih =>
        cases parts with
        | nil =>
            rw [join, List.intercalate_singleton]
            simp
        | cons next parts =>
            rw [join_cons_cons, List.singleton_append,
              splitWhitespace_append_cons _ _ (by decide), ← ih]
            rfl
  have htext : join ['\n'] (text.splitOn '\n') = text := List.intercalate_splitOn '\n'
  rw [wordRows, hjoin, htext]

theorem isWord_of_mem_readRows {text : Str} {row : List Str} {w : Str}
    (hrow : row ∈ readRows text) (hw : w ∈ row) : IsWord w := by
  obtain ⟨line, -, rfl⟩ := List.mem_map.mp hrow
  exact isWord_of_mem_splitWhitespace hw

/-! ## Tidying squeezes the rows -/

theorem tidyLine_eq (kept : List (List Str) × Nat) (line : Str) :
    tidyLine (kept.1.map (join [' ']), kept.2) line =
      ((keepRow kept (splitWhitespace line)).1.map (join [' ']),
        (keepRow kept (splitWhitespace line)).2) := by
  have hkept : kept.1.map (join [' ']) = [] ↔ kept.1 = [] := List.map_eq_nil_iff
  rw [tidyLine, keepRow]
  simp only [trim_eq_nil, hkept]
  split_ifs with hblank hskip
  · rfl
  · rw [List.map_append]
    rfl
  · rw [List.map_append, collapseSpaces, splitWhitespace_trim]
    rfl

theorem foldl_tidyLine_eq (ls : List Str) (kept : List (List Str) × Nat) :
    (ls.foldl tidyLine (kept.1.map (join [' ']), kept.2)).1 =
      ((ls.map splitWhitespace).foldl keepRow kept).1.map (join [' ']) := by
  induction ls generalizing kept with
  | nil =>
      rfl
  | cons line ls ih =>
      rw [List.foldl_cons, tidyLine_eq, ih]
      rfl

/-- Blank lines at the end are the blank rows at the end. -/
theorem rdropWhile_map_join {rows : List (List Str)}
    (hrows : ∀ row ∈ rows, ∀ w ∈ row, IsWord w) :
    (rows.map (join [' '])).rdropWhile (fun l => l = []) =
      (rows.rdropWhile List.isEmpty).map (join [' ']) := by
  induction rows using List.reverseRecOn with
  | nil =>
      rfl
  | append_singleton rows row ih =>
      have hrow := hrows row (by simp)
      have hfront : ∀ front ∈ rows, ∀ w ∈ front, IsWord w :=
        fun front hf => hrows front (List.mem_append_left _ hf)
      rw [List.map_append, List.map_singleton]
      by_cases hblank : row = []
      · subst hblank
        rw [List.rdropWhile_concat_pos _ _ _ (by rfl), List.rdropWhile_concat_pos _ _ _ rfl,
          ih hfront]
      · have hline : join [' '] row ≠ [] := fun hnil => hblank ((join_eq_nil_of_words hrow).mp hnil)
        rw [List.rdropWhile_concat_neg _ _ _ (by simpa using hline),
          List.rdropWhile_concat_neg _ _ _ (by simpa using hblank), List.map_append,
          List.map_singleton]

theorem isWord_of_flatten_eq {rows kept : List (List Str)} (h : kept.flatten = rows.flatten)
    (hrows : ∀ row ∈ rows, ∀ w ∈ row, IsWord w) : ∀ row ∈ kept, ∀ w ∈ row, IsWord w := by
  intro row hrow w hw
  have hmem : w ∈ kept.flatten := List.mem_flatten.mpr ⟨row, hrow, hw⟩
  rw [h] at hmem
  obtain ⟨row', hrow', hw'⟩ := List.mem_flatten.mp hmem
  exact hrows row' hrow' w hw'

theorem isWord_of_mem_squeeze {text : Str} :
    ∀ row ∈ squeeze (readRows text), ∀ w ∈ row, IsWord w :=
  isWord_of_flatten_eq (flatten_squeeze _) fun _ hrow _ hw => isWord_of_mem_readRows hrow hw

/-- **The lines of tidy text are the squeezed rows.** -/
theorem tidyLines_eq (text : Str) :
    tidyLines text = (squeeze (readRows text)).map (join [' ']) := by
  have hfold := foldl_tidyLine_eq (lines text) ([], 0)
  rw [List.map_nil] at hfold
  have hwords := isWord_of_flatten_eq (kept_foldl (readRows text)).entries
    fun _ hrow _ hw => isWord_of_mem_readRows hrow hw
  rw [tidyLines, hfold, squeeze]
  exact rdropWhile_map_join hwords

/-- Squeezed rows are read back as they were written. -/
theorem readRows_tidy (text : Str) : readRows (tidy text) = squeeze (readRows text) := by
  rw [readRows, lines_tidy, tidyLines_eq, List.map_map]
  conv_rhs => rw [← List.map_id (squeeze (readRows text))]
  apply List.map_congr_left
  intro row hrow
  exact splitWhitespace_join (isWord_of_mem_squeeze row hrow)

theorem tidy_tidy (text : Str) : tidy (tidy text) = tidy text := by
  rw [tidy_eq, tidyLines_eq, readRows_tidy, squeeze_of_normal (normal_squeeze _), ← tidyLines_eq,
    ← tidy_eq]

theorem splitWhitespace_tidy (text : Str) :
    splitWhitespace (tidy text) = splitWhitespace text := by
  have hread : ∀ t : Str, (readRows t).flatten = splitWhitespace t := by
    intro t
    rw [← flatten_wordRows]
    rcases wordRows_eq t with h | h
    · rw [h]
    · simp [h]
  rw [← hread, ← hread, readRows_tidy, flatten_squeeze]

theorem breaks_tidy (text : Str) : breaks (tidy text) = (breaks text).map (min 2) := by
  rw [breaks, breaks, places_wordRows, places_wordRows, readRows_tidy, steps_squeeze]

/-! ## What the breaks count -/

theorem splitOn_append (sep : Char) {s t front last : Str} {parts rest : List Str}
    (hs : s.splitOn sep = parts ++ [last]) (ht : t.splitOn sep = front :: rest) :
    (s ++ t).splitOn sep = parts ++ (last ++ front) :: rest := by
  induction s generalizing parts last with
  | nil =>
      have hnil : parts = [] ∧ last = [] := by
        rw [List.splitOn_eq_splitOnP, List.splitOnP_nil] at hs
        cases parts with
        | nil =>
            exact ⟨rfl, (List.cons.inj hs).1.symm⟩
        | cons part parts =>
            have hlength := congrArg List.length hs
            simp at hlength
      rw [hnil.1, hnil.2]
      exact ht
  | cons c s ih =>
      obtain ⟨parts', last', hparts'⟩ := exists_splitOn_eq_concat sep s
      have hrest := ih hparts'
      rw [List.splitOn_eq_splitOnP] at hs hrest hparts' ⊢
      rw [List.cons_append, List.splitOnP_cons_eq_if_modifyHead, hrest]
      rw [List.splitOnP_cons_eq_if_modifyHead, hparts'] at hs
      split_ifs at hs ⊢ with hc
      · rw [← List.cons_append] at hs
        obtain ⟨rfl, hlast⟩ := List.append_inj' hs rfl
        rw [← List.singleton_inj.mp hlast]
        rfl
      · cases parts' with
        | nil =>
            rw [List.nil_append, List.modifyHead_cons, ← List.nil_append [c :: last']] at hs
            obtain ⟨rfl, hlast⟩ := List.append_inj' hs rfl
            rw [← List.singleton_inj.mp hlast]
            rfl
        | cons part parts' =>
            rw [List.cons_append, List.modifyHead_cons, ← List.cons_append] at hs
            obtain ⟨rfl, hlast⟩ := List.append_inj' hs rfl
            rw [← List.singleton_inj.mp hlast]
            rfl

theorem length_splitOn (sep : Char) (s : Str) :
    (s.splitOn sep).length = s.count sep + 1 := by
  rw [List.splitOn_eq_splitOnP]
  induction s with
  | nil =>
      rw [List.splitOnP_nil]
      rfl
  | cons c s ih =>
      rw [List.splitOnP_cons_eq_if_modifyHead, List.count_cons]
      split_ifs with hc
      · rw [List.length_cons, ih]
      · rw [List.length_modifyHead, ih, Nat.add_zero]

/-- The places in a text that is cut after a whitespace character. -/
theorem places_wordRows_append (s t : Str) {c : Char} (hc : isWhitespace c = true) :
    places 0 (wordRows (s ++ c :: t)) = places 0 (wordRows s) ++
      places ((s ++ [c]).count '\n') (wordRows t) := by
  by_cases hfeed : c = '\n'
  · subst hfeed
    have hrows : wordRows (s ++ '\n' :: t) = wordRows s ++ wordRows t := by
      rw [wordRows, List.splitOn_eq_splitOnP, List.splitOnP_append_cons s t (by rfl),
        List.map_append, ← List.splitOn_eq_splitOnP, ← List.splitOn_eq_splitOnP]
      rfl
    have hlength : (wordRows s).length = (s ++ ['\n']).count '\n' := by
      rw [wordRows, List.length_map, length_splitOn, List.count_append]
      rfl
    rw [hrows, places_append, hlength, Nat.zero_add]
  · obtain ⟨parts, last, hparts⟩ := exists_splitOn_eq_concat '\n' s
    obtain ⟨front, rest, hfront⟩ : ∃ front rest, t.splitOn '\n' = front :: rest := by
      rw [List.splitOn_eq_splitOnP]
      exact List.exists_cons_of_ne_nil (List.splitOnP_ne_nil _ _)
    have hcons : (c :: t).splitOn '\n' = (c :: front) :: rest := by
      rw [List.splitOn_eq_splitOnP] at hfront ⊢
      rw [List.splitOnP_cons_eq_if_modifyHead, hfront, if_neg (by simpa using hfeed)]
      rfl
    have hcount : (s ++ [c]).count '\n' = parts.length := by
      have hlength := length_splitOn '\n' s
      rw [hparts, List.length_append, List.length_singleton] at hlength
      rw [List.count_append, List.count_singleton, if_neg (by simpa using hfeed)]
      omega
    have hleft : places 0 (wordRows s) = places 0 (parts.map splitWhitespace) ++
        List.replicate (splitWhitespace last).length parts.length := by
      rw [wordRows, hparts, List.map_append, List.map_singleton, places_concat, List.length_map,
        Nat.zero_add]
    have hright : places parts.length (wordRows t) =
        List.replicate (splitWhitespace front).length parts.length ++
          places (parts.length + 1) (rest.map splitWhitespace) := by
      rw [wordRows, hfront, List.map_cons, places]
    rw [hcount, hleft, hright, wordRows, splitOn_append '\n' hparts hcons, List.map_append,
      List.map_cons, splitWhitespace_append_cons last front hc, places_append, places,
      List.length_map, Nat.zero_add, List.length_append, ← List.replicate_append_replicate,
      List.append_assoc, List.append_assoc]

theorem places_wordRows_blank (s : Str) {gap : Str} (hgap : ∀ c ∈ gap, isWhitespace c = true) :
    places 0 (wordRows (s ++ gap)) = places 0 (wordRows s) := by
  induction gap using List.reverseRecOn with
  | nil =>
      rw [List.append_nil]
  | append_singleton gap c ih =>
      have hc := hgap c (by simp)
      rw [← List.append_assoc, places_wordRows_append (s ++ gap) [] hc,
        ih fun d hd => hgap d (List.mem_append_left _ hd)]
      exact List.append_nil _

/-- The last word of a text that ends in one stands in the last row. -/
theorem exists_places_eq_concat (s : Str) {c : Char} (hc : isWhitespace c = false) :
    ∃ ns, places 0 (wordRows (s ++ [c])) = ns ++ [(s ++ [c]).count '\n'] := by
  have hfeed : c ≠ '\n' := by
    rintro rfl
    exact absurd hc (by decide)
  obtain ⟨parts, last, hparts⟩ := exists_splitOn_eq_concat '\n' s
  have hsingle : [c].splitOn '\n' = [[c]] := by
    rw [List.splitOn_eq_splitOnP, List.splitOnP_eq_singleton]
    simpa using hfeed
  have hsplit := splitOn_append '\n' hparts hsingle
  have hcount : (s ++ [c]).count '\n' = parts.length := by
    have hlength := length_splitOn '\n' (s ++ [c])
    rw [hsplit, List.length_append, List.length_singleton] at hlength
    omega
  have hword : splitWhitespace (last ++ [c]) ≠ [] := by
    intro hnil
    have hblank := splitWhitespace_eq_nil.mp hnil c (by simp)
    rw [hc] at hblank
    cases hblank
  obtain ⟨k, hk⟩ : ∃ k, (splitWhitespace (last ++ [c])).length = k + 1 :=
    Nat.exists_eq_succ_of_ne_zero (List.length_eq_zero_iff.not.mpr hword)
  refine ⟨places 0 (parts.map splitWhitespace) ++ List.replicate k parts.length, ?_⟩
  rw [wordRows, hsplit, List.map_append, List.map_singleton, places_concat, hk, hcount,
    List.length_map, Nat.zero_add, List.replicate_succ', List.append_assoc]

/-- The first word of a text that begins with one stands in the first row. -/
theorem exists_places_eq_cons (n : Nat) {c : Char} (hc : isWhitespace c = false) (s : Str) :
    ∃ ns, places n (wordRows (c :: s)) = n :: ns := by
  have hfeed : c ≠ '\n' := by
    rintro rfl
    exact absurd hc (by decide)
  obtain ⟨front, rest, hfront⟩ : ∃ front rest, s.splitOnP (· == '\n') = front :: rest :=
    List.exists_cons_of_ne_nil (List.splitOnP_ne_nil _ _)
  obtain ⟨k, hk⟩ : ∃ k, (splitWhitespace (c :: front)).length = k + 1 :=
    Nat.exists_eq_succ_of_ne_zero
      (List.length_eq_zero_iff.not.mpr (splitWhitespace_cons_ne_nil hc front))
  refine ⟨List.replicate k n ++ places (n + 1) (rest.map splitWhitespace), ?_⟩
  rw [wordRows, List.splitOn_eq_splitOnP, List.splitOnP_cons_eq_if_modifyHead, hfront,
    if_neg (by simpa using hfeed), List.modifyHead_cons, List.map_cons, places, hk,
    List.replicate_succ]
  rfl

/-- **A break counts the line feeds between a word and the next one.** -/
theorem breaks_between (front rear : Str) {gap : Str} {c d : Char} (hne : gap ≠ [])
    (hgap : ∀ x ∈ gap, isWhitespace x = true) (hc : isWhitespace c = false)
    (hd : isWhitespace d = false) :
    (breaks (front ++ [c] ++ gap ++ d :: rear))[(splitWhitespace (front ++ [c])).length - 1]? =
      some (gap.count '\n') := by
  obtain ⟨spaces, space, rfl⟩ : ∃ spaces space, gap = spaces ++ [space] :=
    ⟨_, _, (List.dropLast_append_getLast hne).symm⟩
  have hspaces : ∀ x ∈ spaces, isWhitespace x = true :=
    fun x hx => hgap x (List.mem_append_left _ hx)
  obtain ⟨ns, hns⟩ := exists_places_eq_concat front hc
  obtain ⟨ms, hms⟩ :=
    exists_places_eq_cons ((front ++ [c] ++ (spaces ++ [space])).count '\n') hd rear
  have hlength : (splitWhitespace (front ++ [c])).length = ns.length + 1 := by
    rw [← flatten_wordRows, ← length_places 0, hns, List.length_append, List.length_singleton]
  have hplaces : places 0 (wordRows (front ++ [c] ++ (spaces ++ [space]) ++ d :: rear)) =
      ns ++ (front ++ [c]).count '\n' ::
        (front ++ [c] ++ (spaces ++ [space])).count '\n' :: ms := by
    have hcut : front ++ [c] ++ (spaces ++ [space]) ++ d :: rear =
        (front ++ [c] ++ spaces) ++ space :: (d :: rear) := by
      simp
    rw [hcut, places_wordRows_append _ _ (hgap space (by simp)), places_wordRows_blank _ hspaces,
      hns, List.append_assoc _ spaces, hms]
    simp
  rw [breaks, hplaces, hlength, Nat.add_sub_cancel, steps_getElem?, List.count_append,
    Nat.add_sub_cancel_left]

/-! ## Clean lines -/

/-- No whitespace at either end of a line, and no two whitespace characters together. -/
structure Clean (line : Str) : Prop where
  head : ∀ c, line.head? = some c → isWhitespace c = false
  last : ∀ c, line.getLast? = some c → isWhitespace c = false
  apart : line.IsChain (fun c d => isWhitespace c = false ∨ isWhitespace d = false)

theorem clean_nil : Clean [] where
  head := by simp
  last := by simp
  apart := List.IsChain.nil

theorem clean_word {w : Str} (hw : IsWord w) : Clean w where
  head := fun c hc => hw.2 c (List.mem_of_head? hc)
  last := fun c hc => hw.2 c (List.mem_of_getLast? hc)
  apart := List.Pairwise.isChain (List.pairwise_of_forall_mem_list fun c hc _ _ =>
    Or.inl (hw.2 c hc))

theorem Clean.word_append {w line : Str} (h : Clean line) (hne : line ≠ []) (hw : IsWord w) :
    Clean (w ++ ' ' :: line) where
  head := by
    intro c hc
    rw [List.head?_append_of_ne_nil _ hw.1] at hc
    exact hw.2 c (List.mem_of_head? hc)
  last := by
    intro c hc
    rw [List.getLast?_append_of_ne_nil _ (List.cons_ne_nil _ _)] at hc
    obtain ⟨d, line, rfl⟩ := List.exists_cons_of_ne_nil hne
    rw [List.getLast?_cons_cons] at hc
    exact h.last c hc
  apart := by
    obtain ⟨d, line, rfl⟩ := List.exists_cons_of_ne_nil hne
    have hd := h.head d rfl
    rw [List.isChain_append]
    refine ⟨(clean_word hw).apart, List.IsChain.cons_cons (Or.inr hd) h.apart, ?_⟩
    intro c hc e he
    exact Or.inl (hw.2 c (List.mem_of_getLast? hc))

theorem clean_join {ws : List Str} (hws : ∀ w ∈ ws, IsWord w) : Clean (join [' '] ws) := by
  induction ws with
  | nil =>
      exact clean_nil
  | cons w ws ih =>
      have hw := hws w List.mem_cons_self
      have hrest : ∀ v ∈ ws, IsWord v := fun v hv => hws v (List.mem_cons_of_mem _ hv)
      cases ws with
      | nil =>
          rw [join, List.intercalate_singleton]
          exact clean_word hw
      | cons next ws =>
          rw [join_cons_cons, List.singleton_append]
          refine (ih hrest).word_append ?_ hw
          intro hnil
          exact absurd ((join_eq_nil_of_words hrest).mp hnil) (List.cons_ne_nil _ _)

/-! ## The normal form -/

/--
The normal form of a text.  `breaks` is read with 0 for the same line, 1 for a line feed
and 2 for one empty line between.
-/
structure TidyForm (text result : Str) : Prop where
  clean : ∀ line ∈ result.splitOn '\n', Clean line
  first : result ≠ [] → (result.splitOn '\n').head? ≠ some []
  last : result ≠ [] → (result.splitOn '\n').getLast? ≠ some []
  apart : (result.splitOn '\n').IsChain (fun line next => line ≠ [] ∨ next ≠ [])
  words : splitWhitespace result = splitWhitespace text
  breaks : breaks result = (breaks text).map (min 2)
  again : tidy result = result

/-- The lines of tidy text, an empty one standing for none. -/
theorem splitOn_tidy (text : Str) :
    (tidy text).splitOn '\n' = if tidyLines text = [] then [[]] else tidyLines text := by
  rw [tidy_eq]
  split_ifs with hnil
  · rw [hnil]
    rfl
  · exact List.splitOn_intercalate '\n'
      (fun line hline => (spaced_of_mem_tidyLines hline).ends.1) hnil

theorem tidyLines_ne_nil {text : Str} (h : tidy text ≠ []) : tidyLines text ≠ [] := by
  intro hnil
  rw [tidy_eq, hnil] at h
  exact h rfl

theorem clean_of_mem_tidyLines {text line : Str} (h : line ∈ tidyLines text) : Clean line := by
  rw [tidyLines_eq] at h
  obtain ⟨row, hrow, rfl⟩ := List.mem_map.mp h
  exact clean_join (isWord_of_mem_squeeze row hrow)

/-- Lines are blank where the rows are. -/
theorem apart_tidyLines (text : Str) :
    (tidyLines text).IsChain (fun line next => line ≠ [] ∨ next ≠ []) := by
  rw [tidyLines_eq, List.isChain_map]
  have hblank : ∀ row ∈ squeeze (readRows text), row ≠ [] → join [' '] row ≠ [] := by
    intro row hrow hne hnil
    exact hne ((join_eq_nil_of_words (isWord_of_mem_squeeze row hrow)).mp hnil)
  apply List.IsChain.imp_of_mem_imp _ (normal_squeeze (readRows text)).apart
  intro row next hrow hnext hne
  exact hne.imp (hblank row hrow) (hblank next hnext)

theorem head?_tidyLines (text : Str) : (tidyLines text).head? ≠ some [] := by
  intro hhead
  rw [tidyLines_eq, List.head?_map, Option.map_eq_some_iff] at hhead
  obtain ⟨row, hrow, hline⟩ := hhead
  have hnil := (join_eq_nil_of_words (isWord_of_mem_squeeze row (List.mem_of_head? hrow))).mp hline
  rw [hnil] at hrow
  exact (normal_squeeze (readRows text)).head hrow

/-- **Tidy text is in normal form, and has the words of the text.** -/
theorem tidy_tidyForm (text : Str) : TidyForm text (tidy text) where
  clean := by
    intro line hline
    rw [splitOn_tidy] at hline
    split_ifs at hline with hnil
    · rw [List.mem_singleton.mp hline]
      exact clean_nil
    · exact clean_of_mem_tidyLines hline
  first := by
    intro hne
    rw [splitOn_tidy, if_neg (tidyLines_ne_nil hne)]
    exact head?_tidyLines text
  last := by
    intro hne
    rw [splitOn_tidy, if_neg (tidyLines_ne_nil hne)]
    exact getLast?_tidyLines text
  apart := by
    rw [splitOn_tidy]
    split_ifs with hnil
    · exact List.IsChain.singleton []
    · exact apart_tidyLines text
  words := splitWhitespace_tidy text
  breaks := breaks_tidy text
  again := tidy_tidy text

end Smtp
end ChimneyPost
