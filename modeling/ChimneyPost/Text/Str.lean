import ChimneyPost.Text.Unicode
import Mathlib.Data.List.DropRight
import Mathlib.Tactic

/-!
# Strings

A Rust string is modelled by the list of its characters.  The functions below are
the `str` methods the server uses, each under the name it has there.
-/

namespace ChimneyPost

/-- The characters of a string. -/
abbrev Str := List Char

/-- `str::trim_start`. -/
def trimStart (s : Str) : Str :=
  s.dropWhile isWhitespace

/-- `str::trim_end`. -/
def trimEnd (s : Str) : Str :=
  s.rdropWhile isWhitespace

/-- `str::trim`. -/
def trim (s : Str) : Str :=
  trimEnd (trimStart s)

/-- `str::trim_end_matches` with a set of characters. -/
def trimEndMatches (cs : List Char) (s : Str) : Str :=
  s.rdropWhile (fun c => cs.contains c)

/-- `str::split_whitespace`, collected. -/
def splitWhitespace (s : Str) : List Str :=
  (s.splitOnP isWhitespace).filter (fun w => w ≠ [])

/-- `str::strip_prefix`. -/
def stripPrefix (p s : Str) : Option Str :=
  if p.isPrefixOf s then some (s.drop p.length) else none

/-- What follows the first `c`: `&s[s.find(c)? + 1..]` for a one-byte `c`. -/
def afterFirst (c : Char) (s : Str) : Option Str :=
  match s.dropWhile (fun x => x ≠ c) with
  | [] => none
  | _ :: rest => some rest

/-- What precedes the first `c`: `&s[..s.find(c)?]`. -/
def beforeFirst (c : Char) (s : Str) : Option Str :=
  if c ∈ s then some (s.takeWhile (fun x => x ≠ c)) else none

/-- `str::to_uppercase`. -/
def toUppercase (s : Str) : Str :=
  s.flatMap charToUppercase

/-- `str::to_ascii_lowercase`. -/
def toAsciiLowercase (s : Str) : Str :=
  s.map Char.toLower

/-- `str::eq_ignore_ascii_case`. -/
def eqIgnoreAsciiCase (s t : Str) : Bool :=
  toAsciiLowercase s == toAsciiLowercase t

/-- A carriage return at the end of a line goes with its line feed. -/
def stripCarriageReturn (line : Str) : Str :=
  if line.getLast? = some '\r' then line.dropLast else line

/--
`str::lines`, collected: every line feed, with a carriage return before it, ends
a line; what follows the last line feed is a line only when it is not empty.
-/
def lines (s : Str) : List Str :=
  let parts := s.splitOn '\n'
  let last := parts.getLast?.getD []
  parts.dropLast.map stripCarriageReturn ++ (if last = [] then [] else [last])

/-- `[String]::join`. -/
def join (sep : Str) (parts : List Str) : Str :=
  sep.intercalate parts

/-- Decimal digits of an integer, as `format!` writes them. -/
def intToStr (n : Int) : Str :=
  (toString n).toList

/-- Decimal digits of a natural number, as `format!` writes them. -/
def natToStr (n : Nat) : Str :=
  (toString n).toList

theorem mem_of_mem_trimStart {s : Str} {c : Char} (h : c ∈ trimStart s) :
    c ∈ s := by
  exact (List.dropWhile_suffix _).subset h

theorem mem_of_mem_trimEnd {s : Str} {c : Char} (h : c ∈ trimEnd s) :
    c ∈ s := by
  exact (List.rdropWhile_prefix _ _).subset h

theorem mem_of_mem_trim {s : Str} {c : Char} (h : c ∈ trim s) :
    c ∈ s := by
  exact mem_of_mem_trimStart (mem_of_mem_trimEnd h)

theorem mem_of_mem_trimEndMatches {cs : List Char} {s : Str} {c : Char}
    (h : c ∈ trimEndMatches cs s) : c ∈ s := by
  exact (List.rdropWhile_prefix _ _).subset h

theorem mem_of_mem_stripPrefix {p s t : Str} {c : Char}
    (h : stripPrefix p s = some t) (hc : c ∈ t) : c ∈ s := by
  unfold stripPrefix at h
  split_ifs at h
  · obtain rfl := Option.some.inj h
    exact List.mem_of_mem_drop hc

theorem mem_of_mem_afterFirst {c d : Char} {s t : Str}
    (h : afterFirst d s = some t) (hc : c ∈ t) : c ∈ s := by
  unfold afterFirst at h
  split at h
  · cases h
  · next x rest heq =>
      obtain rfl := Option.some.inj h
      have hmem : c ∈ s.dropWhile (fun x => x ≠ d) := by
        rw [heq]
        exact List.mem_cons_of_mem _ hc
      exact (List.dropWhile_suffix _).subset hmem

/-- A string up to the first occurrence of a character. -/
theorem takeWhile_ne_append {c : Char} {front : Str} (hfront : c ∉ front) (rest : Str) :
    (front ++ c :: rest).takeWhile (fun x => x ≠ c) = front := by
  rw [List.takeWhile_append_of_pos]
  · rw [List.takeWhile_cons_of_neg (by simp), List.append_nil]
  · intro x hx
    have hne : x ≠ c := fun heq => hfront (heq ▸ hx)
    simpa using hne

/-- A string from the first occurrence of a character on. -/
theorem dropWhile_ne_append {c : Char} {front : Str} (hfront : c ∉ front) (rest : Str) :
    (front ++ c :: rest).dropWhile (fun x => x ≠ c) = c :: rest := by
  rw [List.dropWhile_append_of_pos]
  · exact List.dropWhile_cons_of_neg (by simp)
  · intro x hx
    have hne : x ≠ c := fun heq => hfront (heq ▸ hx)
    simpa using hne

theorem afterFirst_append {c : Char} {front : Str} (hfront : c ∉ front) (rest : Str) :
    afterFirst c (front ++ c :: rest) = some rest := by
  rw [afterFirst, dropWhile_ne_append hfront]

theorem mem_of_mem_beforeFirst {c d : Char} {s t : Str}
    (h : beforeFirst d s = some t) (hc : c ∈ t) : c ∈ s := by
  unfold beforeFirst at h
  split_ifs at h
  · obtain rfl := Option.some.inj h
    exact (List.takeWhile_prefix _).subset hc

/-- The characters of a piece cut out by `splitOnP` come from the string. -/
theorem mem_of_mem_splitOnP {p : Char → Bool} {s w : Str} {c : Char}
    (hw : w ∈ s.splitOnP p) (hc : c ∈ w) : c ∈ s := by
  induction s generalizing w with
  | nil =>
      simp only [List.splitOnP_nil, List.mem_singleton] at hw
      subst hw
      exact absurd hc (by simp)
  | cons x s ih =>
      rw [List.splitOnP_cons_eq_if_modifyHead] at hw
      split_ifs at hw with hx
      · rcases List.mem_cons.mp hw with rfl | hw
        · exact absurd hc (by simp)
        · exact List.mem_cons_of_mem _ (ih hw hc)
      · obtain ⟨head, tail, hparts⟩ :=
          List.exists_cons_of_ne_nil (List.splitOnP_ne_nil p s)
        rw [hparts, List.modifyHead_cons] at hw
        rcases List.mem_cons.mp hw with rfl | hw
        · rcases List.mem_cons.mp hc with rfl | hc
          · exact List.mem_cons_self
          · have hhead : head ∈ s.splitOnP p := by
              rw [hparts]
              exact List.mem_cons_self
            exact List.mem_cons_of_mem _ (ih hhead hc)
        · have htail : w ∈ s.splitOnP p := by
            rw [hparts]
            exact List.mem_cons_of_mem _ hw
          exact List.mem_cons_of_mem _ (ih htail hc)

theorem exists_splitOn_eq_concat (sep : Char) (s : Str) :
    ∃ parts last, s.splitOn sep = parts ++ [last] := by
  have hne : s.splitOn sep ≠ [] := by
    rw [List.splitOn_eq_splitOnP]
    exact List.splitOnP_ne_nil _ _
  exact ⟨_, _, (List.dropLast_append_getLast hne).symm⟩

theorem mem_of_mem_splitWhitespace {s w : Str} {c : Char}
    (hw : w ∈ splitWhitespace s) (hc : c ∈ w) : c ∈ s := by
  exact mem_of_mem_splitOnP (List.mem_of_mem_filter hw) hc

end ChimneyPost
