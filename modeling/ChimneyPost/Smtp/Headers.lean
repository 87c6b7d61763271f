import ChimneyPost.Smtp.Parser
import ChimneyPost.Text.Trim

/-!
# Header blocks

A plain message is written as its headers, an empty line and a body.  `renderMail` writes it,
with folded lines and with either line end, and `extractSubjectAndBody` is computed on what is
written: it stops at the first line without text, and of several subjects it takes the last
(`extractSubjectAndBody_renderMail_iff`).
-/

namespace ChimneyPost
namespace Smtp

/-! ## The block -/

/-- A line, which ends in CRLF or in LF. -/
structure HeaderLine where
  text : Str
  crlf : Bool

def HeaderLine.render (l : HeaderLine) : Str :=
  l.text ++ if l.crlf then ['\r', '\n'] else ['\n']

/-- A header: its name, blanks before the colon, what stands behind it, and folded lines. -/
structure Header where
  name : Str
  gap : Str
  value : HeaderLine
  folds : List HeaderLine

namespace Header

variable (h : Header)

def first : HeaderLine where
  text := h.name ++ (h.gap ++ ':' :: h.value.text)
  crlf := h.value.crlf

def lines : List HeaderLine :=
  h.first :: h.folds

/-- A header that says how the message is built or encoded. -/
def isMime : Bool :=
  "content-".toList.isPrefixOf (toAsciiLowercase h.name) ||
    toAsciiLowercase h.name = "mime-version".toList

def isSubject : Bool :=
  eqIgnoreAsciiCase h.name "Subject".toList

/-- ASCII without encoded words; folded lines begin with a blank. -/
structure Plain : Prop where
  name_ne_nil : h.name ≠ []
  name : ∀ c ∈ h.name, 33 ≤ c.toNat ∧ c.toNat ≤ 126 ∧ c ≠ ':'
  notMime : h.isMime = false
  gap : ∀ c ∈ h.gap, c = ' ' ∨ c = '\t'
  ascii : ∀ l ∈ h.value :: h.folds, ∀ c ∈ l.text, c.toNat < 128 ∧ c ≠ '\n' ∧ c ≠ '\r'
  folds : ∀ l ∈ h.folds, l.text.head? = some ' ' ∨ l.text.head? = some '\t'
  unencoded : ∀ l ∈ h.value :: h.folds, findStr "=?".toList l.text = none

/-- The test for a plain header. -/
def isPlain : Bool :=
  h.name ≠ [] && h.name.all (fun c => 33 ≤ c.toNat && c.toNat ≤ 126 && c ≠ ':') && !h.isMime &&
    h.gap.all (fun c => c = ' ' || c = '\t') &&
    (h.value :: h.folds).all (fun l =>
      l.text.all (fun c => c.toNat < 128 && c ≠ '\n' && c ≠ '\r')) &&
    h.folds.all (fun l => l.text.head? = some ' ' || l.text.head? = some '\t') &&
    (h.value :: h.folds).all (fun l => findStr "=?".toList l.text = none)

theorem plain_of_isPlain {h : Header} (hplain : h.isPlain = true) : h.Plain := by
  simp only [isPlain, Bool.and_eq_true, List.all_eq_true, decide_eq_true_eq, Bool.or_eq_true,
    Bool.not_eq_true', and_assoc] at hplain
  obtain ⟨hne, hname, hmime, hgap, hascii, hfolds, hunencoded⟩ := hplain
  exact ⟨hne, hname, hmime, hgap, hascii, hfolds, hunencoded⟩

end Header

/-- A line that is more than whitespace. -/
def hasText (line : Str) : Bool :=
  trim line ≠ []

namespace Header

variable (h : Header)

/-- The folded lines with text. -/
def texts : List Str :=
  (h.folds.map HeaderLine.text).filter hasText

/-- The lines of a header, trimmed, with a space before each folded one. -/
def spaced : Str :=
  trim h.value.text ++ h.texts.flatMap (fun line => ' ' :: trim line)

end Header

/-- The texts of all header lines. -/
def headerTexts (headers : List Header) : List Str :=
  (headers.flatMap Header.lines).map HeaderLine.text

/-- The block: headers, an empty line, and the body. -/
def renderMail (headers : List Header) (crlf : Bool) (body : Str) : Str :=
  (headers.flatMap Header.lines).flatMap HeaderLine.render ++
    (({ text := [], crlf := crlf } : HeaderLine).render ++ body)

/-! ## Lines -/

theorem lines_append_newline {line : Str} (hline : '\n' ∉ line) (rest : Str) :
    lines (line ++ '\n' :: rest) = stripCarriageReturn line :: lines rest := by
  obtain ⟨parts, last, hparts⟩ := exists_splitOn_eq_concat '\n' rest
  have hsplit : (line ++ '\n' :: rest).splitOn '\n' = (line :: parts) ++ [last] := by
    rw [List.splitOn_append_cons_self, List.splitOn_eq_singleton hline, List.singleton_append,
      hparts, List.cons_append]
  rw [lines, lines, hsplit, hparts]
  simp only [List.dropLast_concat, List.getLast?_concat, Option.getD_some]
  rfl

theorem lines_render {l : HeaderLine} (hl : ∀ c ∈ l.text, c ≠ '\n' ∧ c ≠ '\r') (rest : Str) :
    lines (l.render ++ rest) = l.text :: lines rest := by
  have hfree : '\n' ∉ l.text := fun hmem => (hl _ hmem).1 rfl
  have hstrip : stripCarriageReturn l.text = l.text := by
    rw [stripCarriageReturn, if_neg]
    intro hlast
    exact (hl _ (List.mem_of_getLast? hlast)).2 rfl
  rw [HeaderLine.render]
  cases l.crlf with
  | false =>
      rw [if_neg (by simp), List.append_assoc]
      exact (lines_append_newline hfree rest).trans (by rw [hstrip])
  | true =>
      have hfree' : '\n' ∉ l.text ++ ['\r'] := by
        rw [List.mem_append, not_or]
        exact ⟨hfree, by decide⟩
      have hstrip' : stripCarriageReturn (l.text ++ ['\r']) = l.text := by
        rw [stripCarriageReturn, if_pos List.getLast?_concat, List.dropLast_concat]
      have hform : l.text ++ ['\r', '\n'] ++ rest = (l.text ++ ['\r']) ++ '\n' :: rest := by
        simp
      rw [if_pos rfl, hform, lines_append_newline hfree' rest, hstrip']

theorem lines_eq_nil {s : Str} : lines s = [] ↔ s = [] := by
  constructor
  · intro h
    obtain ⟨parts, last, hparts⟩ := exists_splitOn_eq_concat '\n' s
    have htext : join ['\n'] (s.splitOn '\n') = s := List.intercalate_splitOn '\n'
    rw [lines, hparts, List.append_eq_nil_iff] at h
    simp only [List.dropLast_concat, List.getLast?_concat, Option.getD_some, List.map_eq_nil_iff]
      at h
    obtain ⟨rfl, hlast⟩ := h
    split_ifs at hlast with hnil
    rw [← htext, hparts, hnil]
    rfl
  · rintro rfl
    rfl

theorem lines_flatMap_render {ls : List HeaderLine}
    (hls : ∀ l ∈ ls, ∀ c ∈ l.text, c ≠ '\n' ∧ c ≠ '\r') (rest : Str) :
    lines (ls.flatMap HeaderLine.render ++ rest) = ls.map HeaderLine.text ++ lines rest := by
  induction ls with
  | nil =>
      rfl
  | cons l ls ih =>
      rw [List.flatMap_cons, List.append_assoc, lines_render (hls l List.mem_cons_self),
        ih (fun m hm => hls m (List.mem_cons_of_mem l hm)), List.map_cons, List.cons_append]

theorem Header.Plain.no_line_end {h : Header} (hplain : h.Plain) :
    ∀ l ∈ h.lines, ∀ c ∈ l.text, c ≠ '\n' ∧ c ≠ '\r' := by
  intro l hl c hc
  rcases List.mem_cons.mp hl with rfl | hl
  · simp only [Header.first, List.mem_append, List.mem_cons] at hc
    rcases hc with hc | hc | rfl | hc
    · obtain ⟨hlow, -⟩ := hplain.name c hc
      constructor
      · rintro rfl
        exact absurd hlow (by decide)
      · rintro rfl
        exact absurd hlow (by decide)
    · rcases hplain.gap c hc with rfl | rfl
      · decide
      · decide
    · decide
    · exact (hplain.ascii h.value List.mem_cons_self c hc).2
  · exact (hplain.ascii l (List.mem_cons_of_mem _ hl) c hc).2

/-- The lines that are read are those that were written. -/
theorem lines_renderMail {headers : List Header} (hplain : ∀ h ∈ headers, h.Plain) (crlf : Bool)
    (body : Str) : lines (renderMail headers crlf body) =
      headerTexts headers ++ [] :: lines body := by
  have hfree : ∀ l ∈ headers.flatMap Header.lines, ∀ c ∈ l.text, c ≠ '\n' ∧ c ≠ '\r' := by
    intro l hl
    obtain ⟨h, hh, hl⟩ := List.mem_flatMap.mp hl
    exact (hplain h hh).no_line_end l hl
  rw [renderMail, lines_flatMap_render hfree, lines_render (fun c hc => by cases hc)]
  rfl

/-! ## The raw split -/

namespace RawSplit

theorem foldl_body {s : RawSplit} (hs : s.inHeaders = false) (ls : List Str) :
    ls.foldl line s = { s with bodyLines := s.bodyLines ++ ls } := by
  induction ls generalizing s with
  | nil =>
      simp
  | cons l ls ih =>
      have hline : line s l = { s with bodyLines := s.bodyLines ++ [l] } := by
        rw [line, hs]
        rfl
      rw [List.foldl_cons, hline]
      refine Eq.trans (ih hs) ?_
      simp

/-- Lines with text do not end the headers. -/
theorem line_hasText {s : RawSplit} (hs : s.inHeaders = true) {l : Str} (hl : hasText l = true) :
    (line s l).inHeaders = true ∧ (line s l).bodyLines = s.bodyLines := by
  rw [hasText, decide_eq_true_eq] at hl
  rw [line, if_pos hs, if_neg hl]
  split_ifs
  · exact ⟨hs, rfl⟩
  · exact ⟨hs, rfl⟩
  · exact ⟨hs, rfl⟩

theorem foldl_headers {s : RawSplit} (hs : s.inHeaders = true) {ls : List Str}
    (hls : ∀ l ∈ ls, hasText l = true) :
    (ls.foldl line s).inHeaders = true ∧ (ls.foldl line s).bodyLines = s.bodyLines := by
  induction ls generalizing s with
  | nil =>
      exact ⟨hs, rfl⟩
  | cons l ls ih =>
      obtain ⟨hheaders, hbody⟩ := line_hasText hs (hls l List.mem_cons_self)
      obtain ⟨hheaders', hbody'⟩ := ih hheaders (fun m hm => hls m (List.mem_cons_of_mem l hm))
      exact ⟨hheaders', hbody'.trans hbody⟩

/-- Where the loop starts. -/
def start : RawSplit where
  subject := none
  inHeaders := true
  bodyLines := []
  lastHeader := none

end RawSplit

/-- The first line without text parts the headers from the body. -/
theorem extractSubjectAndBody_eq {data : Str} {front rear : List Str} {blank : Str}
    (hlines : lines data = front ++ blank :: rear) (hfront : ∀ l ∈ front, hasText l = true)
    (hblank : hasText blank = false) : extractSubjectAndBody data =
      ((front.foldl RawSplit.line .start).subject, join ['\n'] rear) := by
  obtain ⟨hheaders, hbody⟩ := RawSplit.foldl_headers (s := .start) rfl hfront
  have hempty : (front.foldl RawSplit.line .start).bodyLines = [] := hbody
  rw [hasText, decide_eq_false_iff_not, not_not] at hblank
  have hend : RawSplit.line (front.foldl RawSplit.line .start) blank =
      { front.foldl RawSplit.line .start with inHeaders := false } := by
    rw [RawSplit.line, if_pos hheaders, if_pos hblank]
  have hdone : (lines data).foldl RawSplit.line .start =
      { front.foldl RawSplit.line .start with inHeaders := false, bodyLines := rear } := by
    rw [hlines, List.foldl_append, List.foldl_cons, hend, RawSplit.foldl_body rfl]
    simp only [hempty, List.nil_append]
  rw [extractSubjectAndBody]
  change (((lines data).foldl RawSplit.line .start).subject,
    join ['\n'] ((lines data).foldl RawSplit.line .start).bodyLines) = _
  rw [hdone]

/-! ## The body -/

/-- The header lines go on to the empty one, or the line that stops them is the last of them
and there is nothing behind. -/
def BlocksAgree (headers : List Header) (body : Str) : Prop :=
  (∀ l ∈ headerTexts headers, hasText l = true) ∨
    body = [] ∧ ∀ l ∈ (headerTexts headers).dropLast, hasText l = true

theorem length_join {parts : List Str} (hne : parts ≠ []) :
    (join ['\n'] parts).length + 1 = (parts.map List.length).sum + parts.length := by
  induction parts with
  | nil =>
      exact absurd rfl hne
  | cons part parts ih =>
      cases parts with
      | nil =>
          rw [join, List.intercalate_singleton]
          simp
      | cons next parts =>
          have hrest := ih (List.cons_ne_nil _ _)
          rw [join_cons_cons, List.map_cons, List.sum_cons, List.length_cons, List.length_append,
            List.length_append, List.length_singleton]
          omega

/-- More lines make a longer text, but for an empty line in front of nothing. -/
theorem join_append_nil_cons {front rear : List Str} :
    join ['\n'] (front ++ [] :: rear) = join ['\n'] rear ↔ front = [] ∧ rear = [] := by
  constructor
  · intro h
    have hne : front ++ [] :: rear ≠ [] := by
      simp
    have hlength := length_join hne
    rw [h, List.map_append, List.sum_append, List.length_append, List.map_cons, List.sum_cons,
      List.length_cons, List.length_nil] at hlength
    by_cases hrear : rear = []
    · subst hrear
      refine ⟨?_, rfl⟩
      have hnil : (join ['\n'] ([] : List Str)).length = 0 := by
        rfl
      rw [hnil] at hlength
      rw [← List.length_eq_zero_iff]
      simp only [List.length_nil] at hlength
      omega
    · have hlength' := length_join hrear
      omega
  · rintro ⟨rfl, rfl⟩
    rfl

/-- The lines up to the first one without text. -/
theorem exists_front (ls : List Str) : (∀ l ∈ ls, hasText l = true) ∨
    ∃ front blank rear, ls = front ++ blank :: rear ∧ (∀ l ∈ front, hasText l = true) ∧
      hasText blank = false := by
  induction ls with
  | nil =>
      exact Or.inl (fun l hl => absurd hl List.not_mem_nil)
  | cons l ls ih =>
      cases hl : hasText l with
      | true =>
          rcases ih with hall | ⟨front, blank, rear, rfl, hfront, hblank⟩
          · exact Or.inl (List.forall_mem_cons.mpr ⟨hl, hall⟩)
          · exact Or.inr ⟨l :: front, blank, rear, rfl,
              List.forall_mem_cons.mpr ⟨hl, hfront⟩, hblank⟩
      | false =>
          exact Or.inr ⟨[], l, ls, rfl, fun m hm => absurd hm List.not_mem_nil, hl⟩

/-- The subject of the lines with text. -/
def rawSubject (headers : List Header) : Option Str :=
  (((headerTexts headers).filter hasText).foldl RawSplit.line .start).subject

/-- **The raw split of a written block.** -/
theorem extractSubjectAndBody_renderMail_iff {headers : List Header}
    (hplain : ∀ h ∈ headers, h.Plain) (crlf : Bool) (body : Str) (subject : Option Str) :
    extractSubjectAndBody (renderMail headers crlf body) =
      (subject, join ['\n'] (lines body)) ↔
        BlocksAgree headers body ∧ rawSubject headers = subject := by
  have hlines := lines_renderMail hplain crlf body
  rw [rawSubject, BlocksAgree]
  rcases exists_front (headerTexts headers) with hall | ⟨front, blank, rear, hfront, hall, hblank⟩
  · rw [extractSubjectAndBody_eq hlines hall rfl, List.filter_eq_self.mpr hall, Prod.mk.injEq]
    constructor
    · rintro ⟨hsubject, -⟩
      exact ⟨Or.inl hall, hsubject⟩
    · rintro ⟨-, hsubject⟩
      exact ⟨hsubject, rfl⟩
  · have hnot : ¬ ∀ l ∈ headerTexts headers, hasText l = true := by
      intro h
      rw [h blank (by simp [hfront])] at hblank
      cases hblank
    rw [hfront, List.append_assoc, List.cons_append] at hlines
    rw [extractSubjectAndBody_eq hlines hall hblank, Prod.mk.injEq, join_append_nil_cons,
      lines_eq_nil]
    rw [hfront] at hnot ⊢
    have hblank' : ¬ hasText blank = true := by
      simp [hblank]
    by_cases hrear : rear = []
    · subst hrear
      rw [List.dropLast_concat, List.filter_append, List.filter_eq_self.mpr hall,
        List.filter_cons_of_neg hblank', List.filter_nil, List.append_nil]
      tauto
    · have hmem : blank ∈ (front ++ blank :: rear).dropLast := by
        rw [List.dropLast_append_of_ne_nil (List.cons_ne_nil _ _),
          List.dropLast_cons_of_ne_nil hrear]
        simp
      constructor
      · rintro ⟨-, hnil, -⟩
        exact absurd hnil hrear
      · rintro ⟨hagree | ⟨-, hagree⟩, -⟩
        · exact absurd hagree hnot
        · exact absurd (hagree blank hmem) hblank'

/-! ## The subject -/

theorem Header.isSubject_iff {h : Header} :
    h.isSubject = true ↔ toAsciiLowercase h.name = "subject".toList := by
  rw [Header.isSubject, eqIgnoreAsciiCase, beq_iff_eq]
  rfl

namespace Header.Plain

variable {h : Header}

theorem isWord_name (hplain : h.Plain) : IsWord h.name := by
  refine ⟨hplain.name_ne_nil, ?_⟩
  intro c hc
  obtain ⟨hlow, hhigh, -⟩ := hplain.name c hc
  simp only [isWhitespace, Bool.or_eq_false_iff, Bool.and_eq_false_iff, decide_eq_false_iff_not,
    beq_eq_false_iff_ne]
  omega

theorem isWhitespace_gap (hplain : h.Plain) : ∀ c ∈ h.gap, isWhitespace c = true := by
  intro c hc
  rcases hplain.gap c hc with rfl | rfl
  · decide
  · decide

/-- The name is read without the blanks that follow it. -/
theorem trim_name (hplain : h.Plain) : trim (h.name ++ h.gap) = h.name := by
  obtain ⟨hne, hword⟩ := hplain.isWord_name
  obtain ⟨c, rest, hname⟩ := List.exists_cons_of_ne_nil hne
  have hc : isWhitespace c = false := hword c (by simp [hname])
  have hend : trimEnd h.name = h.name := by
    rw [trimEnd, List.rdropWhile_eq_self_iff]
    intro hne'
    simp [hword _ (List.getLast_mem hne')]
  have hstart : trimStart (h.name ++ h.gap) = h.name ++ h.gap := by
    rw [hname, List.cons_append, trimStart_of_head hc]
  rw [trim, hstart, trimEnd_append_blank hplain.isWhitespace_gap, hend]

theorem colon_not_mem (hplain : h.Plain) : ':' ∉ h.name ++ h.gap := by
  intro hmem
  rcases List.mem_append.mp hmem with hname | hgap
  · exact (hplain.name _ hname).2.2 rfl
  · rcases hplain.gap _ hgap with heq | heq
    · cases heq
    · cases heq

end Header.Plain

theorem Header.hasText_first (h : Header) : hasText h.first.text = true := by
  rw [hasText, decide_eq_true_eq, Ne, trim_eq_nil_iff]
  intro hall
  have hcolon := hall ':' (by simp [Header.first])
  exact absurd hcolon (by decide)

/-- The lines of a header with text. -/
theorem Header.filter_lines (h : Header) :
    (h.lines.map HeaderLine.text).filter hasText = h.first.text :: h.texts := by
  rw [Header.lines, List.map_cons, List.filter_cons_of_pos h.hasText_first]
  rfl

namespace RawSplit

theorem line_first {h : Header} (hplain : h.Plain) {s : RawSplit} (hs : s.inHeaders = true) :
    line s h.first.text =
      { s with
        subject := if h.isSubject then some (trim h.value.text) else s.subject
        lastHeader := some (toAsciiLowercase h.name) } := by
  have htext := h.hasText_first
  rw [hasText, decide_eq_true_eq] at htext
  have hafter : afterFirst ':' h.first.text = some h.value.text := by
    rw [Header.first, ← List.append_assoc]
    exact afterFirst_append hplain.colon_not_mem _
  have hbefore : h.first.text.takeWhile (fun c => c ≠ ':') = h.name ++ h.gap := by
    rw [Header.first, ← List.append_assoc]
    exact takeWhile_ne_append hplain.colon_not_mem _
  have hblank : ([' '].isPrefixOf h.first.text || ['\t'].isPrefixOf h.first.text) = false := by
    obtain ⟨c, rest, hname⟩ := List.exists_cons_of_ne_nil hplain.name_ne_nil
    have hlow := (hplain.name c (by simp [hname])).1
    have hspace : ' ' ≠ c := by
      rintro rfl
      exact absurd hlow (by decide)
    have htab : '\t' ≠ c := by
      rintro rfl
      exact absurd hlow (by decide)
    simp [Header.first, hname, List.isPrefixOf, hspace, htab]
  rw [line, if_pos hs, if_neg htext, hblank, if_neg Bool.false_ne_true, hafter, hbefore,
    hplain.trim_name]
  simp only [Option.getD_some, Header.isSubject_iff]

/-- Folded lines with text go on the subject. -/
theorem foldl_folds {s : RawSplit} (hs : s.inHeaders = true) {ls : List Str}
    (hls : ∀ l ∈ ls, (l.head? = some ' ' ∨ l.head? = some '\t') ∧ hasText l = true) :
    ls.foldl line s =
      { s with
        subject :=
          if s.lastHeader = some "subject".toList then
            s.subject.map (fun existing => existing ++ ls.flatMap (fun l => ' ' :: trim l))
          else s.subject } := by
  induction ls generalizing s with
  | nil =>
      have hsame : s.subject.map (fun existing =>
          existing ++ ([] : List Str).flatMap (fun l => ' ' :: trim l)) = s.subject := by
        cases s.subject with
        | none =>
            rfl
        | some existing =>
            exact congrArg some (List.append_nil existing)
      rw [hsame, ite_self]
      rfl
  | cons l ls ih =>
      obtain ⟨hhead, htext⟩ := hls l List.mem_cons_self
      rw [hasText, decide_eq_true_eq] at htext
      have hblank : ([' '].isPrefixOf l || ['\t'].isPrefixOf l) = true := by
        cases l with
        | nil =>
            rcases hhead with hhead | hhead
            · cases hhead
            · cases hhead
        | cons c l =>
            rcases hhead with hhead | hhead
            · cases hhead
              rfl
            · cases hhead
              rfl
      have hrest := fun m hm => hls m (List.mem_cons_of_mem l hm)
      rw [List.foldl_cons, line, if_pos hs, if_neg htext, if_pos hblank]
      by_cases hsubject : s.lastHeader = some "subject".toList
      · rw [if_pos hsubject, if_pos hsubject]
        refine Eq.trans (ih hs hrest) ?_
        rw [if_pos hsubject, Option.map_map]
        congr 2
        funext existing
        simp
      · rw [if_neg hsubject, if_neg hsubject, ih hs hrest, if_neg hsubject]

theorem foldl_header {h : Header} (hplain : h.Plain) {s : RawSplit} (hs : s.inHeaders = true) :
    (h.first.text :: h.texts).foldl line s =
      { s with
        subject := if h.isSubject then some h.spaced else s.subject
        lastHeader := some (toAsciiLowercase h.name) } := by
  have hfolds : ∀ l ∈ h.texts, (l.head? = some ' ' ∨ l.head? = some '\t') ∧ hasText l = true := by
    intro l hl
    obtain ⟨hmem, htext⟩ := List.mem_filter.mp hl
    obtain ⟨fold, hfold, rfl⟩ := List.mem_map.mp hmem
    exact ⟨hplain.folds fold hfold, htext⟩
  rw [List.foldl_cons, line_first hplain hs]
  refine Eq.trans (foldl_folds ?_ hfolds) ?_
  · exact hs
  · simp only [Option.some.injEq, ← Header.isSubject_iff]
    cases hsubject : h.isSubject with
    | true =>
        rfl
    | false =>
        rfl

theorem foldl_block {headers : List Header} (hplain : ∀ h ∈ headers, h.Plain) {s : RawSplit}
    (hs : s.inHeaders = true) :
    ((headers.flatMap (fun h => h.first.text :: h.texts)).foldl line s).subject =
      ((headers.filter Header.isSubject).getLast?.map Header.spaced).or s.subject := by
  induction headers generalizing s with
  | nil =>
      rfl
  | cons h headers ih =>
      have hrest := fun other hother => hplain other (List.mem_cons_of_mem h hother)
      rw [List.flatMap_cons, List.foldl_append, foldl_header (hplain h List.mem_cons_self) hs]
      refine Eq.trans (ih hrest hs) ?_
      dsimp only
      cases hsubject : h.isSubject with
      | true =>
          rw [List.filter_cons_of_pos hsubject, List.getLast?_cons]
          cases (headers.filter Header.isSubject).getLast? with
          | none =>
              rfl
          | some last =>
              rfl
      | false =>
          rw [List.filter_cons_of_neg (by simp [hsubject])]
          rfl

end RawSplit

/-- Of several subjects the raw split takes the last. -/
theorem rawSubject_eq {headers : List Header} (hplain : ∀ h ∈ headers, h.Plain) :
    rawSubject headers = (headers.filter Header.isSubject).getLast?.map Header.spaced := by
  have htexts : (headerTexts headers).filter hasText =
      headers.flatMap (fun h => h.first.text :: h.texts) := by
    rw [headerTexts, List.map_flatMap, List.filter_flatMap]
    exact List.flatMap_congr (fun h _ => h.filter_lines)
  rw [rawSubject, htexts, RawSplit.foldl_block hplain rfl]
  exact Option.or_none

end Smtp
end ChimneyPost
