import ChimneyPost.Lib.History
import ChimneyPost.Smtp.Reference

/-!
# Transparency

A conforming client ends its lines with CRLF: it doubles a dot that begins a
CRLF-delimited line and ends the block with the marker the 354 reply announces.  The
server cuts lines at every line feed.  The two agree on a body exactly when no bare
line feed in it is followed by what the server takes for a terminator line or for a
stuffed dot (`transparent_iff`).

The number of dots tells the two apart: the server may lose dots of the body and never
adds one.
-/

namespace ChimneyPost
namespace Smtp

/-- The byte of a dot. -/
abbrev dot : UInt8 := 46

/-- The byte of a carriage return. -/
abbrev cr : UInt8 := 13

/--
What the client sends for a part of the body.  `start` says that the part begins a
CRLF-delimited line, `afterCr` that a carriage return precedes it.
-/
def stuffFrom : Bool → Bool → List UInt8 → List UInt8
  | _, _, [] => []
  | start, afterCr, b :: bs =>
      (if start && b = dot then [dot, b] else [b]) ++
        stuffFrom (afterCr && b = lf) (b = cr) bs

/-- What the client sends for the body. -/
def stuff (body : List UInt8) : List UInt8 :=
  stuffFrom true false body

/-- The end marker: `.` CRLF. -/
def endMarker : List UInt8 :=
  [dot, cr, lf]

/-- The server takes what follows a bare line feed for a terminator line or for a line
with a stuffed dot. -/
def misread (tail : List UInt8) : Bool :=
  [dot, lf].isPrefixOf tail || [dot, cr, lf].isPrefixOf tail || [dot, dot].isPrefixOf tail

/-- No bare line feed of the body is followed by a dot and a line end, or by two dots. -/
def NoBareDot (body : List UInt8) : Prop :=
  ∀ front tail, body = front ++ lf :: tail → front.getLast? ≠ some cr → misread tail = false

/-- The body arrives as it is, and the stream is left right after the end marker. -/
def Transparent (maxSize : Nat) (body : List UInt8) : Prop :=
  ∀ (r : Reader) (rest : List UInt8), r.stream = stuff body ++ endMarker ++ rest →
    (r.readData maxSize).1 = .ok (fromUtf8Lossy body) ∧
      (r.readData maxSize).2.stream = rest

/-! ## One line of the server -/

section Line

/-- A line as the client sends it. -/
def stuffLine (start : Bool) (line : List UInt8) : List UInt8 :=
  if start && line.head? = some dot then dot :: line else line

/-- The line ends in CRLF, where `afterCr` says what precedes it. -/
def endsCrlf (afterCr : Bool) (line : List UInt8) : Bool :=
  match line.dropLast.getLast? with
  | some b => b = cr
  | none => afterCr

/-- The client's encoding, one line of the server after the other. -/
theorem stuffFrom_cut {start afterCr : Bool} {xs : List UInt8} (hmem : lf ∈ xs) :
    stuffFrom start afterCr xs =
      stuffLine start (Lines.cut lf xs).1 ++
        stuffFrom (endsCrlf afterCr (Lines.cut lf xs).1) false (Lines.cut lf xs).2 := by
  induction xs generalizing start afterCr with
  | nil =>
      cases hmem
  | cons x xs ih =>
      by_cases hx : x = lf
      · have hcr : decide (lf = cr) = false := by decide
        subst hx
        simp [stuffFrom, Lines.cut, stuffLine, endsCrlf, hcr]
      · have hxs : lf ∈ xs := by
          rcases List.mem_cons.mp hmem with heq | hxs
          · exact absurd heq.symm hx
          · exact hxs
        have hne : (Lines.cut lf xs).1 ≠ [] :=
          Lines.cut_fst_ne_nil lf (List.ne_nil_of_mem hxs)
        have hcut : Lines.cut lf (x :: xs) =
            (x :: (Lines.cut lf xs).1, (Lines.cut lf xs).2) := by
          rw [Lines.cut, if_neg hx]
        have hends : endsCrlf afterCr (x :: (Lines.cut lf xs).1) =
            endsCrlf (x = cr) (Lines.cut lf xs).1 := by
          rw [endsCrlf, endsCrlf, List.dropLast_cons_of_ne_nil hne, List.getLast?_cons]
          cases (Lines.cut lf xs).1.dropLast.getLast? <;> rfl
        have hline : stuffLine start (x :: (Lines.cut lf xs).1) =
            (if start && x = dot then [dot, x] else [x]) ++ (Lines.cut lf xs).1 := by
          rw [stuffLine, List.head?_cons]
          by_cases hdot : x = dot
          · subst hdot
            cases start <;> rfl
          · simp [hdot]
        have hafter : (afterCr && decide (x = lf)) = false := by
          simp [hx]
        rw [hcut, stuffFrom, hafter, ih hxs, hends, hline, stuffLine, Bool.false_and,
          if_neg Bool.false_ne_true, List.append_assoc]

variable {front rest : List UInt8}

/-- The line feed a line ends in is the only one the client sends for it. -/
theorem cut_stuffLine (start : Bool) (hfree : lf ∉ front) (t : List UInt8) :
    Lines.cut lf (stuffLine start (front ++ [lf]) ++ t) =
      (stuffLine start (front ++ [lf]), t) := by
  have hcut : ∀ front : List UInt8, lf ∉ front →
      Lines.cut lf (front ++ [lf] ++ t) = (front ++ [lf], t) := by
    intro front hfree
    rw [List.append_assoc, Lines.cut_append_of_not_mem hfree]
    rfl
  rw [stuffLine]
  split_ifs
  · apply hcut (dot :: front)
    intro hmem
    rcases List.mem_cons.mp hmem with heq | hmem
    · exact absurd heq (by decide)
    · exact hfree hmem
  · exact hcut front hfree

/-- A line at the start of a CRLF-delimited line is read as it was meant. -/
theorem read_stuffLine_true (line : List UInt8) :
    isTerminator (stuffLine true line) = false ∧ unstuff (stuffLine true line) = line := by
  cases line with
  | nil => exact ⟨rfl, rfl⟩
  | cons b line =>
      by_cases hdot : b = dot
      · subst hdot
        exact ⟨rfl, rfl⟩
      · have hhead : stuffLine true (b :: line) = b :: line := by
          simp [stuffLine, hdot]
        have hne : ¬ dot = b := fun heq => hdot heq.symm
        rw [hhead]
        constructor
        · simp [isTerminator, hdot]
        · simp [unstuff, hne]

/-- A line that a bare line feed precedes is misread as a terminator or as stuffed. -/
theorem misread_line (hfree : lf ∉ front) :
    misread (front ++ lf :: rest) =
      (isTerminator (front ++ [lf]) || [dot, dot].isPrefixOf (front ++ [lf])) := by
  rw [misread, isTerminator]
  match front, hfree with
  | [], _ => rfl
  | [b], hfree =>
      have hcr : (cr == lf) = false := by decide
      have hlf : (dot == lf) = false := by decide
      cases hb : dot == b with
      | false =>
          have hne : b ≠ 46 := fun heq => by simp [heq] at hb
          simp [List.isPrefixOf, hb, hne]
      | true =>
          obtain rfl := eq_of_beq hb
          simp [List.isPrefixOf, hcr, hlf]
  | b :: c :: front, hfree =>
      simp only [List.mem_cons, not_or] at hfree
      obtain ⟨_, hc, hfront⟩ := hfree
      cases hb : dot == b with
      | false =>
          have hne : b ≠ 46 := fun heq => by simp [heq] at hb
          simp [List.isPrefixOf, hb, hne]
      | true =>
          obtain rfl := eq_of_beq hb
          have hnot : (lf == c) = false := by simpa using hc
          cases front with
          | nil =>
              have hcr : (cr == c) = decide (c = 13) := by
                rw [beq_eq_decide]
                exact decide_eq_decide.mpr eq_comm
              simp [List.isPrefixOf, hnot, hcr]
          | cons d front =>
              have hd : ¬ lf = d := fun heq => hfront (heq ▸ List.mem_cons_self)
              simp [List.isPrefixOf, hnot, hd]

theorem endsCrlf_line (front : List UInt8) :
    endsCrlf false (front ++ [lf]) = decide (front.getLast? = some cr) := by
  rw [endsCrlf, List.dropLast_concat]
  cases front.getLast? with
  | none => rfl
  | some b => simp

/-- The bare line feeds of a body: the one its first line ends in, and those of its rest. -/
theorem noBareDot_line (hfree : lf ∉ front) :
    NoBareDot (front ++ lf :: rest) ↔
      (endsCrlf false (front ++ [lf]) = false → misread rest = false) ∧ NoBareDot rest := by
  rw [endsCrlf_line, decide_eq_false_iff_not]
  constructor
  · intro h
    refine ⟨fun hlast => h front rest rfl hlast, ?_⟩
    intro front' tail heq hlast
    apply h (front ++ lf :: front') tail
    · rw [heq]
      simp
    · rw [List.getLast?_append, List.getLast?_cons]
      cases hend : front'.getLast? with
      | none => simp [show lf ≠ cr by decide]
      | some b => simpa [hend] using hlast
  · rintro ⟨hfirst, hrest⟩ front' tail heq hlast
    rcases History.append_eq_split heq with ⟨rest', heq'⟩ | ⟨front'', hfront'', heq'⟩
    · rw [heq'] at hfree
      simp at hfree
    · cases front'' with
      | nil =>
          rw [List.append_nil] at hfront''
          obtain ⟨_, rfl⟩ := List.cons.inj heq'
          rw [hfront''] at hlast
          exact hfirst hlast
      | cons b front'' =>
          obtain ⟨rfl, heq''⟩ := List.cons.inj heq'
          apply hrest front'' tail heq''
          rw [hfront'', List.getLast?_append, List.getLast?_cons] at hlast
          cases hend : front''.getLast? with
          | none => simp
          | some b => simpa [hend] using hlast

end Line

/-! ## The whole block -/

/-- The rest of a body agrees with what the server makes of it. -/
def Agrees (start : Bool) (xs : List UInt8) : Prop :=
  (start = false → misread xs = false) ∧ NoBareDot xs

/-- How the server reads the rest of a body, followed by the end marker. -/
structure ReadsRest (start : Bool) (xs rest left : List UInt8)
    (lines : List (List UInt8)) : Prop where
  agrees : Agrees start xs → left = rest ∧ content lines = xs
  disagrees : ¬ Agrees start xs → rest.length < left.length ∨
    left = rest ∧ (content lines).count dot < xs.count dot

theorem noBareDot_nil : NoBareDot [] := by
  intro front tail heq _
  simp at heq

theorem agrees_line {start : Bool} {front rest : List UInt8} (hfree : lf ∉ front) :
    Agrees start (front ++ lf :: rest) ↔
      (start = false → misread (front ++ lf :: rest) = false) ∧
        Agrees (endsCrlf false (front ++ [lf])) rest := by
  rw [Agrees, Agrees, noBareDot_line hfree]

section Steps

variable {start start' : Bool} {front xs rest left wire : List UInt8}
  {lines : List (List UInt8)}

/-- A line that is read as it was meant leaves the question to the rest. -/
theorem ReadsRest.line (hfree : lf ∉ front)
    (hfine : start = false → misread (front ++ lf :: xs) = false)
    (h : ReadsRest (endsCrlf false (front ++ [lf])) xs rest left lines)
    (hread : unstuff (stuffLine start (front ++ [lf])) = front ++ [lf]) :
    ReadsRest start (front ++ lf :: xs) rest left
      (stuffLine start (front ++ [lf]) :: lines) := by
  have hbody : front ++ lf :: xs = (front ++ [lf]) ++ xs := by simp
  constructor
  · intro hagrees
    obtain ⟨hleft, hcontent⟩ := h.agrees ((agrees_line hfree).mp hagrees).2
    refine ⟨hleft, ?_⟩
    rw [content_cons, hread, hcontent, hbody]
  · intro hnot
    rw [agrees_line hfree, not_and] at hnot
    rcases h.disagrees (hnot hfine) with hlonger | ⟨hleft, hcount⟩
    · exact Or.inl hlonger
    · refine Or.inr ⟨hleft, ?_⟩
      rw [hbody, content_cons, hread]
      simp only [List.count_append]
      omega

/-- A line that loses a dot it was meant to keep: the block is short of a dot. -/
theorem ReadsRest.shorter
    (hmisread : misread (front ++ lf :: xs) = true)
    (hdots : [dot, dot].isPrefixOf (front ++ [lf]) = true)
    (h : ReadsRest (endsCrlf false (front ++ [lf])) xs rest left lines) :
    ReadsRest false (front ++ lf :: xs) rest left ((front ++ [lf]) :: lines) := by
  have hbody : front ++ lf :: xs = (front ++ [lf]) ++ xs := by simp
  have hnotAgrees : ¬ Agrees false (front ++ lf :: xs) := by
    intro hagrees
    rw [hagrees.1 rfl] at hmisread
    cases hmisread
  constructor
  · intro hagrees
    exact absurd hagrees hnotAgrees
  · intro _
    have hline : (unstuff (front ++ [lf])).count dot + 1 = (front ++ [lf]).count dot := by
      obtain ⟨tail, htail⟩ := List.isPrefixOf_iff_prefix.mp hdots
      rw [unstuff, if_pos hdots, ← htail]
      simp
    have hrest : rest.length < left.length ∨
        left = rest ∧ (content lines).count dot ≤ xs.count dot := by
      by_cases hagrees : Agrees (endsCrlf false (front ++ [lf])) xs
      · obtain ⟨hleft, hcontent⟩ := h.agrees hagrees
        exact Or.inr ⟨hleft, by rw [hcontent]⟩
      · exact (h.disagrees hagrees).imp_right fun hcount => ⟨hcount.1, hcount.2.le⟩
    refine hrest.imp_right ?_
    rintro ⟨hleft, hcount⟩
    refine ⟨hleft, ?_⟩
    rw [hbody, content_cons]
    simp only [List.count_append] at hline ⊢
    omega

end Steps

/-- What the client sends for the rest of a body is read up to the end marker, or not so
far. -/
theorem readsRest (start : Bool) (xs rest : List UInt8)
    (hends : xs = [] ∨ xs.getLast? = some lf) :
    ∃ left, afterBody (stuffFrom start false xs ++ (endMarker ++ rest)) = some left ∧
      ReadsRest start xs rest left
        (bodyLines (stuffFrom start false xs ++ (endMarker ++ rest))) := by
  induction hlen : xs.length using Nat.strong_induction_on generalizing start xs with
  | _ n ih =>
      by_cases hnil : xs = []
      · subst hnil
        refine ⟨rest, rfl, ?_, ?_⟩
        · intro _
          exact ⟨rfl, rfl⟩
        · intro hnot
          exact absurd ⟨fun _ => rfl, noBareDot_nil⟩ hnot
      · have hmem : lf ∈ xs := List.mem_of_getLast? (hends.resolve_left hnil)
        obtain ⟨front, hfront, hfree⟩ := Lines.cut_of_mem hmem
        have hxs : xs = front ++ lf :: (Lines.cut lf xs).2 := by
          have happend := Lines.cut_append lf xs
          rw [hfront] at happend
          simpa using happend.symm
        have hshort := Lines.cut_snd_length_lt lf hnil
        have hends' : (Lines.cut lf xs).2 = [] ∨ (Lines.cut lf xs).2.getLast? = some lf := by
          rcases hends with hnil' | hlast
          · exact absurd hnil' hnil
          · rw [hxs, List.getLast?_append, List.getLast?_cons] at hlast
            cases hrest : (Lines.cut lf xs).2.getLast? with
            | none => exact Or.inl (List.getLast?_eq_none_iff.mp hrest)
            | some b =>
                right
                simpa [hrest] using hlast
        obtain ⟨left, hleft, hreads⟩ := ih _ (hlen ▸ hshort)
          (endsCrlf false (front ++ [lf])) (Lines.cut lf xs).2 hends' rfl
        have hwire : stuffFrom start false xs ++ (endMarker ++ rest) =
            stuffLine start (front ++ [lf]) ++
              (stuffFrom (endsCrlf false (front ++ [lf])) false (Lines.cut lf xs).2 ++
                (endMarker ++ rest)) := by
          rw [stuffFrom_cut hmem, hfront, List.append_assoc]
        have hlonger : rest.length < (stuffFrom (endsCrlf false (front ++ [lf])) false
            (Lines.cut lf xs).2 ++ (endMarker ++ rest)).length := by
          simp [endMarker]
          omega
        generalize stuffFrom (endsCrlf false (front ++ [lf])) false
          (Lines.cut lf xs).2 ++ (endMarker ++ rest) = wire at *
        generalize (Lines.cut lf xs).2 = tail at *
        subst hxs
        have hcut := cut_stuffLine start hfree wire
        have hwireMem : lf ∈ stuffLine start (front ++ [lf]) ++ wire := by
          apply List.mem_append_left
          rw [stuffLine]
          split_ifs <;> simp
        rw [hwire]
        by_cases hfine : start = false → misread (front ++ lf :: tail) = false
        · have hread : isTerminator (stuffLine start (front ++ [lf])) = false ∧
              unstuff (stuffLine start (front ++ [lf])) = front ++ [lf] := by
            cases start with
            | true => exact read_stuffLine_true (front ++ [lf])
            | false =>
                have hnot := hfine rfl
                rw [misread_line hfree, Bool.or_eq_false_iff] at hnot
                refine ⟨hnot.1, ?_⟩
                show unstuff (front ++ [lf]) = front ++ [lf]
                rw [unstuff, hnot.2, if_neg Bool.false_ne_true]
          have hstop : isTerminator (Lines.cut lf
              (stuffLine start (front ++ [lf]) ++ wire)).1 = false := by
            rw [hcut]
            exact hread.1
          refine ⟨left, ?_, ?_⟩
          · rw [afterBody_of_mem hwireMem hstop, hcut]
            exact hleft
          · rw [bodyLines_of_mem hwireMem hstop, hcut]
            exact hreads.line hfree hfine hread.2
        · rw [Classical.not_imp, Bool.not_eq_false] at hfine
          obtain ⟨rfl, hmisread⟩ := hfine
          have hline : stuffLine false (front ++ [lf]) = front ++ [lf] := by
            simp [stuffLine]
          rw [hline] at hcut hwireMem ⊢
          by_cases hstop : isTerminator (front ++ [lf]) = true
          · have hafter : afterBody (front ++ [lf] ++ wire) = some wire := by
              rw [afterBody, Lines.after_of_mem hwireMem, hcut, if_pos hstop]
            refine ⟨wire, hafter, ?_, ?_⟩
            · intro hagrees
              rw [hagrees.1 rfl] at hmisread
              cases hmisread
            · intro _
              exact Or.inl hlonger
          · rw [Bool.not_eq_true] at hstop
            have hdots : [dot, dot].isPrefixOf (front ++ [lf]) = true := by
              rw [misread_line hfree, hstop, Bool.false_or] at hmisread
              exact hmisread
            have hfirst : isTerminator (Lines.cut lf (front ++ [lf] ++ wire)).1 = false := by
              rw [hcut]
              exact hstop
            refine ⟨left, ?_, ?_⟩
            · rw [afterBody_of_mem hwireMem hfirst, hcut]
              exact hleft
            · rw [bodyLines_of_mem hwireMem hfirst, hcut]
              exact hreads.shorter hmisread hdots

theorem count_dots (bs : List UInt8) :
    (fromUtf8Lossy bs).count '.' = bs.count dot := by
  rw [count_fromUtf8Lossy (by decide) (by decide), List.count]
  apply List.countP_congr
  intro b _
  rw [decide_eq_true_eq, beq_iff_eq]
  constructor
  · intro h
    exact UInt8.toNat.inj h
  · rintro rfl
    rfl

/-- A reader that has a stream in its buffer and then sees the end. -/
def bufferedReader (stream : List UInt8) : Reader where
  buffer := stream
  chunks := []
  ending := .eof

theorem bufferedReader_stream (stream : List UInt8) :
    (bufferedReader stream).stream = stream := by
  simp [bufferedReader, Reader.stream]

/--
**Transparency holds exactly** of the bodies in which no bare line feed is followed by a
dot and a line end or by two dots.
-/
theorem transparent_iff (maxSize : Nat) (body : List UInt8) (hends : [cr, lf] <:+ body)
    (hsize : body.length ≤ maxSize) :
    Transparent maxSize body ↔ NoBareDot body := by
  have hlast : body = [] ∨ body.getLast? = some lf := by
    obtain ⟨front, rfl⟩ := hends
    exact Or.inr (by simp)
  have hagree : Agrees true body ↔ NoBareDot body := by
    simp [Agrees]
  constructor
  · intro htransparent
    by_contra hnot
    obtain ⟨left, hafter, hreads⟩ := readsRest true body [] hlast
    obtain ⟨r, hstream, heof⟩ : ∃ r : Reader,
        r.stream = stuffFrom true false body ++ (endMarker ++ []) ∧ r.ending = .eof :=
      ⟨bufferedReader _, bufferedReader_stream _, rfl⟩
    obtain ⟨htext, hleft⟩ := htransparent r [] (by rw [hstream, stuff]; simp)
    rw [← hstream] at hafter hreads
    have hread := readData_eq maxSize heof
    rw [htext] at hread
    split_ifs at hread with hover
    · -- a decoded block ends at the same place, and with fewer dots
      have hposition := (readData_of_fits hafter (not_lt.mp hover)).2
      rw [hleft] at hposition
      rcases hreads.disagrees (fun hagrees => hnot (hagree.mp hagrees)) with
        hlonger | ⟨_, hcount⟩
      · rw [← hposition] at hlonger
        exact absurd hlonger (lt_irrefl _)
      · have hdots := congrArg (List.count '.') (Except.ok.inj hread)
        rw [count_dots, count_dots] at hdots
        omega
  · intro hbare r rest hstream
    obtain ⟨left, hafter, hreads⟩ := readsRest true body rest hlast
    obtain ⟨rfl, hcontent⟩ := hreads.agrees (hagree.mpr hbare)
    rw [← stuff, ← List.append_assoc, ← hstream] at hafter hcontent
    have hfits : (content (bodyLines r.stream)).length ≤ maxSize := by
      rw [hcontent]
      exact hsize
    have hread := readData_of_fits hafter hfits
    rw [hcontent] at hread
    exact hread

/-- A line that begins with a dot, and a bare line feed that no dot follows. -/
def dottedBody : List UInt8 :=
  [dot, 97, lf, 98, cr, lf]

theorem dottedBody_transparent_iff :
    [cr, lf] <:+ dottedBody ∧ dottedBody.length ≤ 10 ∧
      (Transparent 10 dottedBody ↔ NoBareDot dottedBody) := by
  refine ⟨by decide, by decide, ?_⟩
  exact transparent_iff 10 dottedBody (by decide) (by decide)

/-- `x` LF `.` CRLF `RSET` CRLF: the rest of the body is left to be read as commands. -/
def smuggledBody : List UInt8 :=
  [120, lf, dot, cr, lf, 82, 83, 69, 84, cr, lf]

theorem smuggledBody_not_transparent :
    ([cr, lf] <:+ smuggledBody ∧ smuggledBody.length ≤ 1024) ∧
      ¬ Transparent 1024 smuggledBody := by
  refine ⟨by decide, ?_⟩
  intro h
  have hread := (h (bufferedReader (stuff smuggledBody ++ endMarker ++ [])) []
    (bufferedReader_stream _)).2
  have hleft : ((bufferedReader (stuff smuggledBody ++ endMarker ++ [])).readData 1024).2.stream =
      [82, 83, 69, 84, cr, lf, dot, cr, lf] := by
    decide +kernel
  rw [hleft] at hread
  cases hread

end Smtp
end ChimneyPost
