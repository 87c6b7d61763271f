import ChimneyPost.Smtp.Reader

/-!
# Reading a DATA block

`read_data` of `src/smtp/server.rs`: lines are read, each within what is left of
the size budget, until the terminator line; a line that begins with two dots loses
one of them.

`Reader.readsData` says what the result is in terms of the stream alone: the lines
before the first terminator line (`bodyLines`) and the stream after it
(`afterBody`).  The block ends early only when it exceeds the size limit, and then
the reader is left inside of it.
-/

namespace ChimneyPost
namespace Smtp

/-- The lines that end a block: `.` CRLF and `.` LF. -/
def isTerminator (line : List UInt8) : Bool :=
  line = [46, 13, 10] || line = [46, 10]

/-- Dot-unstuffing: a line that begins with `..` loses one dot. -/
def unstuff (line : List UInt8) : List UInt8 :=
  if [46, 46].isPrefixOf line then line.tail else line

/-- What one turn of the loop of `read_data` decides. -/
inductive DataTurn where
  | more (data : List UInt8)
  | done (result : Except ChimneyError Str)

/-- One turn of the loop of `read_data`, on what `read_line_limited_bytes` returned. -/
def takeDataLine (maxSize : Nat) (data : List UInt8) : Read → DataTurn
  | .failed .smtpLineTooLong => .done (.error .smtpSizeExceeded)
  | .failed error => .done (.error error)
  | .timedOut => .done (.error (.smtp "SMTP data read timed out".toList))
  | .line [] => .done (.error .smtpDataIncomplete)
  | .line line =>
      if isTerminator line then
        .done (.ok (fromUtf8Lossy data))
      else if data.length + (unstuff line).length > maxSize then
        .done (.error .smtpSizeExceeded)
      else
        .more (data ++ unstuff line)

/--
The loop of `read_data`.  Every turn but the last one takes at least one byte, so
that more fuel than there are bytes is never used up.
-/
def readDataLoop (maxSize : Nat) :
    Nat → List UInt8 → Reader → Except ChimneyError Str × Reader
  | 0, _, r => (.error .smtpDataIncomplete, r)
  | fuel + 1, data, r =>
      let read := r.readLineLimitedBytes (maxSize - data.length + 4)
      match takeDataLine maxSize data read.1 with
      | .more data' => readDataLoop maxSize fuel data' read.2
      | .done result => (result, read.2)

/-- `read_data`. -/
def Reader.readData (r : Reader) (maxSize : Nat) : Except ChimneyError Str × Reader :=
  readDataLoop maxSize (r.stream.length + 1) [] r

/-! ## The block as a part of the stream -/

/-- The lines before the first terminator line. -/
def bodyLines (stream : List UInt8) : List (List UInt8) :=
  Lines.block lf isTerminator stream

/-- The stream after the first terminator line. -/
def afterBody (stream : List UInt8) : Option (List UInt8) :=
  Lines.after lf isTerminator stream

/-- The content of lines: each without its stuffed dot. -/
def content (lines : List (List UInt8)) : List UInt8 :=
  (lines.map unstuff).flatten

@[simp] theorem content_nil :
    content [] = [] := by
  rfl

@[simp] theorem content_cons (line : List UInt8) (lines : List (List UInt8)) :
    content (line :: lines) = unstuff line ++ content lines := by
  rfl

theorem content_append (xs ys : List (List UInt8)) :
    content (xs ++ ys) = content xs ++ content ys := by
  simp [content]

@[simp] theorem bodyLines_nil :
    bodyLines [] = [] := by
  rfl

@[simp] theorem afterBody_nil :
    afterBody [] = none := by
  rfl

/-- What a turn makes of a line that is not the end of the stream. -/
theorem takeDataLine_of_ne_nil (maxSize : Nat) (data : List UInt8) {line : List UInt8}
    (hne : line ≠ []) :
    takeDataLine maxSize data (.line line) =
      if isTerminator line then .done (.ok (fromUtf8Lossy data))
      else if data.length + (unstuff line).length > maxSize then
        .done (.error .smtpSizeExceeded)
      else .more (data ++ unstuff line) := by
  cases line with
  | nil => exact absurd rfl hne
  | cons b bs =>
      rfl

/-- Unstuffing removes at most one byte. -/
theorem length_le_unstuff (line : List UInt8) :
    line.length ≤ (unstuff line).length + 1 := by
  unfold unstuff
  split_ifs
  · rw [List.length_tail]
    omega
  · omega

/-- A terminator line is at most three bytes long. -/
theorem length_of_isTerminator {line : List UInt8} (h : isTerminator line = true) :
    line.length ≤ 3 := by
  unfold isTerminator at h
  rw [Bool.or_eq_true, decide_eq_true_eq, decide_eq_true_eq] at h
  rcases h with rfl | rfl <;> simp

theorem not_isTerminator_of_not_mem {line : List UInt8} (h : lf ∉ line) :
    isTerminator line = false := by
  by_contra hstop
  rw [Bool.not_eq_false] at hstop
  unfold isTerminator at hstop
  rw [Bool.or_eq_true, decide_eq_true_eq, decide_eq_true_eq] at hstop
  apply h
  rcases hstop with rfl | rfl <;> simp

/-- The last line before the end of the stream can be read within the limit. -/
def LastLineReadable (maxSize : Nat) (data stream : List UInt8) : Prop :=
  afterBody stream = none ∧ ∃ front line, bodyLines stream = front ++ [line] ∧
    data.length + (content front).length ≤ maxSize ∧
    line.length ≤ maxSize - (data.length + (content front).length) + 4

/-- What reading on from `data` yields, in terms of the stream that is left. -/
inductive ReadsData (maxSize : Nat) (ending : Ending) (data stream : List UInt8) :
    Except ChimneyError Str → Reader → Prop
  /-- the terminator line comes within the limit -/
  | decoded (r : Reader)
      (hafter : afterBody stream = some r.stream)
      (hfits : data.length + (content (bodyLines stream)).length ≤ maxSize)
      (hending : r.ending = ending) :
      ReadsData maxSize ending data stream
        (.ok (fromUtf8Lossy (data ++ content (bodyLines stream)))) r
  /-- the client closes first -/
  | incomplete (r : Reader)
      (hafter : afterBody stream = none)
      (hfits : data.length + (content (bodyLines stream)).length ≤ maxSize)
      (heof : ending = .eof) :
      ReadsData maxSize ending data stream (.error .smtpDataIncomplete) r
  | stalled (r : Reader)
      (hfits : data.length + (content (bodyLines stream)).length ≤ maxSize ∨
        LastLineReadable maxSize data stream)
      (hafter : afterBody stream = none)
      (hstalls : ending = .stalls) :
      ReadsData maxSize ending data stream
        (.error (.smtp "SMTP data read timed out".toList)) r
  | broken (r : Reader) (text : Str)
      (hfits : data.length + (content (bodyLines stream)).length ≤ maxSize ∨
        LastLineReadable maxSize data stream)
      (hafter : afterBody stream = none)
      (hfails : ending = .fails text) :
      ReadsData maxSize ending data stream (.error (.io text)) r
  /-- a line is too long to be read: part of it is left -/
  | tooLong (r : Reader) (front : List (List UInt8)) (line : List UInt8)
      (back : List (List UInt8))
      (hlines : bodyLines stream = front ++ line :: back)
      (hfront : data.length + (content front).length ≤ maxSize)
      (hlong : maxSize - (data.length + (content front).length) + 4 < line.length)
      (hleft : ((afterBody stream).getD []).length < r.stream.length) :
      ReadsData maxSize ending data stream (.error .smtpSizeExceeded) r
  /-- a line has been read but does not fit: what follows it is left -/
  | oversized (r : Reader) (front : List (List UInt8)) (line : List UInt8)
      (hlines : bodyLines stream = front ++ line :: bodyLines r.stream)
      (hafter : afterBody stream = afterBody r.stream)
      (hfront : data.length + (content front).length ≤ maxSize)
      (hread : line.length ≤ maxSize - (data.length + (content front).length) + 4)
      (hover : maxSize < data.length + (content front).length + (unstuff line).length) :
      ReadsData maxSize ending data stream (.error .smtpSizeExceeded) r

section Steps

variable {maxSize : Nat} {ending : Ending} {data stream : List UInt8}

/-- A line that is not the terminator stands at the front of the block. -/
theorem bodyLines_of_mem (hmem : lf ∈ stream)
    (hnot : isTerminator (Lines.cut lf stream).1 = false) :
    bodyLines stream =
      (Lines.cut lf stream).1 :: bodyLines (Lines.cut lf stream).2 := by
  unfold bodyLines
  rw [Lines.block_of_mem hmem, hnot]
  rfl

theorem afterBody_of_mem (hmem : lf ∈ stream)
    (hnot : isTerminator (Lines.cut lf stream).1 = false) :
    afterBody stream = afterBody (Lines.cut lf stream).2 := by
  unfold afterBody
  rw [Lines.after_of_mem hmem, hnot]
  rfl

/-- Reading past a complete line that fits. -/
theorem ReadsData.shift {result : Except ChimneyError Str} {r : Reader}
    (hmem : lf ∈ stream) (hnot : isTerminator (Lines.cut lf stream).1 = false)
    (h : ReadsData maxSize ending (data ++ unstuff (Lines.cut lf stream).1)
      (Lines.cut lf stream).2 result r) :
    ReadsData maxSize ending data stream result r := by
  have hlines := bodyLines_of_mem hmem hnot
  have hrest := afterBody_of_mem hmem hnot
  have hcontent : ∀ front : List (List UInt8),
      data.length + (content ((Lines.cut lf stream).1 :: front)).length =
        (data ++ unstuff (Lines.cut lf stream).1).length + (content front).length := by
    intro front
    rw [content_cons, List.length_append, List.length_append]
    omega
  have hlast : LastLineReadable maxSize (data ++ unstuff (Lines.cut lf stream).1)
      (Lines.cut lf stream).2 → LastLineReadable maxSize data stream := by
    rintro ⟨hafter, front, line, hfront, hfits, hread⟩
    refine ⟨hrest ▸ hafter, (Lines.cut lf stream).1 :: front, line, ?_, ?_, ?_⟩
    · rw [hlines, hfront, List.cons_append]
    · rw [hcontent]
      exact hfits
    · rw [hcontent]
      exact hread
  cases h with
  | decoded _ hafter hfits hending =>
      have hdata : data ++ unstuff (Lines.cut lf stream).1 ++
          content (bodyLines (Lines.cut lf stream).2) =
          data ++ content (bodyLines stream) := by
        rw [hlines, content_cons, List.append_assoc]
      rw [hdata]
      refine .decoded r (hrest ▸ hafter) ?_ hending
      rw [hlines, hcontent]
      exact hfits
  | incomplete _ hafter hfits heof =>
      refine .incomplete r (hrest ▸ hafter) ?_ heof
      rw [hlines, hcontent]
      exact hfits
  | stalled _ hfits hafter hstalls =>
      refine .stalled r ?_ (hrest ▸ hafter) hstalls
      rw [hlines, hcontent]
      exact hfits.imp_right hlast
  | broken _ text hfits hafter hfails =>
      refine .broken r text ?_ (hrest ▸ hafter) hfails
      rw [hlines, hcontent]
      exact hfits.imp_right hlast
  | tooLong _ front line back hfront hfits hlong hleft =>
      refine .tooLong r ((Lines.cut lf stream).1 :: front) line back ?_ ?_ ?_ ?_
      · rw [hlines, hfront, List.cons_append]
      · rw [hcontent]
        exact hfits
      · rw [hcontent]
        exact hlong
      · rw [hrest]
        exact hleft
  | oversized _ front line hfront hafter hfits hread hover =>
      refine .oversized r ((Lines.cut lf stream).1 :: front) line ?_ ?_ ?_ ?_ ?_
      · rw [hlines, hfront, List.cons_append]
      · rw [hrest, hafter]
      · rw [hcontent]
        exact hfits
      · rw [hcontent]
        exact hread
      · rw [hcontent]
        exact hover

/-- A line that is too long is not the terminator, and its rest is still to come. -/
theorem readsData_tooLong {r : Reader} {gone : List UInt8} (hdata : data.length ≤ maxSize)
    (hlong : maxSize - data.length + 4 < (Lines.cut lf stream).1.length)
    (hsplit : stream = gone ++ r.stream) (hfree : lf ∉ gone) (hleft : r.stream ≠ []) :
    ReadsData maxSize ending data stream (.error .smtpSizeExceeded) r := by
  have hnot : isTerminator (Lines.cut lf stream).1 = false := by
    by_contra hstop
    rw [Bool.not_eq_false] at hstop
    have hlength := length_of_isTerminator hstop
    omega
  have hshorter : ((afterBody (Lines.cut lf r.stream).2).getD []).length <
      r.stream.length := by
    have hle : ((afterBody (Lines.cut lf r.stream).2).getD []).length ≤ _ :=
      Lines.after_getD_length_le (Lines.cut lf r.stream).2
    have hlt := Lines.cut_snd_length_lt lf hleft
    omega
  by_cases hmem : lf ∈ stream
  · refine .tooLong r [] (Lines.cut lf stream).1 (bodyLines (Lines.cut lf stream).2)
      (bodyLines_of_mem hmem hnot) hdata hlong ?_
    rw [afterBody_of_mem hmem hnot, hsplit, Lines.cut_append_of_not_mem hfree]
    exact hshorter
  · have hcut := Lines.cut_of_not_mem hmem
    rw [hcut] at hlong
    have hne : stream ≠ [] := by
      rintro rfl
      simp at hlong
    refine .tooLong r [] stream [] (Lines.block_of_not_mem hmem hne) hdata hlong ?_
    have hnone : afterBody stream = none := Lines.after_of_not_mem hmem
    rw [hnone]
    exact List.length_pos_of_ne_nil hleft

/-- What a stream that ends inside a line makes of the block. -/
theorem lastLineReadable_of_not_mem (hmem : lf ∉ stream) (hne : stream ≠ [])
    (hdata : data.length ≤ maxSize)
    (hread : stream.length ≤ maxSize - data.length + 4) :
    LastLineReadable maxSize data stream := by
  refine ⟨Lines.after_of_not_mem hmem, [], stream, ?_, hdata, hread⟩
  exact Lines.block_of_not_mem hmem hne

end Steps

/-! ## The loop -/

section Loop

variable {maxSize : Nat}

/-- A line that stops at the end of the stream is followed by nothing. -/
theorem ReadsData.shift_atEof {data stream : List UInt8}
    {result : Except ChimneyError Str} {r : Reader}
    (hmem : lf ∉ stream) (hne : stream ≠ [])
    (h : ReadsData maxSize .eof (data ++ unstuff stream) [] result r) :
    ReadsData maxSize .eof data stream result r := by
  have hlines : bodyLines stream = [stream] := Lines.block_of_not_mem hmem hne
  have hnone : afterBody stream = none := Lines.after_of_not_mem hmem
  cases h with
  | decoded _ hafter hfits hending => cases hafter
  | incomplete _ hafter hfits heof =>
      refine .incomplete r hnone ?_ rfl
      rw [hlines, content_cons, content_nil, List.append_nil]
      rw [bodyLines_nil, content_nil, List.length_append] at hfits
      simpa using hfits
  | stalled _ hfits hafter hstalls => cases hstalls
  | broken _ text hfits hafter hfails => cases hfails
  | tooLong _ front line back hfront hfits hlong hleft =>
      simp at hfront
  | oversized _ front line hfront hafter hfits hread hover =>
      simp at hfront

/-- The loop does what the stream says, given more fuel than there are bytes. -/
theorem readDataLoop_readsData (fuel : Nat) (data : List UInt8) (r : Reader)
    (hdata : data.length ≤ maxSize)
    (hfuel : r.stream.length < fuel) :
    ReadsData maxSize r.ending data r.stream (readDataLoop maxSize fuel data r).1
      (readDataLoop maxSize fuel data r).2 := by
  induction fuel generalizing data r with
  | zero => omega
  | succ fuel ih =>
      have hread := r.readsLine (maxSize - data.length + 4)
      unfold readDataLoop
      generalize hgen : r.readLineLimitedBytes (maxSize - data.length + 4) = read at hread ⊢
      obtain ⟨line, r'⟩ := read
      dsimp only at hread ⊢
      cases hread with
      | line _ hmem hfits hrest hending =>
          rw [List.nil_append]
          have hne := Lines.cut_fst_ne_nil lf (List.ne_nil_of_mem hmem)
          have hshort := Lines.cut_snd_length_lt lf (List.ne_nil_of_mem hmem)
          rw [takeDataLine_of_ne_nil maxSize data hne]
          simp only [List.length_nil, Nat.zero_add] at hfits
          by_cases hstop : isTerminator (Lines.cut lf r.stream).1 = true
          · have hlines : bodyLines r.stream = [] := by
              unfold bodyLines
              rw [Lines.block_of_mem hmem, if_pos hstop]
            have hafter : afterBody r.stream = some r'.stream := by
              unfold afterBody
              rw [Lines.after_of_mem hmem, if_pos hstop, hrest]
            have hdecoded : ReadsData maxSize r.ending data r.stream
                (.ok (fromUtf8Lossy (data ++ content (bodyLines r.stream)))) r' := by
              refine .decoded r' hafter ?_ hending
              rw [hlines]
              simpa using hdata
            rw [hlines, content_nil, List.append_nil] at hdecoded
            rw [if_pos hstop]
            exact hdecoded
          · rw [if_neg hstop]
            rw [Bool.not_eq_true] at hstop
            by_cases hover : data.length + (unstuff (Lines.cut lf r.stream).1).length > maxSize
            · have hexceeded : ReadsData maxSize r.ending data r.stream
                  (.error .smtpSizeExceeded) r' := by
                refine .oversized r' [] (Lines.cut lf r.stream).1 ?_ ?_ ?_ ?_ ?_
                · rw [bodyLines_of_mem hmem hstop, hrest, List.nil_append]
                · rw [afterBody_of_mem hmem hstop, hrest]
                · simpa using hdata
                · simpa using hfits
                · simpa using hover
              rw [if_pos hover]
              exact hexceeded
            · have hmore := ih (data ++ unstuff (Lines.cut lf r.stream).1) r'
                (by rw [List.length_append]; omega) (by rw [hrest]; omega)
              rw [hrest, hending] at hmore
              rw [if_neg hover]
              exact hmore.shift hmem hstop
      | atEof _ hmem hfits heof hrest hending =>
          rw [List.nil_append, heof]
          simp only [List.length_nil, Nat.zero_add] at hfits
          by_cases hne : r.stream = []
          · rw [hne]
            exact .incomplete r' afterBody_nil (by simpa using hdata) rfl
          · have hstop := not_isTerminator_of_not_mem hmem
            rw [takeDataLine_of_ne_nil maxSize data hne, hstop, if_neg Bool.false_ne_true]
            by_cases hover : data.length + (unstuff r.stream).length > maxSize
            · rw [if_pos hover]
              refine .oversized r' [] r.stream ?_ ?_ ?_ ?_ ?_
              · rw [hrest]
                exact Lines.block_of_not_mem hmem hne
              · rw [hrest]
                exact Lines.after_of_not_mem hmem
              · simpa using hdata
              · simpa using hfits
              · simpa using hover
            · have hpos := List.length_pos_of_ne_nil hne
              have hmore := ih (data ++ unstuff r.stream) r'
                (by rw [List.length_append]; omega)
                (by rw [hrest, List.length_nil]; omega)
              rw [hrest, hending, heof] at hmore
              rw [if_neg hover]
              exact hmore.shift_atEof hmem hne
      | stalled _ hmem hfits hstalls =>
          simp only [List.length_nil, Nat.zero_add] at hfits
          refine .stalled r' ?_ (Lines.after_of_not_mem hmem) hstalls
          by_cases hne : r.stream = []
          · left
            rw [hne]
            simpa using hdata
          · right
            exact lastLineReadable_of_not_mem hmem hne hdata hfits
      | broken _ text hmem hfits hfails =>
          simp only [List.length_nil, Nat.zero_add] at hfits
          refine .broken r' text ?_ (Lines.after_of_not_mem hmem) hfails
          by_cases hne : r.stream = []
          · left
            rw [hne]
            simpa using hdata
          · right
            exact lastLineReadable_of_not_mem hmem hne hdata hfits
      | tooLong _ gone hlong hsplit hfree hleft hending =>
          simp only [List.length_nil, Nat.zero_add] at hlong
          exact readsData_tooLong hdata hlong hsplit hfree hleft

/-- **Reading a block** does what the stream says, however it is cut into reads. -/
theorem Reader.readsData (r : Reader) (maxSize : Nat) :
    ReadsData maxSize r.ending [] r.stream (r.readData maxSize).1 (r.readData maxSize).2 := by
  exact readDataLoop_readsData (r.stream.length + 1) [] r (Nat.zero_le maxSize)
    (Nat.lt_succ_self _)

end Loop

end Smtp
end ChimneyPost
