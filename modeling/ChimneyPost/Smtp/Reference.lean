import ChimneyPost.Smtp.Data

/-!
# `read_data` against the flat stream

The lines of a block are fixed by its bytes alone: the stream cut after each line
feed, up to the first terminator line.  On a stream that ends, the total length of
these lines without their stuffed dots and the presence of a terminator decide what
`read_data` returns, whatever the reads are (`readData_flat`).

`Reader.buffered` lists what `read_data` holds in memory: at each `fill_buf` and at
the end of each line, the accumulated data and the line so far.
-/

namespace ChimneyPost
namespace Smtp

/-- The line so far, at each `fill_buf` of `read_line_limited_bytes` and at its end. -/
def lineBuffers (maxBytes : Nat) : List UInt8 → List Chunk → List (List UInt8)
  | buf, [] => [buf]
  | buf, available :: chunks =>
      buf :: match takeLine maxBytes buf available.val with
        | .line bytes _ => [bytes]
        | .more buf' => lineBuffers maxBytes buf' chunks
        | .tooLong => []

/-- The data and the line so far, over the loop of `read_data`. -/
def dataBuffers (maxSize : Nat) :
    Nat → List UInt8 → Reader → List (List UInt8 × List UInt8)
  | 0, _, _ => []
  | fuel + 1, data, r =>
      let maxBytes := maxSize - data.length + 4
      let read := r.readLineLimitedBytes maxBytes
      (lineBuffers maxBytes [] r.slices).map (fun line => (data, line)) ++
        match takeDataLine maxSize data read.1 with
        | .more data' => dataBuffers maxSize fuel data' read.2
        | .done _ => []

/-- What `read_data` holds while it reads: the data and the line so far. -/
def Reader.buffered (r : Reader) (maxSize : Nat) : List (List UInt8 × List UInt8) :=
  dataBuffers maxSize (r.stream.length + 1) [] r

section Buffers

variable {maxBytes maxSize : Nat}

/-- A line that is returned is the last one that was held. -/
theorem mem_lineBuffers_of_line {ending : Ending} {buf line : List UInt8}
    {chunks : List Chunk} (h : (readSlices maxBytes ending buf chunks).1 = .line line) :
    line ∈ lineBuffers maxBytes buf chunks := by
  induction chunks generalizing buf with
  | nil =>
      cases ending with
      | eof =>
          rw [Read.line.inj h]
          exact List.mem_cons_self
      | stalls => cases h
      | fails text => cases h
  | cons available chunks ih =>
      rw [readSlices] at h
      rw [lineBuffers]
      cases hturn : takeLine maxBytes buf available.val with
      | line bytes rest =>
          rw [hturn] at h
          rw [Read.line.inj h]
          exact List.mem_cons_of_mem _ List.mem_cons_self
      | more buf' =>
          rw [hturn] at h
          exact List.mem_cons_of_mem _ (ih h)
      | tooLong =>
          rw [hturn] at h
          cases h

/-- What a turn adds to a line stays within the limit. -/
theorem takeLine_length (maxBytes : Nat) (buf available : List UInt8) :
    (∀ bytes rest, takeLine maxBytes buf available = .line bytes rest →
      bytes.length ≤ maxBytes) ∧
    ∀ buf', takeLine maxBytes buf available = .more buf' → buf'.length ≤ maxBytes := by
  by_cases hmem : lf ∈ available
  · rw [takeLine_of_mem hmem]
    split_ifs with hlong
    · exact ⟨by simp, by simp⟩
    · refine ⟨?_, by simp⟩
      intro bytes rest h
      obtain ⟨rfl, _⟩ := Turn.line.inj h
      rw [List.length_append]
      exact not_lt.mp hlong
  · rw [takeLine_of_not_mem hmem]
    split_ifs with hlong
    · exact ⟨by simp, by simp⟩
    · refine ⟨by simp, ?_⟩
      intro buf' h
      rw [← Turn.more.inj h, List.length_append]
      exact not_lt.mp hlong

theorem lineBuffers_length {buf : List UInt8} {chunks : List Chunk}
    (hbuf : buf.length ≤ maxBytes) :
    ∀ line ∈ lineBuffers maxBytes buf chunks, line.length ≤ maxBytes := by
  induction chunks generalizing buf with
  | nil =>
      intro line hline
      rw [List.mem_singleton.mp hline]
      exact hbuf
  | cons available chunks ih =>
      intro line hline
      rw [lineBuffers] at hline
      rcases List.mem_cons.mp hline with rfl | hline
      · exact hbuf
      · have hlength := takeLine_length maxBytes buf available.val
        cases hturn : takeLine maxBytes buf available.val with
        | line bytes rest =>
            rw [hturn] at hline
            rw [List.mem_singleton.mp hline]
            exact hlength.1 bytes rest hturn
        | more buf' =>
            rw [hturn] at hline
            exact ih (hlength.2 buf' hturn) line hline
        | tooLong =>
            rw [hturn] at hline
            cases hline

/-- Data is kept only while it is within the size limit. -/
theorem takeDataLine_more_length {data data' : List UInt8} {read : Read}
    (h : takeDataLine maxSize data read = .more data') : data'.length ≤ maxSize := by
  cases read with
  | failed error => cases error <;> cases h
  | timedOut => cases h
  | line line =>
      by_cases hne : line = []
      · subst hne
        cases h
      · rw [takeDataLine_of_ne_nil maxSize data hne] at h
        split_ifs at h with hstop hover
        rw [← DataTurn.more.inj h, List.length_append]
        exact not_lt.mp hover

theorem dataBuffers_length (fuel : Nat) {data : List UInt8} {r : Reader}
    (hdata : data.length ≤ maxSize) :
    ∀ held ∈ dataBuffers maxSize fuel data r,
      held.1.length + held.2.length ≤ maxSize + 4 := by
  induction fuel generalizing data r with
  | zero =>
      intro held hheld
      cases hheld
  | succ fuel ih =>
      intro held hheld
      rw [dataBuffers] at hheld
      rcases List.mem_append.mp hheld with hheld | hheld
      · obtain ⟨line, hline, rfl⟩ := List.mem_map.mp hheld
        have hlength := lineBuffers_length (Nat.zero_le _) line hline
        show data.length + line.length ≤ maxSize + 4
        omega
      · generalize hturn : takeDataLine maxSize data
          (r.readLineLimitedBytes (maxSize - data.length + 4)).1 = turn at hheld
        cases turn with
        | more data' => exact ih (takeDataLine_more_length hturn) held hheld
        | done result => cases hheld

end Buffers

/-! ## The block decides -/

section Flat

variable {maxSize : Nat} {r : Reader}

/-- A line that takes the block over the limit is a part of the block. -/
theorem content_length_of_over {stream : List UInt8} {front back : List (List UInt8)}
    {line : List UInt8} (hlines : bodyLines stream = front ++ line :: back)
    (hover : maxSize < (content front).length + (unstuff line).length) :
    maxSize < (content (bodyLines stream)).length := by
  rw [hlines, content_append, content_cons, List.length_append, List.length_append]
  omega

/-- A block that is refused for its size is over the limit. -/
theorem length_of_exceeded (ending : Ending) {stream : List UInt8} {r' : Reader}
    (h : ReadsData maxSize ending [] stream (.error .smtpSizeExceeded) r') :
    maxSize < (content (bodyLines stream)).length := by
  cases h with
  | tooLong _ front line back hlines hfront hlong hleft =>
      -- the limit on a line leaves room for the dot that a shorter line loses
      have hunstuff := length_le_unstuff line
      simp only [List.length_nil, Nat.zero_add] at hfront hlong
      exact content_length_of_over hlines (by omega)
  | oversized _ front line hlines hrest hfront hreadable hover =>
      simp only [List.length_nil, Nat.zero_add] at hover
      exact content_length_of_over hlines hover

/-- A block with a terminator within the limit is decoded and read past. -/
theorem readData_of_fits {left : List UInt8} (hafter : afterBody r.stream = some left)
    (hfits : (content (bodyLines r.stream)).length ≤ maxSize) :
    (r.readData maxSize).1 = .ok (fromUtf8Lossy (content (bodyLines r.stream))) ∧
      (r.readData maxSize).2.stream = left := by
  have hread := r.readsData maxSize
  generalize r.readData maxSize = result at hread ⊢
  obtain ⟨result, r'⟩ := result
  dsimp only at hread ⊢
  cases hread with
  | decoded _ hafter' _ _ =>
      rw [hafter] at hafter'
      exact ⟨rfl, (Option.some.inj hafter').symm⟩
  | incomplete _ hnone _ _ =>
      rw [hafter] at hnone
      cases hnone
  | stalled _ _ hnone _ =>
      rw [hafter] at hnone
      cases hnone
  | broken _ _ _ hnone _ =>
      rw [hafter] at hnone
      cases hnone
  | tooLong _ front line back hlines hfront hlong hleft =>
      exact absurd hfits (not_le.mpr (length_of_exceeded .eof
        (.tooLong r' front line back hlines hfront hlong hleft)))
  | oversized _ front line hlines hrest hfront hreadable hover =>
      exact absurd hfits (not_le.mpr (length_of_exceeded .eof
        (.oversized r' front line hlines hrest hfront hreadable hover)))

/-- What `read_data` returns on a stream that ends, by the block alone. -/
theorem readData_eq (maxSize : Nat) (heof : r.ending = .eof) :
    (r.readData maxSize).1 =
      if maxSize < (content (bodyLines r.stream)).length then .error .smtpSizeExceeded
      else if (afterBody r.stream).isSome then
        .ok (fromUtf8Lossy (content (bodyLines r.stream)))
      else .error .smtpDataIncomplete := by
  by_cases hover : maxSize < (content (bodyLines r.stream)).length
  · rw [if_pos hover]
    have hread := r.readsData maxSize
    generalize r.readData maxSize = result at hread ⊢
    obtain ⟨result, r'⟩ := result
    rw [heof] at hread
    dsimp only at hread ⊢
    cases hread with
    | decoded _ _ hfits _ =>
        simp only [List.length_nil, Nat.zero_add] at hfits
        omega
    | incomplete _ _ hfits _ =>
        simp only [List.length_nil, Nat.zero_add] at hfits
        omega
    | stalled _ _ _ hstalls => cases hstalls
    | broken _ _ _ _ hfails => cases hfails
    | tooLong => rfl
    | oversized => rfl
  · rw [if_neg hover]
    have hfits := not_lt.mp hover
    cases hafter : afterBody r.stream with
    | some left =>
        rw [Option.isSome_some, if_pos rfl]
        exact (readData_of_fits hafter hfits).1
    | none =>
        rw [Option.isSome_none, if_neg Bool.false_ne_true]
        have hread := r.readsData maxSize
        generalize r.readData maxSize = result at hread ⊢
        obtain ⟨result, r'⟩ := result
        rw [heof] at hread
        dsimp only at hread ⊢
        cases hread with
        | decoded _ hsome _ _ =>
            rw [hafter] at hsome
            cases hsome
        | incomplete => rfl
        | stalled _ _ _ hstalls => cases hstalls
        | broken _ _ _ _ hfails => cases hfails
        | tooLong _ front line back hlines hfront hlong hleft =>
            exact absurd (length_of_exceeded .eof
              (.tooLong r' front line back hlines hfront hlong hleft)) hover
        | oversized _ front line hlines hrest hfront hreadable hover' =>
            exact absurd (length_of_exceeded .eof
              (.oversized r' front line hlines hrest hfront hreadable hover')) hover

/-- `read_data` is what the flat stream says it is. -/
structure ReadsFlat (maxSize : Nat) (r : Reader) : Prop where
  /-- a block is decoded when it has a terminator and is within the limit -/
  decoded : ∀ text, (r.readData maxSize).1 = .ok text ↔
    (∃ left, afterBody r.stream = some left) ∧
      (content (bodyLines r.stream)).length ≤ maxSize ∧
      text = fromUtf8Lossy (content (bodyLines r.stream))
  /-- and then the reader stands behind the terminator -/
  position : ∀ text, (r.readData maxSize).1 = .ok text →
    afterBody r.stream = some (r.readData maxSize).2.stream
  exceeded : (r.readData maxSize).1 = .error .smtpSizeExceeded ↔
    maxSize < (content (bodyLines r.stream)).length
  incomplete : (r.readData maxSize).1 = .error .smtpDataIncomplete ↔
    afterBody r.stream = none ∧ (content (bodyLines r.stream)).length ≤ maxSize
  /-- nothing else is returned -/
  complete : (∃ text, (r.readData maxSize).1 = .ok text) ∨
    (r.readData maxSize).1 = .error .smtpSizeExceeded ∨
    (r.readData maxSize).1 = .error .smtpDataIncomplete
  /-- what is held while a line is read -/
  memory : ∀ held ∈ r.buffered maxSize, held.1.length + held.2.length ≤ maxSize + 4

/-- **`read_data` equals its flat-stream reference**, for every stream that ends, every
way of reading it and every limit. -/
theorem readData_flat (maxSize : Nat) (r : Reader) (heof : r.ending = .eof) :
    ReadsFlat maxSize r := by
  have hmemory : ∀ held ∈ r.buffered maxSize,
      held.1.length + held.2.length ≤ maxSize + 4 :=
    dataBuffers_length (r.stream.length + 1) (Nat.zero_le maxSize)
  have hresult := readData_eq maxSize heof
  by_cases hover : maxSize < (content (bodyLines r.stream)).length
  · rw [if_pos hover] at hresult
    have hlong := not_le.mpr hover
    constructor
    case memory => exact hmemory
    all_goals simp [hresult, hover, hlong]
  · rw [if_neg hover] at hresult
    have hfits := not_lt.mp hover
    cases hafter : afterBody r.stream with
    | some left =>
        have hposition := (readData_of_fits hafter hfits).2
        rw [hafter, Option.isSome_some, if_pos rfl] at hresult
        constructor
        case memory => exact hmemory
        all_goals simp [hresult, hover, hafter, hfits, hposition, eq_comm]
    | none =>
        rw [hafter, Option.isSome_none, if_neg Bool.false_ne_true] at hresult
        constructor
        case memory => exact hmemory
        all_goals simp [hresult, hover, hafter, hfits]

/-- A block of three bytes that arrives in two reads, at the limit of three. -/
def splitBlock : Reader where
  buffer := []
  chunks := [⟨[97, 13], by simp⟩, ⟨[10, 46, 13, 10, 78], by simp⟩]
  ending := .eof

theorem splitBlock_flat :
    splitBlock.ending = .eof ∧ ReadsFlat 3 splitBlock := by
  exact ⟨rfl, readData_flat 3 splitBlock rfl⟩

end Flat

end Smtp
end ChimneyPost
