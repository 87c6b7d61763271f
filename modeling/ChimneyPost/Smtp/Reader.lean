import ChimneyPost.Error
import ChimneyPost.Lib.Lines
import ChimneyPost.Text.Utf8

/-!
# Reading lines from a connection

`read_line_limited_bytes` and `read_line_limited` of `src/smtp/server.rs`, over a
buffered reader.  What the client sends is a stream of bytes that arrives in
non-empty reads of any size and then ends, fails or stalls until the timeout.

What a call returns depends on the stream alone, not on how it is cut into reads
(`Reader.readsLine`).  What it leaves unread does too, but for one case: after
`SmtpLineTooLong` the reads decide which part of the line is gone.
-/

namespace ChimneyPost
namespace Smtp

/-- The byte of a line feed. -/
abbrev lf : UInt8 := 10

/-- What one read returns while there is data: at least one byte. -/
abbrev Chunk := { bytes : List UInt8 // bytes ≠ [] }

/-- What happens once the last byte has been read. -/
inductive Ending where
  /-- the client closes: reads return nothing -/
  | eof
  /-- nothing more arrives within the timeout -/
  | stalls
  /-- the next read fails -/
  | fails (text : Str)
deriving DecidableEq

/-- A `BufReader`: what it has buffered and what its further reads return. -/
structure Reader where
  buffer : List UInt8
  chunks : List Chunk
  ending : Ending
deriving DecidableEq

/-- The bytes still to be read, in order. -/
def Reader.stream (r : Reader) : List UInt8 :=
  r.buffer ++ (r.chunks.map Subtype.val).flatten

/-- The slices successive calls of `fill_buf` return. -/
def Reader.slices (r : Reader) : List Chunk :=
  if h : r.buffer = [] then r.chunks else ⟨r.buffer, h⟩ :: r.chunks

/-- The result of reading a line under a timeout. -/
inductive Read where
  | line (bytes : List UInt8)
  | failed (error : ChimneyError)
  | timedOut
deriving DecidableEq

/-- What one turn of the loop makes of a slice. -/
inductive Turn where
  | line (bytes rest : List UInt8)
  | more (buf : List UInt8)
  | tooLong
deriving DecidableEq

/-- One turn of the loop of `read_line_limited_bytes` on a non-empty slice. -/
def takeLine (maxBytes : Nat) (buf available : List UInt8) : Turn :=
  match available.findIdx? (fun b => b = lf) with
  | some idx =>
      if buf.length + (idx + 1) > maxBytes then
        .tooLong
      else
        .line (buf ++ available.take (idx + 1)) (available.drop (idx + 1))
  | none =>
      if buf.length + available.length > maxBytes then
        .tooLong
      else
        .more (buf ++ available)

/-- The loop of `read_line_limited_bytes`, over the slices that `fill_buf` returns. -/
def readSlices (maxBytes : Nat) (ending : Ending) :
    List UInt8 → List Chunk → Read × Reader
  | buf, [] =>
      let done : Reader := { buffer := [], chunks := [], ending := ending }
      match ending with
      | .eof => (.line buf, done)
      | .stalls => (.timedOut, done)
      | .fails text => (.failed (.io text), done)
  | buf, available :: chunks =>
      match takeLine maxBytes buf available.val with
      | .line bytes rest =>
          (.line bytes, { buffer := rest, chunks := chunks, ending := ending })
      | .more buf' => readSlices maxBytes ending buf' chunks
      | .tooLong =>
          (.failed .smtpLineTooLong,
            { buffer := available.val, chunks := chunks, ending := ending })

/-- `read_line_limited_bytes` under its timeout. -/
def Reader.readLineLimitedBytes (r : Reader) (maxBytes : Nat) : Read × Reader :=
  readSlices maxBytes r.ending [] r.slices

/-- The result of reading a command line under a timeout. -/
inductive ReadText where
  | text (bytes : Nat) (text : Str)
  | failed (error : ChimneyError)
  | timedOut
deriving DecidableEq

/-- `read_line_limited` under its timeout: the line must be UTF-8. -/
def Reader.readLineLimited (r : Reader) (maxBytes : Nat) : ReadText × Reader :=
  match r.readLineLimitedBytes maxBytes with
  | (.line raw, r') =>
      match fromUtf8 raw with
      | some text => (.text raw.length text, r')
      | none => (.failed (.smtp "invalid UTF-8 in SMTP command".toList), r')
  | (.failed error, r') => (.failed error, r')
  | (.timedOut, r') => (.timedOut, r')

theorem Reader.slices_flatten (r : Reader) :
    (r.slices.map Subtype.val).flatten = r.stream := by
  unfold Reader.slices Reader.stream
  split_ifs with h
  · simp [h]
  · simp

/-! ## One turn -/

section Turns

variable {maxBytes : Nat} {buf available : List UInt8}

theorem takeLine_of_mem (h : lf ∈ available) :
    takeLine maxBytes buf available =
      if buf.length + (Lines.cut lf available).1.length > maxBytes then .tooLong
      else .line (buf ++ (Lines.cut lf available).1) (Lines.cut lf available).2 := by
  cases hidx : available.findIdx? (fun b => b = lf) with
  | none =>
      rw [List.findIdx?_eq_none_iff] at hidx
      exact absurd (hidx lf h) (by simp)
  | some i =>
      obtain ⟨_, hcut⟩ := Lines.cut_of_findIdx? hidx
      have hlt : i < available.length := by
        obtain ⟨hi, _⟩ := List.findIdx?_eq_some_iff_getElem.mp hidx
        exact hi
      have hlength : (available.take (i + 1)).length = i + 1 := by
        rw [List.length_take]
        omega
      simp only [takeLine, hidx, hcut, hlength]

theorem takeLine_of_not_mem (h : lf ∉ available) :
    takeLine maxBytes buf available =
      if buf.length + available.length > maxBytes then .tooLong
      else .more (buf ++ available) := by
  have hidx : available.findIdx? (fun b => b = lf) = none := by
    rw [List.findIdx?_eq_none_iff]
    intro b hb
    have hne : b ≠ lf := fun heq => h (heq ▸ hb)
    simpa using hne
  simp only [takeLine, hidx]

end Turns

/-! ## A line, whatever the reads -/

section Slices

variable {maxBytes : Nat} {ending : Ending}

/-- What reading on from `buf` yields, in terms of the stream that is left. -/
inductive ReadsLine (maxBytes : Nat) (ending : Ending) (buf stream : List UInt8) :
    Read → Reader → Prop
  /-- a complete line within the limit -/
  | line (r : Reader) (hmem : lf ∈ stream)
      (hfits : buf.length + (Lines.cut lf stream).1.length ≤ maxBytes)
      (hrest : r.stream = (Lines.cut lf stream).2) (hending : r.ending = ending) :
      ReadsLine maxBytes ending buf stream (.line (buf ++ (Lines.cut lf stream).1)) r
  /-- the stream ends first -/
  | atEof (r : Reader) (hmem : lf ∉ stream)
      (hfits : buf.length + stream.length ≤ maxBytes) (heof : ending = .eof)
      (hrest : r.stream = []) (hending : r.ending = ending) :
      ReadsLine maxBytes ending buf stream (.line (buf ++ stream)) r
  | stalled (r : Reader) (hmem : lf ∉ stream)
      (hfits : buf.length + stream.length ≤ maxBytes) (hstalls : ending = .stalls) :
      ReadsLine maxBytes ending buf stream .timedOut r
  | broken (r : Reader) (text : Str) (hmem : lf ∉ stream)
      (hfits : buf.length + stream.length ≤ maxBytes) (hfails : ending = .fails text) :
      ReadsLine maxBytes ending buf stream (.failed (.io text)) r
  /-- the line is too long; the slice that shows it is left unread -/
  | tooLong (r : Reader) (gone : List UInt8)
      (hlong : maxBytes < buf.length + (Lines.cut lf stream).1.length)
      (hsplit : stream = gone ++ r.stream) (hfree : lf ∉ gone)
      (hleft : r.stream ≠ []) (hending : r.ending = ending) :
      ReadsLine maxBytes ending buf stream (.failed .smtpLineTooLong) r

/-- A slice without line feed is as if it had been read before. -/
theorem ReadsLine.shift {buf available rest : List UInt8} {read : Read} {r : Reader}
    (hfree : lf ∉ available)
    (h : ReadsLine maxBytes ending (buf ++ available) rest read r) :
    ReadsLine maxBytes ending buf (available ++ rest) read r := by
  have hcut := Lines.cut_append_of_not_mem hfree rest
  cases h with
  | line _ hmem hfits hrest hending =>
      have hline : buf ++ available ++ (Lines.cut lf rest).1 =
          buf ++ (Lines.cut lf (available ++ rest)).1 := by
        rw [hcut, List.append_assoc]
      rw [hline]
      refine .line r (List.mem_append_right _ hmem) ?_ ?_ hending
      · rw [hcut]
        simpa [Nat.add_assoc] using hfits
      · rw [hcut]
        exact hrest
  | atEof _ hmem hfits heof hrest hending =>
      rw [List.append_assoc]
      refine .atEof r ?_ ?_ heof hrest hending
      · simp [hfree, hmem]
      · simpa [Nat.add_assoc] using hfits
  | stalled _ hmem hfits hstalls =>
      refine .stalled r ?_ ?_ hstalls
      · simp [hfree, hmem]
      · simpa [Nat.add_assoc] using hfits
  | broken _ text hmem hfits hfails =>
      refine .broken r text ?_ ?_ hfails
      · simp [hfree, hmem]
      · simpa [Nat.add_assoc] using hfits
  | tooLong _ gone hlong hsplit hgone hleft hending =>
      refine .tooLong r (available ++ gone) ?_ ?_ ?_ hleft hending
      · rw [hcut]
        simpa [Nat.add_assoc] using hlong
      · rw [hsplit, List.append_assoc]
      · simp [hfree, hgone]

/-- Reading from slices does what the stream says, however it is cut. -/
theorem readSlices_readsLine (buf : List UInt8) (chunks : List Chunk)
    (hbuf : buf.length ≤ maxBytes) :
    ReadsLine maxBytes ending buf (chunks.map Subtype.val).flatten
      (readSlices maxBytes ending buf chunks).1
      (readSlices maxBytes ending buf chunks).2 := by
  induction chunks generalizing buf with
  | nil =>
      cases ending with
      | eof =>
          have h : ReadsLine maxBytes .eof buf [] (.line (buf ++ []))
              { buffer := [], chunks := [], ending := .eof } :=
            .atEof _ (by simp) (by simpa using hbuf) rfl rfl rfl
          rw [List.append_nil] at h
          exact h
      | stalls => exact .stalled _ (by simp) (by simpa using hbuf) rfl
      | fails text => exact .broken _ text (by simp) (by simpa using hbuf) rfl
  | cons available chunks ih =>
      have hstream : ((available :: chunks).map Subtype.val).flatten =
          available.val ++ (chunks.map Subtype.val).flatten := by
        simp
      rw [hstream]
      by_cases hmem : lf ∈ available.val
      · have hcut := Lines.cut_append_of_mem hmem (chunks.map Subtype.val).flatten
        by_cases hlong : buf.length + (Lines.cut lf available.val).1.length > maxBytes
        · simp only [readSlices, takeLine_of_mem hmem, if_pos hlong]
          refine .tooLong _ [] ?_ ?_ (by simp) ?_ rfl
          · rw [hcut]
            exact hlong
          · simp [Reader.stream]
          · simp [Reader.stream, available.property]
        · simp only [readSlices, takeLine_of_mem hmem, if_neg hlong]
          have hline : (Lines.cut lf available.val).1 =
              (Lines.cut lf (available.val ++ (chunks.map Subtype.val).flatten)).1 := by
            rw [hcut]
          rw [hline] at hlong ⊢
          refine .line _ (List.mem_append_left _ hmem) (by omega) ?_ rfl
          rw [hcut]
          rfl
      · by_cases hlong : buf.length + available.val.length > maxBytes
        · simp only [readSlices, takeLine_of_not_mem hmem, if_pos hlong]
          refine .tooLong _ [] ?_ ?_ (by simp) ?_ rfl
          · rw [Lines.cut_append_of_not_mem hmem, List.length_append]
            omega
          · simp [Reader.stream]
          · simp [Reader.stream, available.property]
        · simp only [readSlices, takeLine_of_not_mem hmem, if_neg hlong]
          refine (ih (buf ++ available.val) ?_).shift hmem
          rw [List.length_append]
          omega

/-- **Reading a line** does what the stream says, however it is cut into reads. -/
theorem Reader.readsLine (r : Reader) (maxBytes : Nat) :
    ReadsLine maxBytes r.ending [] r.stream (r.readLineLimitedBytes maxBytes).1
      (r.readLineLimitedBytes maxBytes).2 := by
  rw [← r.slices_flatten]
  exact readSlices_readsLine [] r.slices (Nat.zero_le maxBytes)

end Slices

end Smtp
end ChimneyPost
