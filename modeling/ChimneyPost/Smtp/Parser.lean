import ChimneyPost.Queue.Store
import ChimneyPost.Smtp.Mime

/-!
# From envelope and data to a message

`src/smtp/parser.rs`, and the envelope parsers of `src/smtp/server.rs`.  Whether an
address is a valid email is decided by the `validator` crate, the parameter
`validateEmail` here.
-/

namespace ChimneyPost
namespace Smtp

/-! ## The raw split -/

/-- The variables of the loop of `extract_subject_and_body`. -/
structure RawSplit where
  subject : Option Str
  inHeaders : Bool
  bodyLines : List Str
  lastHeader : Option Str
deriving DecidableEq

/-- One line of `extract_subject_and_body`. -/
def RawSplit.line (s : RawSplit) (line : Str) : RawSplit :=
  if s.inHeaders then
    if trim line = [] then
      { s with inHeaders := false }
    else if [' '].isPrefixOf line || ['\t'].isPrefixOf line then
      -- a folded line continues the subject and is skipped elsewhere
      if s.lastHeader = some "subject".toList then
        { s with subject := s.subject.map (fun existing => existing ++ ' ' :: trim line) }
      else
        s
    else
      let name := toAsciiLowercase (trim (line.takeWhile (fun c => c ≠ ':')))
      let value := trim ((afterFirst ':' line).getD [])
      { s with
        subject := if name = "subject".toList then some value else s.subject
        lastHeader := some name }
  else
    { s with bodyLines := s.bodyLines ++ [line] }

def extractSubjectAndBody (data : Str) : Option Str × Str :=
  let start : RawSplit :=
    { subject := none, inHeaders := true, bodyLines := [], lastHeader := none }
  let done := (lines data).foldl RawSplit.line start
  (done.subject, join ['\n'] done.bodyLines)

/-- `parse_data`: the null sender becomes no sender. -/
def parseData (parseMail : Str → Option ParsedMail) (fromAddr : Option Str)
    (toAddrs : List Str) (data : Str) : Queue.Message :=
  let subjectAndBody :=
    match parse parseMail data with
    | some parsed => (parsed.subject, parsed.body)
    | none => extractSubjectAndBody data
  { fromAddr := fromAddr.filter (fun addr => addr ≠ [])
    toAddrs := toAddrs
    subject := subjectAndBody.1
    body := subjectAndBody.2 }

@[simp] theorem parseData_fromAddr (parseMail : Str → Option ParsedMail)
    (fromAddr : Option Str) (toAddrs : List Str) (data : Str) :
    (parseData parseMail fromAddr toAddrs data).fromAddr =
      fromAddr.filter (fun addr => addr ≠ []) := by
  rfl

@[simp] theorem parseData_toAddrs (parseMail : Str → Option ParsedMail)
    (fromAddr : Option Str) (toAddrs : List Str) (data : Str) :
    (parseData parseMail fromAddr toAddrs data).toAddrs = toAddrs := by
  rfl

/-! ## The envelope -/

/-- `extract_address_after_colon`: a path in brackets or the first word. -/
def extractAddressAfterColon (line : Str) : Option Str :=
  match afterFirst ':' line with
  | none => none
  | some rest =>
      match stripPrefix ['<'] (trim rest) with
      | some path => beforeFirst '>' path
      | none => (splitWhitespace (trim rest)).head?

/-- The address of a line `verb preposition:address`, keywords in any case. -/
def envelopeAddress (verb preposition line : Str) : Option Str :=
  match stripPrefix verb (toUppercase line) with
  | none => none
  | some rest =>
      match stripPrefix preposition (trimStart rest) with
      | none => none
      | some rest =>
          if [':'].isPrefixOf (trimStart rest) then extractAddressAfterColon line
          else none

/-- `parse_mail_from`: the empty address is the null sender. -/
def parseMailFrom (validateEmail : Str → Bool) (line : Str) : Option Str :=
  (envelopeAddress "MAIL".toList "FROM".toList line).filter
    (fun addr => addr = [] || validateEmail addr)

/-- `parse_rcpt_to`. -/
def parseRcptTo (validateEmail : Str → Bool) (line : Str) : Option Str :=
  (envelopeAddress "RCPT".toList "TO".toList line).filter
    (fun addr => addr ≠ [] && validateEmail addr)

/-- An address is cut out of the line. -/
theorem mem_of_mem_extractAddressAfterColon {line addr : Str} {c : Char}
    (h : extractAddressAfterColon line = some addr) (hc : c ∈ addr) : c ∈ line := by
  unfold extractAddressAfterColon at h
  cases hrest : afterFirst ':' line with
  | none =>
      rw [hrest] at h
      cases h
  | some rest =>
      rw [hrest] at h
      apply mem_of_mem_afterFirst hrest
      apply mem_of_mem_trim
      cases hpath : stripPrefix ['<'] (trim rest) with
      | some path =>
          simp only [hpath] at h
          exact mem_of_mem_stripPrefix hpath (mem_of_mem_beforeFirst h hc)
      | none =>
          simp only [hpath] at h
          have hword := List.mem_of_head? h
          exact mem_of_mem_splitWhitespace hword hc

theorem mem_of_mem_envelopeAddress {verb preposition line addr : Str} {c : Char}
    (h : envelopeAddress verb preposition line = some addr) (hc : c ∈ addr) :
    c ∈ line := by
  unfold envelopeAddress at h
  split at h
  · cases h
  · split at h
    · cases h
    · split_ifs at h
      exact mem_of_mem_extractAddressAfterColon h hc

/-- A recipient is a non-empty piece of the line. -/
theorem parseRcptTo_eq_some {validateEmail : Str → Bool} {line addr : Str}
    (h : parseRcptTo validateEmail line = some addr) :
    addr ≠ [] ∧ ∀ c ∈ addr, c ∈ line := by
  unfold parseRcptTo at h
  rw [Option.filter_eq_some_iff] at h
  obtain ⟨haddr, hvalid⟩ := h
  rw [Bool.and_eq_true, decide_eq_true_eq] at hvalid
  refine ⟨hvalid.1, ?_⟩
  intro c hc
  exact mem_of_mem_envelopeAddress haddr hc

end Smtp
end ChimneyPost
