import ChimneyPost.Lib.Replay
import ChimneyPost.Smtp.Data
import ChimneyPost.Smtp.Parser

/-!
# A session

`handle_connection` of `src/smtp/server.rs`.  `Server.pass` is one turn of its
command loop; it tells what happens in it and the session that goes on, if any.
The result that `store.enqueue` would return in a turn is an input of the turn.

A session can be cut off at any `await`: by its deadline, or because a reply cannot
be written.  What has happened up to then is a prefix of the events of a run.
-/

namespace ChimneyPost
namespace Smtp

/-- What a session uses apart from its connection. -/
structure Server where
  /-- `smtp.max_message_size` -/
  maxMessageSize : Nat
  /-- `validate_email` of the `validator` crate -/
  validateEmail : Str → Bool
  /-- `mailparse::parse_mail` -/
  parseMail : Str → Option ParsedMail

/-- The replies of the server. -/
inductive Reply where
  | greeting
  | lineTooLong
  | bye
  | helo
  | ehlo
  | ok
  | mailSyntax
  | rcptSyntax
  | badSequence
  | startData
  | sizeExceeded
  | localError
  | notImplemented
deriving DecidableEq, Repr

/-- The bytes of a reply. -/
def Reply.text (maxMessageSize : Nat) : Reply → Str
  | .greeting => "220 chimney-post ESMTP\r\n".toList
  | .lineTooLong => "500 Line too long\r\n".toList
  | .bye => "221 Bye\r\n".toList
  | .helo => "250 chimney-post\r\n".toList
  | .ehlo => "250-chimney-post\r\n250 SIZE ".toList ++
      natToStr maxMessageSize ++ "\r\n".toList
  | .ok => "250 OK\r\n".toList
  | .mailSyntax => "501 Syntax error in MAIL FROM\r\n".toList
  | .rcptSyntax => "501 Syntax error in RCPT TO\r\n".toList
  | .badSequence => "503 Bad sequence of commands\r\n".toList
  | .startData => "354 End data with <CR><LF>.<CR><LF>\r\n".toList
  | .sizeExceeded => "552 Message size exceeded\r\n".toList
  | .localError => "451 Requested action aborted: local error in processing\r\n".toList
  | .notImplemented => "502 Command not implemented\r\n".toList

def Reply.code : Reply → Nat
  | .greeting => 220
  | .lineTooLong => 500
  | .bye => 221
  | .helo => 250
  | .ehlo => 250
  | .ok => 250
  | .mailSyntax => 501
  | .rcptSyntax => 501
  | .badSequence => 503
  | .startData => 354
  | .sizeExceeded => 552
  | .localError => 451
  | .notImplemented => 502

/-- Every reply begins with its code. -/
theorem Reply.code_prefix_text (maxMessageSize : Nat) (reply : Reply) :
    natToStr reply.code <+: reply.text maxMessageSize := by
  cases reply with
  | ehlo =>
      unfold Reply.text
      rw [List.append_assoc]
      exact List.IsPrefix.trans (by decide) (List.prefix_append _ _)
  | _ => exact List.isPrefixOf_iff_prefix.mp rfl

/-- What happens in a session, in order. -/
inductive SessionEvent where
  /-- the greeting has been written -/
  | greeting
  | blank
  /-- a command line and the reply to it -/
  | command (line : Str) (reply : Reply)
  /-- `500`: the command line does not end within the limit -/
  | lineTooLong
  /-- a `DATA` block that ends in its terminator line, decoded -/
  | block (data : Str)
  /-- `store.enqueue` is called and, unless the session is cut off, returns -/
  | enqueue (message : Queue.Message) (result : Except ChimneyError Int)
  /-- the reply to a `DATA` block -/
  | answer (reply : Reply)
  /-- `handle_connection` returns -/
  | closed (error : Option ChimneyError)
deriving DecidableEq

/-- The local variables of `handle_connection`. -/
structure Session where
  reader : Reader
  fromAddr : Option Str
  recipients : List Str
deriving DecidableEq

/-- Events so far and the session that goes on, if it does. -/
structure Conversation where
  events : List SessionEvent
  session : Option Session
deriving DecidableEq

/-- `MAX_COMMAND_LINE_BYTES`. -/
def maxCommandLineBytes : Nat := 4096

/-- The first word of the uppercased line. -/
def keyword (line : Str) : Str :=
  (splitWhitespace (toUppercase line)).head?.getD []

/-- A `DATA` command that is not answered 503. -/
def Session.acceptsData (s : Session) : Bool :=
  s.fromAddr.isSome && !s.recipients.isEmpty

namespace Server

variable (server : Server)

/-- The `DATA` branch after its 354 reply. -/
def receive (result : Except ChimneyError Int) (line : Str) (s : Session) : Conversation :=
  match s.reader.readData server.maxMessageSize with
  | (.ok data, reader) =>
      let message := parseData server.parseMail s.fromAddr s.recipients data
      let reply : Reply :=
        match result with
        | .ok _ => .ok
        | .error _ => .localError
      { events :=
          [.command line .startData, .block data, .enqueue message result, .answer reply]
        session := some { reader := reader, fromAddr := none, recipients := [] } }
  | (.error .smtpSizeExceeded, reader) =>
      { events := [.command line .startData, .answer .sizeExceeded]
        session := some { reader := reader, fromAddr := none, recipients := [] } }
  | (.error error, _) =>
      { events := [.command line .startData, .closed (some error)], session := none }

/-- The reply to a command and the session after it. -/
def reply (line : Str) (reply : Reply) (s : Session) : Conversation where
  events := [.command line reply]
  session := some s

/-- What the loop does with a line that is not blank. -/
def interpret (result : Except ChimneyError Int) (line : Str) (s : Session) :
    Conversation :=
  let cmd := keyword line
  if cmd = "QUIT".toList then
    { events := [.command line .bye, .closed none], session := none }
  else if cmd = "HELO".toList then
    reply line .helo s
  else if cmd = "EHLO".toList then
    reply line .ehlo s
  else if cmd = "RSET".toList then
    reply line .ok { s with fromAddr := none, recipients := [] }
  else if cmd = "NOOP".toList then
    reply line .ok s
  else if cmd = "MAIL".toList then
    match parseMailFrom server.validateEmail line with
    | some addr => reply line .ok { s with fromAddr := some addr }
    | none => reply line .mailSyntax s
  else if cmd = "RCPT".toList then
    match parseRcptTo server.validateEmail line with
    | some addr => reply line .ok { s with recipients := s.recipients ++ [addr] }
    | none => reply line .rcptSyntax s
  else if cmd = "DATA".toList then
    if s.acceptsData then server.receive result line s
    else reply line .badSequence s
  else
    reply line .notImplemented s

/-- One turn of the command loop. -/
def pass (result : Except ChimneyError Int) (s : Session) : Conversation :=
  match s.reader.readLineLimited maxCommandLineBytes with
  | (.failed .smtpLineTooLong, _) =>
      { events := [.lineTooLong, .closed none], session := none }
  | (.failed error, _) => { events := [.closed (some error)], session := none }
  | (.timedOut, _) =>
      { events := [.closed (some (.smtp "SMTP session timed out".toList))]
        session := none }
  | (.text bytes buffer, reader) =>
      let line := trimEndMatches ['\r', '\n'] buffer
      if bytes = 0 then
        { events := [.closed none], session := none }
      else if line = [] then
        { events := [.blank], session := some { s with reader := reader } }
      else
        server.interpret result line { s with reader := reader }

/-- A session that has just been greeted. -/
def start (reader : Reader) : Conversation where
  events := [.greeting]
  session := some { reader := reader, fromAddr := none, recipients := [] }

/-- The next turn of a conversation that goes on. -/
def step (c : Conversation) (result : Except ChimneyError Int) : Option Conversation :=
  c.session.map fun s =>
    { events := c.events ++ (server.pass result s).events
      session := (server.pass result s).session }

/-- The conversation after one turn for each of `results`. -/
def converse (reader : Reader) (results : List (Except ChimneyError Int)) :
    Option Conversation :=
  Replay.replay server.step (start reader) results

end Server

/-- Where the block begins, if the next command is a `DATA` that is answered 354. -/
def Session.dataReader (s : Session) : Option Reader :=
  match s.reader.readLineLimited maxCommandLineBytes with
  | (.text _ buffer, reader) =>
      if keyword (trimEndMatches ['\r', '\n'] buffer) = "DATA".toList ∧
          s.acceptsData = true then
        some reader
      else
        none
  | _ => none

/-! ## The turns of the loop -/

/-- The command line `s` reads next, and the session that has read it. -/
structure Reads (s : Session) (line : Str) (s' : Session) : Prop where
  read : ∃ bytes buffer, s.reader.readLineLimited maxCommandLineBytes =
    (.text bytes buffer, s'.reader) ∧ line = trimEndMatches ['\r', '\n'] buffer
  fromAddr : s'.fromAddr = s.fromAddr
  recipients : s'.recipients = s.recipients

/-- Events that neither touch the envelope nor deal with a block. -/
def SessionEvent.isClosing : SessionEvent → Bool
  | .lineTooLong => true
  | .command _ .bye => true
  | .command _ .startData => true
  | .closed _ => true
  | _ => false

/-- The commands that leave the envelope alone, with their replies. -/
inductive Neutral (line : Str) : Reply → Prop
  | helo (h : keyword line = "HELO".toList) : Neutral line .helo
  | ehlo (h : keyword line = "EHLO".toList) : Neutral line .ehlo
  | noop (h : keyword line = "NOOP".toList) : Neutral line .ok
  | mailSyntax : Neutral line .mailSyntax
  | rcptSyntax : Neutral line .rcptSyntax
  | badSequence (h : keyword line = "DATA".toList) : Neutral line .badSequence
  | notImplemented : Neutral line .notImplemented

/-- What one turn can do. -/
inductive Passes (server : Server) (result : Except ChimneyError Int) (s : Session) :
    Conversation → Prop
  | ended (events : List SessionEvent) (hclosing : ∀ e ∈ events, e.isClosing = true) :
      Passes server result s { events := events, session := none }
  | blank (reader : Reader) :
      Passes server result s
        { events := [.blank], session := some { s with reader := reader } }
  | neutral (line : Str) (reply : Reply) (s' : Session) (hreads : Reads s line s')
      (hneutral : Neutral line reply) :
      Passes server result s
        { events := [.command line reply], session := some s' }
  | reset (line : Str) (s' : Session) (hreads : Reads s line s')
      (hkeyword : keyword line = "RSET".toList) :
      Passes server result s
        { events := [.command line .ok]
          session := some { s' with fromAddr := none, recipients := [] } }
  | mail (line addr : Str) (s' : Session) (hreads : Reads s line s')
      (hkeyword : keyword line = "MAIL".toList)
      (haddr : parseMailFrom server.validateEmail line = some addr) :
      Passes server result s
        { events := [.command line .ok]
          session := some { s' with fromAddr := some addr } }
  | rcpt (line addr : Str) (s' : Session) (hreads : Reads s line s')
      (hkeyword : keyword line = "RCPT".toList)
      (haddr : parseRcptTo server.validateEmail line = some addr) :
      Passes server result s
        { events := [.command line .ok]
          session := some { s' with recipients := s'.recipients ++ [addr] } }
  | stored (line data : Str) (s' : Session) (reader : Reader) (reply : Reply)
      (hreads : Reads s line s') (hkeyword : keyword line = "DATA".toList)
      (haccepts : s'.acceptsData = true)
      (hdata : s'.reader.readData server.maxMessageSize = (.ok data, reader))
      (hreply : (reply = .ok ∧ ∃ id, result = .ok id) ∨
        (reply = .localError ∧ ∃ error, result = .error error)) :
      Passes server result s
        { events :=
            [.command line .startData, .block data,
              .enqueue (parseData server.parseMail s'.fromAddr s'.recipients data) result,
              .answer reply]
          session := some { reader := reader, fromAddr := none, recipients := [] } }
  | oversized (line : Str) (s' : Session) (reader : Reader)
      (hreads : Reads s line s') (hkeyword : keyword line = "DATA".toList)
      (haccepts : s'.acceptsData = true)
      (hdata : s'.reader.readData server.maxMessageSize = (.error .smtpSizeExceeded, reader)) :
      Passes server result s
        { events := [.command line .startData, .answer .sizeExceeded]
          session := some { reader := reader, fromAddr := none, recipients := [] } }

section Turns

variable {server : Server} {result : Except ChimneyError Int} {s s' : Session} {line : Str}

theorem closing_pair {e e' : SessionEvent} (h : e.isClosing = true)
    (h' : e'.isClosing = true) : ∀ x ∈ [e, e'], x.isClosing = true := by
  exact List.forall_mem_cons.mpr ⟨h, List.forall_mem_singleton.mpr h'⟩

theorem receive_passes (hreads : Reads s line s') (hkeyword : keyword line = "DATA".toList)
    (haccepts : s'.acceptsData = true) :
    Passes server result s (server.receive result line s') := by
  unfold Server.receive
  split
  · next data reader hdata =>
      refine .stored line data s' reader _ hreads hkeyword haccepts hdata ?_
      cases result with
      | ok id => exact Or.inl ⟨rfl, id, rfl⟩
      | error error => exact Or.inr ⟨rfl, error, rfl⟩
  · next reader hdata =>
      exact .oversized line s' reader hreads hkeyword haccepts hdata
  · exact .ended _ (closing_pair rfl rfl)

/-- A `DATA` command with an envelope goes on with the block. -/
theorem interpret_data (hkeyword : keyword line = "DATA".toList)
    (haccepts : s.acceptsData = true) :
    server.interpret result line s = server.receive result line s := by
  rw [Server.interpret, hkeyword, if_neg (by decide), if_neg (by decide), if_neg (by decide),
    if_neg (by decide), if_neg (by decide), if_neg (by decide), if_neg (by decide),
    if_pos rfl, if_pos haccepts]

theorem interpret_passes (hreads : Reads s line s') :
    Passes server result s (server.interpret result line s') := by
  rw [Server.interpret]
  split_ifs with hquit hhelo hehlo hrset hnoop hmail hrcpt hdata haccepts
  · exact .ended _ (closing_pair rfl rfl)
  · exact .neutral line .helo s' hreads (.helo hhelo)
  · exact .neutral line .ehlo s' hreads (.ehlo hehlo)
  · exact .reset line s' hreads hrset
  · exact .neutral line .ok s' hreads (.noop hnoop)
  · cases haddr : parseMailFrom server.validateEmail line with
    | some addr => exact .mail line addr s' hreads hmail haddr
    | none => exact .neutral line .mailSyntax s' hreads .mailSyntax
  · cases haddr : parseRcptTo server.validateEmail line with
    | some addr => exact .rcpt line addr s' hreads hrcpt haddr
    | none => exact .neutral line .rcptSyntax s' hreads .rcptSyntax
  · exact receive_passes hreads hdata haccepts
  · exact .neutral line .badSequence s' hreads (.badSequence hdata)
  · exact .neutral line .notImplemented s' hreads .notImplemented

/-- **One turn** does one of these things. -/
theorem pass_passes (server : Server) (result : Except ChimneyError Int) (s : Session) :
    Passes server result s (server.pass result s) := by
  rw [Server.pass]
  split
  · exact .ended _ (closing_pair rfl rfl)
  · exact .ended _ (List.forall_mem_singleton.mpr rfl)
  · exact .ended _ (List.forall_mem_singleton.mpr rfl)
  · next bytes buffer reader hread =>
      dsimp only
      split_ifs with hzero hblank
      · exact .ended _ (List.forall_mem_singleton.mpr rfl)
      · exact .blank reader
      · exact interpret_passes ⟨⟨bytes, buffer, hread, rfl⟩, rfl, rfl⟩

theorem Reads.acceptsData (hreads : Reads s line s') :
    s'.acceptsData = s.acceptsData := by
  rw [Session.acceptsData, Session.acceptsData, hreads.fromAddr, hreads.recipients]

theorem Reads.dataReader (hreads : Reads s line s')
    (hkeyword : keyword line = "DATA".toList) (haccepts : s'.acceptsData = true) :
    s.dataReader = some s'.reader := by
  obtain ⟨bytes, buffer, hread, hline⟩ := hreads.read
  rw [hreads.acceptsData] at haccepts
  rw [Session.dataReader, hread]
  dsimp only
  rw [if_pos ⟨hline ▸ hkeyword, haccepts⟩]

/-- An empty read decodes to an empty line. -/
theorem text_eq_nil_of_zero {r r' : Reader} {maxBytes : Nat} {text : Str}
    (h : r.readLineLimited maxBytes = (.text 0 text, r')) : text = [] := by
  rw [Reader.readLineLimited] at h
  split at h
  · next raw reader hraw =>
      split at h
      · next decoded hdecoded =>
          obtain ⟨hlength, rfl⟩ := ReadText.text.inj (Prod.mk.inj h).1
          rw [List.length_eq_zero_iff.mp hlength] at hdecoded
          exact (Option.some.inj hdecoded).symm
      · cases h
  · cases h
  · cases h

/-- A turn that is answered 354 goes on with the block. -/
theorem pass_of_dataReader (server : Server) (result : Except ChimneyError Int)
    {reader : Reader} (h : s.dataReader = some reader) :
    ∃ line, Reads s line { s with reader := reader } ∧ keyword line = "DATA".toList ∧
      s.acceptsData = true ∧
      server.pass result s = server.receive result line { s with reader := reader } := by
  rw [Session.dataReader] at h
  split at h
  · next bytes buffer reader' hread =>
      split_ifs at h with hdata
      obtain rfl := Option.some.inj h
      obtain ⟨hkeyword, haccepts⟩ := hdata
      have hzero : bytes ≠ 0 := by
        rintro rfl
        rw [text_eq_nil_of_zero hread] at hkeyword
        exact absurd hkeyword (by decide)
      have hblank : trimEndMatches ['\r', '\n'] buffer ≠ [] := by
        intro hblank
        rw [hblank] at hkeyword
        exact absurd hkeyword (by decide)
      have hreceives : ({ s with reader := reader' } : Session).acceptsData = true := haccepts
      refine ⟨_, ⟨⟨bytes, buffer, hread, rfl⟩, rfl, rfl⟩, hkeyword, haccepts, ?_⟩
      rw [Server.pass, hread]
      dsimp only
      rw [if_neg hzero, if_neg hblank, interpret_data hkeyword hreceives]
  · cases h

/-- A turn of a conversation is a turn of its session. -/
theorem step_eq_some {c c' : Conversation} :
    server.step c result = some c' ↔
      ∃ s, c.session = some s ∧ c' =
        { events := c.events ++ (server.pass result s).events
          session := (server.pass result s).session } := by
  rw [Server.step, Option.map_eq_some_iff]
  constructor
  · rintro ⟨s, hs, rfl⟩
    exact ⟨s, hs, rfl⟩
  · rintro ⟨s, hs, rfl⟩
    exact ⟨s, hs, rfl⟩

end Turns

/-! ## A server for examples -/

/-- ASCII text as it is sent. -/
def wire (text : String) : List UInt8 :=
  text.toList.map (fun c => c.toUInt8)

/-- A client that sends `text` and closes. -/
def Reader.ofText (text : String) : Reader where
  buffer := wire text
  chunks := []
  ending := .eof

/-- What `mailparse` makes of a message without headers. -/
def bareMail (data : Str) : ParsedMail :=
  .mk
    { subject := none
      mimetype := "text/plain".toList
      ctypeParams := []
      disposition := .inline
      dispositionParams := []
      body := some (data.dropWhile (fun c => c = '\r' ∨ c = '\n')) }
    []

/-- A server that takes 20 bytes, and any address with an `@` for an email. -/
def smallServer : Server where
  maxMessageSize := 20
  validateEmail := fun addr => addr.contains '@'
  parseMail := fun data => some (bareMail data)

end Smtp
end ChimneyPost
