import ChimneyPost.Smtp.Envelope
import ChimneyPost.Smtp.Reference
import ChimneyPost.Smtp.Session
import ChimneyPost.Smtp.Transparency
import ChimneyPost.Text.Encoding

/-!
# A client that keeps to the protocol

A client greets, hands over any number of messages and leaves.  It may send ESMTP
parameters, addresses in any script and bodies of any octets, and it need not wait for the
replies: what it sends may arrive in any reads.

Every message is taken as it was sent and passed to the store once, in order, and answered
by what the store said (`conforming_client_served`).  The bodies are those the server reads
as they were meant: no bare line feed with a dot after it that could be taken for the end.
-/

namespace ChimneyPost
namespace Smtp

/-! ## What the client sends -/

/-- An address in brackets, with what follows it. -/
structure Path where
  addr : Str
  params : Str

/-- What a client hands over in one transaction. -/
structure Mail where
  sender : Path
  recipients : List Path
  body : List UInt8

def Path.text (p : Path) : Str :=
  '<' :: (p.addr ++ '>' :: p.params)

def ehloLine (domain : Str) : Str :=
  "EHLO ".toList ++ domain

def mailLine (p : Path) : Str :=
  "MAIL FROM:".toList ++ p.text

def rcptLine (p : Path) : Str :=
  "RCPT TO:".toList ++ p.text

/-- A command line as it is sent. -/
def commandWire (line : Str) : List UInt8 :=
  utf8 line ++ [cr, lf]

def Mail.wire (m : Mail) : List UInt8 :=
  commandWire (mailLine m.sender) ++ (m.recipients.flatMap (fun p => commandWire (rcptLine p)) ++
    (commandWire "DATA".toList ++ (stuff m.body ++ endMarker)))

/-- A line that can be sent as one command. -/
structure Sendable (line : Str) : Prop where
  unreturned : '\r' ∉ line
  unbroken : '\n' ∉ line
  fits : (commandWire line).length ≤ maxCommandLineBytes

/-- A message the server has to take. -/
structure Mail.Conforms (server : Server) (m : Mail) : Prop where
  sender : m.sender.addr = [] ∨ server.validateEmail m.sender.addr = true
  senderClosed : '>' ∉ m.sender.addr
  senderLine : Sendable (mailLine m.sender)
  recipients : m.recipients ≠ []
  recipient : ∀ p ∈ m.recipients, p.addr ≠ [] ∧ server.validateEmail p.addr = true
  recipientClosed : ∀ p ∈ m.recipients, '>' ∉ p.addr
  recipientLine : ∀ p ∈ m.recipients, Sendable (rcptLine p)
  complete : m.body = [] ∨ [cr, lf] <:+ m.body
  noBareDot : NoBareDot m.body
  size : m.body.length ≤ server.maxMessageSize

/-! ## One command line -/

section Reading

variable {s : Session} {r : Reader} {line : Str} {rest : List UInt8}

theorem cut_append_lf {front : List UInt8} (hfree : lf ∉ front) (rest : List UInt8) :
    Lines.cut lf (front ++ lf :: rest) = (front ++ [lf], rest) := by
  rw [Lines.cut_append_of_not_mem hfree]
  simp [Lines.cut]

theorem lf_not_mem_utf8 (h : '\n' ∉ line) : lf ∉ utf8 line ++ [cr] := by
  intro hmem
  rcases List.mem_append.mp hmem with hmem | hmem
  · exact h (newline_mem_utf8 hmem)
  · cases List.mem_singleton.mp hmem

/-- A command line is read whole, whatever the reads, and the rest is left. -/
theorem read_command (h : Sendable line) (hstream : r.stream = commandWire line ++ rest) :
    ∃ r' : Reader, r.readLineLimited maxCommandLineBytes =
      (.text (commandWire line).length (line ++ ['\r', '\n']), r') ∧ r'.stream = rest := by
  have hwire : r.stream = (utf8 line ++ [cr]) ++ lf :: rest := by
    rw [hstream, commandWire]
    simp
  have hcut := cut_append_lf (lf_not_mem_utf8 h.unbroken) rest
  have hmem : lf ∈ r.stream := by
    rw [hwire]
    simp
  have hline : (Lines.cut lf r.stream).1 = commandWire line := by
    rw [hwire, hcut, commandWire]
    simp
  have hdecode : fromUtf8 (commandWire line) = some (line ++ ['\r', '\n']) := by
    have hend : commandWire line = utf8 (line ++ ['\r', '\n']) := by
      rw [commandWire, utf8_append]
      rfl
    rw [hend, fromUtf8_utf8]
  have hread := r.readsLine maxCommandLineBytes
  rw [Reader.readLineLimited]
  generalize r.readLineLimitedBytes maxCommandLineBytes = result at hread ⊢
  obtain ⟨result, r'⟩ := result
  dsimp only at hread ⊢
  cases hread with
  | line _ _ hfits hrest hending =>
      rw [hwire, hcut] at hrest
      rw [List.nil_append, hline]
      dsimp only
      rw [hdecode]
      exact ⟨r', rfl, hrest⟩
  | atEof _ hnot => exact absurd hmem hnot
  | stalled _ hnot => exact absurd hmem hnot
  | broken _ _ hnot => exact absurd hmem hnot
  | tooLong _ gone hlong hsplit hfree hleft =>
      rw [hline] at hlong
      have hfits := h.fits
      simp only [List.length_nil] at hlong
      omega

theorem trimEndMatches_crlf (h : Sendable line) :
    trimEndMatches ['\r', '\n'] (line ++ ['\r', '\n']) = line := by
  have hsplit : line ++ ['\r', '\n'] = (line ++ ['\r']) ++ ['\n'] := by
    simp
  have hkeep : List.rdropWhile (fun c => ['\r', '\n'].contains c) line = line := by
    rw [List.rdropWhile_eq_self_iff]
    intro hne hlast
    have hmem := List.getLast_mem hne
    rw [List.contains_iff_mem, List.mem_cons, List.mem_singleton] at hlast
    rcases hlast with hlast | hlast
    · exact h.unreturned (hlast ▸ hmem)
    · exact h.unbroken (hlast ▸ hmem)
  rw [trimEndMatches, hsplit, List.rdropWhile_concat_pos _ _ _ (by decide),
    List.rdropWhile_concat_pos _ _ _ (by decide)]
  exact hkeep

/-- The turn for a command line. -/
theorem pass_command (server : Server) (h : Sendable line) (hne : line ≠ [])
    (hstream : s.reader.stream = commandWire line ++ rest) :
    ∃ r' : Reader, r'.stream = rest ∧ ∀ result,
      server.pass result s = server.interpret result line { s with reader := r' } := by
  obtain ⟨r', hread, hrest⟩ := read_command h hstream
  refine ⟨r', hrest, fun result => ?_⟩
  rw [Server.pass, hread]
  dsimp only
  rw [trimEndMatches_crlf h, if_neg (by simp [commandWire]), if_neg hne]

/-- The block is read as the client meant it. -/
theorem readData_stuff (maxSize : Nat) {body : List UInt8}
    (hends : body = [] ∨ [cr, lf] <:+ body) (hbare : NoBareDot body)
    (hsize : body.length ≤ maxSize) (hstream : r.stream = stuff body ++ (endMarker ++ rest)) :
    (r.readData maxSize).1 = .ok (fromUtf8Lossy body) ∧ (r.readData maxSize).2.stream = rest := by
  have hlast : body = [] ∨ body.getLast? = some lf := by
    rcases hends with rfl | ⟨front, rfl⟩
    · exact Or.inl rfl
    · exact Or.inr (by simp)
  obtain ⟨left, hafter, hreads⟩ := readsRest true body rest hlast
  obtain ⟨rfl, hcontent⟩ := hreads.agrees ⟨fun hfalse => (by cases hfalse), hbare⟩
  rw [← stuff, ← hstream] at hafter hcontent
  have hread := readData_of_fits hafter (hcontent ▸ hsize)
  rw [hcontent] at hread
  exact hread

end Reading

/-! ## What the commands say -/

section Commands

variable {server : Server} {s : Session} (result : Except ChimneyError Int)

/-- The keyword of a line that begins with an uppercase word. -/
theorem keyword_append (verb : Str) (hne : verb ≠ [])
    (hsolid : verb.all (fun c => !isWhitespace c) = true) (hupper : toUppercase verb = verb)
    (rest : Str) : keyword (verb ++ ' ' :: rest) = verb := by
  have hword : IsWord verb := by
    refine ⟨hne, fun c hc => ?_⟩
    simpa using List.all_eq_true.mp hsolid c hc
  have hblank : isWhitespace ' ' = true := by decide
  rw [keyword, toUppercase_append, hupper, toUppercase_cons, charToUppercase_of_isWhitespace hblank,
    List.singleton_append, splitWhitespace_word_cons hword hblank]
  rfl

/-- A path after a colon is an address. -/
theorem address_path {p : Path} (hclosed : '>' ∉ p.addr) : Address (trim p.text) p.addr := by
  have hopen : trimStart p.text = p.text := trimStart_of_head (by decide) _
  have htext : p.text = ('<' :: (p.addr ++ ['>'])) ++ p.params := by
    rw [Path.text]
    simp
  have hfront : trimEnd ('<' :: (p.addr ++ ['>'])) = '<' :: (p.addr ++ ['>']) := by
    rw [← List.cons_append]
    exact List.rdropWhile_concat_neg _ _ _ (by decide)
  rw [trim, hopen, htext]
  by_cases hblank : trimEnd p.params = []
  · rw [trimEnd_append_blank (trimEnd_eq_nil_iff.mp hblank), hfront]
    exact .path hclosed
  · rw [trimEnd_append hblank, List.cons_append, List.append_assoc]
    exact .path hclosed

theorem blank_gap : (∀ c ∈ [' '], isWhitespace c = true) ∧ ∀ c ∈ ([] : Str), isWhitespace c = true := by
  exact ⟨List.forall_mem_singleton.mpr (by decide), List.forall_mem_nil _⟩

theorem parseMailFrom_mailLine {p : Path} (hclosed : '>' ∉ p.addr)
    (hvalid : p.addr = [] ∨ server.validateEmail p.addr = true) :
    parseMailFrom server.validateEmail (mailLine p) = some p.addr := by
  refine parseMailFrom_eq_some_iff.mpr ⟨?_, hvalid⟩
  refine ⟨"MAIL".toList, [' '], "FROM".toList, [], p.text, rfl, spells_mail_iff.mpr (Or.inl rfl),
    (spells_iff (by decide)).mpr rfl, blank_gap.1, blank_gap.2, address_path hclosed⟩

theorem parseRcptTo_rcptLine {p : Path} (hclosed : '>' ∉ p.addr)
    (hvalid : p.addr ≠ [] ∧ server.validateEmail p.addr = true) :
    parseRcptTo server.validateEmail (rcptLine p) = some p.addr := by
  refine parseRcptTo_iff.mpr ⟨?_, hvalid⟩
  exact ⟨"RCPT".toList, [' '], "TO".toList, [], p.text, rfl, rfl, rfl, blank_gap.1, blank_gap.2,
    address_path hclosed⟩

theorem interpret_ehlo (domain : Str) :
    server.interpret result (ehloLine domain) s = Server.reply (ehloLine domain) .ehlo s := by
  have hkeyword : keyword (ehloLine domain) = "EHLO".toList :=
    keyword_append "EHLO".toList (by decide) (by decide) (by decide) domain
  rw [Server.interpret, hkeyword, if_neg (by decide), if_neg (by decide), if_pos rfl]

theorem interpret_mail {p : Path} (hclosed : '>' ∉ p.addr)
    (hvalid : p.addr = [] ∨ server.validateEmail p.addr = true) :
    server.interpret result (mailLine p) s =
      Server.reply (mailLine p) .ok { s with fromAddr := some p.addr } := by
  have hkeyword : keyword (mailLine p) = "MAIL".toList :=
    keyword_append "MAIL".toList (by decide) (by decide) (by decide) ("FROM:".toList ++ p.text)
  rw [Server.interpret, hkeyword, if_neg (by decide), if_neg (by decide), if_neg (by decide),
    if_neg (by decide), if_neg (by decide), if_pos rfl, parseMailFrom_mailLine hclosed hvalid]

theorem interpret_rcpt {p : Path} (hclosed : '>' ∉ p.addr)
    (hvalid : p.addr ≠ [] ∧ server.validateEmail p.addr = true) :
    server.interpret result (rcptLine p) s =
      Server.reply (rcptLine p) .ok { s with recipients := s.recipients ++ [p.addr] } := by
  have hkeyword : keyword (rcptLine p) = "RCPT".toList :=
    keyword_append "RCPT".toList (by decide) (by decide) (by decide) ("TO:".toList ++ p.text)
  rw [Server.interpret, hkeyword, if_neg (by decide), if_neg (by decide), if_neg (by decide),
    if_neg (by decide), if_neg (by decide), if_neg (by decide), if_pos rfl,
    parseRcptTo_rcptLine hclosed hvalid]

end Commands

/-! ## The conversation -/

/-- The conversation so far, the envelope and what is still to be read. -/
structure Stands (c : Conversation) (es : List SessionEvent) (fromAddr : Option Str)
    (recipients : List Str) (stream : List UInt8) : Prop where
  events : c.events = es
  session : ∃ r : Reader, c.session = some ⟨r, fromAddr, recipients⟩ ∧ r.stream = stream

/-- A message and what `store.enqueue` returns for it. -/
structure Handover where
  mail : Mail
  result : Except ChimneyError Int

/-- The reply to a block, by what the store said. -/
def answerTo : Except ChimneyError Int → Reply
  | .ok _ => .ok
  | .error _ => .localError

/-- What a session passes to the store for a message. -/
def Mail.message (server : Server) (m : Mail) : Queue.Message :=
  parseData server.parseMail (some m.sender.addr) (m.recipients.map Path.addr)
    (fromUtf8Lossy m.body)

/-- What happens while a message is handed over. -/
def Handover.events (server : Server) (h : Handover) : List SessionEvent :=
  .command (mailLine h.mail.sender) .ok ::
    (h.mail.recipients.map (fun p => .command (rcptLine p) .ok) ++
      [.command "DATA".toList .startData, .block (fromUtf8Lossy h.mail.body),
        .enqueue (h.mail.message server) h.result, .answer (answerTo h.result)])

/-- One turn for each command; only that of `DATA` looks at the store. -/
def Handover.turns (h : Handover) : List (Except ChimneyError Int) :=
  h.result :: (List.replicate h.mail.recipients.length h.result ++ [h.result])

section Conversations

variable {server : Server} {c : Conversation} {es : List SessionEvent} {fromAddr : Option Str}
  {addrs : List Str} {line : Str} {rest : List UInt8} (result : Except ChimneyError Int)

/-- The turn of a conversation for a command line. -/
theorem Stands.turn (server : Server) (h : Stands c es fromAddr addrs (commandWire line ++ rest))
    (hsend : Sendable line) (hne : line ≠ []) :
    ∃ r : Reader, r.stream = rest ∧ ∀ result, server.step c result =
      some
        { events := es ++ (server.interpret result line ⟨r, fromAddr, addrs⟩).events
          session := (server.interpret result line ⟨r, fromAddr, addrs⟩).session } := by
  obtain ⟨r, hsession, hstream⟩ := h.session
  obtain ⟨r', hrest, hpass⟩ := pass_command server (s := ⟨r, fromAddr, addrs⟩) hsend hne
    hstream
  refine ⟨r', hrest, fun result => ?_⟩
  refine step_eq_some.mpr ⟨_, hsession, ?_⟩
  rw [hpass, h.events]

/-- A command with one reply. -/
theorem Stands.reply (h : Stands c es fromAddr addrs (commandWire line ++ rest))
    (hsend : Sendable line) (hne : line ≠ []) {reply : Reply} {fromAddr' : Option Str}
    {addrs' : List Str}
    (hinterpret : ∀ r : Reader, server.interpret result line ⟨r, fromAddr, addrs⟩ =
      Server.reply line reply ⟨r, fromAddr', addrs'⟩) :
    ∃ c', server.step c result = some c' ∧
      Stands c' (es ++ [.command line reply]) fromAddr' addrs' rest := by
  obtain ⟨r, hrest, hstep⟩ := h.turn server hsend hne
  refine ⟨_, hstep result, ?_⟩
  rw [hinterpret r]
  exact ⟨rfl, r, rfl, hrest⟩

/-- All recipients are accepted, in order. -/
theorem Stands.recipients {paths : List Path}
    (hpaths : ∀ p ∈ paths, (p.addr ≠ [] ∧ server.validateEmail p.addr = true) ∧
      '>' ∉ p.addr ∧ Sendable (rcptLine p))
    (h : Stands c es fromAddr addrs
      (paths.flatMap (fun p => commandWire (rcptLine p)) ++ rest)) :
    ∃ c', Replay.replay server.step c (List.replicate paths.length result) = some c' ∧
      Stands c' (es ++ paths.map (fun p => .command (rcptLine p) .ok)) fromAddr
        (addrs ++ paths.map Path.addr) rest := by
  induction paths generalizing c es addrs with
  | nil =>
      refine ⟨c, rfl, ?_⟩
      rw [List.map_nil, List.map_nil, List.append_nil, List.append_nil]
      exact h
  | cons p paths ih =>
      obtain ⟨hvalid, hclosed, hsend⟩ := hpaths p List.mem_cons_self
      rw [List.flatMap_cons, List.append_assoc] at h
      have hinterpret : ∀ r : Reader, server.interpret result (rcptLine p) ⟨r, fromAddr, addrs⟩ =
          Server.reply (rcptLine p) .ok ⟨r, fromAddr, addrs ++ [p.addr]⟩ :=
        fun r => interpret_rcpt result hclosed hvalid
      obtain ⟨c₁, hstep, h₁⟩ := h.reply result hsend (List.cons_ne_nil _ _) hinterpret
      obtain ⟨c₂, hrun, h₂⟩ := ih (fun q hq => hpaths q (List.mem_cons_of_mem _ hq)) h₁
      refine ⟨c₂, Replay.replay_cons_eq_some.mpr ⟨c₁, hstep, hrun⟩, ?_⟩
      rw [List.append_assoc, List.append_assoc, List.singleton_append, List.singleton_append] at h₂
      exact h₂

theorem sendable_data : Sendable "DATA".toList := by
  exact ⟨by decide, by decide, by decide⟩

/-- The block is received, passed to the store and answered. -/
theorem Stands.data {m : Mail} (hm : m.Conforms server)
    (h : Stands c es (some m.sender.addr) (m.recipients.map Path.addr)
      (commandWire "DATA".toList ++ (stuff m.body ++ (endMarker ++ rest)))) :
    ∃ c', server.step c result = some c' ∧
      Stands c' (es ++ [.command "DATA".toList .startData, .block (fromUtf8Lossy m.body),
        .enqueue (m.message server) result, .answer (answerTo result)]) none [] rest := by
  obtain ⟨r, hstream, hstep⟩ := h.turn server sendable_data (by decide)
  obtain ⟨hdata, hrest⟩ := readData_stuff server.maxMessageSize hm.complete
    hm.noBareDot hm.size hstream
  have haccepts : (⟨r, some m.sender.addr, m.recipients.map Path.addr⟩ : Session).acceptsData =
      true := by
    rw [Session.acceptsData, Option.isSome_some, Bool.true_and, Bool.not_eq_true',
      List.isEmpty_eq_false_iff]
    exact fun hnil => hm.recipients (List.map_eq_nil_iff.mp hnil)
  refine ⟨_, hstep result, ?_⟩
  rw [interpret_data (by decide) haccepts, Server.receive.eq_def]
  generalize r.readData server.maxMessageSize = read at hdata hrest ⊢
  obtain ⟨data, reader⟩ := read
  dsimp only at hdata hrest ⊢
  obtain rfl := hdata
  refine ⟨?_, reader, rfl, hrest⟩
  cases result with
  | ok id => rfl
  | error error => rfl

/-- **One message** is handed over. -/
theorem Stands.mail {m : Mail} (hm : m.Conforms server)
    (h : Stands c es fromAddr [] (m.wire ++ rest)) :
    ∃ c', Replay.replay server.step c (Handover.turns ⟨m, result⟩) = some c' ∧
      Stands c' (es ++ Handover.events server ⟨m, result⟩) none [] rest := by
  rw [Mail.wire, List.append_assoc] at h
  have hinterpret : ∀ r : Reader, server.interpret result (mailLine m.sender) ⟨r, fromAddr, []⟩ =
      Server.reply (mailLine m.sender) .ok ⟨r, some m.sender.addr, []⟩ :=
    fun r => interpret_mail result hm.senderClosed hm.sender
  obtain ⟨c₁, hstep₁, h₁⟩ := h.reply result hm.senderLine (List.cons_ne_nil _ _) hinterpret
  rw [List.append_assoc] at h₁
  obtain ⟨c₂, hrun₂, h₂⟩ := Stands.recipients result (fun p hp =>
    ⟨hm.recipient p hp, hm.recipientClosed p hp, hm.recipientLine p hp⟩) h₁
  rw [List.nil_append, List.append_assoc, List.append_assoc, List.append_assoc] at h₂
  obtain ⟨c₃, hstep₃, h₃⟩ := Stands.data result hm h₂
  refine ⟨c₃, Replay.replay_cons_eq_some.mpr ⟨c₁, hstep₁,
    Replay.replay_concat_eq_some.mpr ⟨c₂, hrun₂, hstep₃⟩⟩, ?_⟩
  rw [Handover.events]
  simpa using h₃

/-- All messages are handed over, one after the other. -/
theorem Stands.mails {handovers : List Handover}
    (hconform : ∀ h ∈ handovers, h.mail.Conforms server)
    (h : Stands c es none [] (handovers.flatMap (fun h => h.mail.wire) ++ rest)) :
    ∃ c', Replay.replay server.step c (handovers.flatMap Handover.turns) = some c' ∧
      Stands c' (es ++ handovers.flatMap (Handover.events server)) none [] rest := by
  induction handovers generalizing c es with
  | nil =>
      refine ⟨c, rfl, ?_⟩
      rw [List.flatMap_nil, List.append_nil]
      exact h
  | cons first handovers ih =>
      rw [List.flatMap_cons, List.append_assoc] at h
      obtain ⟨c₁, hrun₁, h₁⟩ := Stands.mail first.result
        (hconform first List.mem_cons_self) h
      obtain ⟨c₂, hrun₂, h₂⟩ := ih (fun q hq => hconform q (List.mem_cons_of_mem _ hq)) h₁
      refine ⟨c₂, ?_, ?_⟩
      · rw [List.flatMap_cons]
        exact Replay.replay_append_eq_some.mpr ⟨c₁, hrun₁, hrun₂⟩
      · rw [List.flatMap_cons, ← List.append_assoc]
        exact h₂

end Conversations

theorem sendable_quit : Sendable "QUIT".toList := by
  exact ⟨by decide, by decide, by decide⟩

theorem interpret_quit (server : Server) (result : Except ChimneyError Int) (s : Session) :
    server.interpret result "QUIT".toList s =
      { events := [.command "QUIT".toList .bye, .closed none], session := none } := by
  rw [Server.interpret, if_pos (by decide)]

/-- **A client that keeps to the protocol is served**: whatever the reads, each of its
messages is passed to the store as it was sent, once and in order, each command is accepted,
each message is answered by what the store said of it, and the session ends in peace. -/
theorem conforming_client_served (server : Server) (domain : Str) (handovers : List Handover)
    (reader : Reader) (rest : List UInt8) (idle : Except ChimneyError Int)
    (hdomain : Sendable (ehloLine domain))
    (hconform : ∀ h ∈ handovers, h.mail.Conforms server)
    (hstream : reader.stream = commandWire (ehloLine domain) ++
      (handovers.flatMap (fun h => h.mail.wire) ++ (commandWire "QUIT".toList ++ rest))) :
    server.converse reader (idle :: (handovers.flatMap Handover.turns ++ [idle])) =
      some
        { events := .greeting :: .command (ehloLine domain) .ehlo ::
            (handovers.flatMap (Handover.events server) ++
              [.command "QUIT".toList .bye, .closed none])
          session := none } := by
  have hstart : Stands (Server.start reader) [.greeting] none []
      (commandWire (ehloLine domain) ++
        (handovers.flatMap (fun h => h.mail.wire) ++ (commandWire "QUIT".toList ++ rest))) :=
    ⟨rfl, reader, rfl, hstream⟩
  have hinterpret : ∀ r : Reader, server.interpret idle (ehloLine domain) ⟨r, none, []⟩ =
      Server.reply (ehloLine domain) .ehlo ⟨r, none, []⟩ :=
    fun r => interpret_ehlo idle domain
  obtain ⟨c₁, hstep₁, h₁⟩ := hstart.reply idle hdomain (List.cons_ne_nil _ _) hinterpret
  obtain ⟨c₂, hrun₂, h₂⟩ := h₁.mails hconform
  obtain ⟨r, _, hstep₃⟩ := h₂.turn server sendable_quit (by decide)
  have hquit := hstep₃ idle
  rw [interpret_quit] at hquit
  rw [Server.converse, Replay.replay_cons_eq_some]
  refine ⟨c₁, hstep₁, Replay.replay_concat_eq_some.mpr ⟨c₂, hrun₂, ?_⟩⟩
  rw [hquit]
  simp

/-- A notice to two people, with ESMTP parameters and a stuffed dot. -/
def notice : Mail where
  sender := { addr := [], params := " SIZE=8".toList }
  recipients :=
    [{ addr := "ops@x".toList, params := [] }, { addr := "ö@x".toList, params := [] }]
  body := wire ".up\r\n"

theorem notice_conforms : notice.Conforms smallServer := by
  constructor
  · exact Or.inl rfl
  · decide
  · exact ⟨by decide, by decide, by decide⟩
  · decide
  · decide
  · decide
  · intro p hp
    rcases List.mem_cons.mp hp with rfl | hp
    · exact ⟨by decide, by decide, by decide⟩
    · rw [List.mem_singleton.mp hp]
      exact ⟨by decide, by decide, by decide⟩
  · exact Or.inr ⟨wire ".up", rfl⟩
  · have hbody : notice.body = wire ".up\r" ++ lf :: [] := rfl
    rw [hbody, noBareDot_line (by decide)]
    exact ⟨by decide, noBareDot_nil⟩
  · decide

/-- The same notice twice, in one read, the second time when the outbox is full. -/
theorem notice_served :
    ∃ c, smallServer.converse
      (bufferedReader (commandWire (ehloLine ['a']) ++
        ((notice.wire ++ notice.wire) ++ (commandWire "QUIT".toList ++ []))))
      (.ok 0 :: ([Handover.mk notice (.ok 1), ⟨notice, .error .queueFull⟩].flatMap
        Handover.turns ++ [.ok 0])) = some c ∧
      c.events.count (.answer .ok) = 1 ∧ c.events.count (.answer .localError) = 1 := by
  have hserved := conforming_client_served smallServer ['a']
    [⟨notice, .ok 1⟩, ⟨notice, .error .queueFull⟩]
    (bufferedReader (commandWire (ehloLine ['a']) ++
      ((notice.wire ++ notice.wire) ++ (commandWire "QUIT".toList ++ []))))
    [] (.ok 0) ⟨by decide, by decide, by decide⟩
    (List.forall_mem_cons.mpr ⟨notice_conforms, List.forall_mem_singleton.mpr notice_conforms⟩)
    (by rw [bufferedReader_stream]; simp)
  exact ⟨_, hserved, rfl, rfl⟩

end Smtp
end ChimneyPost
