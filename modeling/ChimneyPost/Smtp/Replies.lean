import ChimneyPost.Smtp.Session
import ChimneyPost.Text.Replies

/-!
# What a client reads

The bytes a session writes, read by a client that knows no more than the form of a reply and
which codes may follow which: a greeting, one reply to each command, and after 354 one more
when the block has ended.

In every session the client reads the replies that were given, wherever the bytes break off,
and stands where the server does (`replies_understood`).
-/

namespace ChimneyPost
namespace Smtp

open Replies (Answer Client)

/-! ## The replies as a client reads them -/

/-- The text of a reply without its code, line by line. -/
def Reply.texts (maxMessageSize : Nat) : Reply → List Str
  | .greeting => ["chimney-post ESMTP".toList]
  | .lineTooLong => ["Line too long".toList]
  | .bye => ["Bye".toList]
  | .helo => ["chimney-post".toList]
  | .ehlo => ["chimney-post".toList, "SIZE ".toList ++ natToStr maxMessageSize]
  | .ok => ["OK".toList]
  | .mailSyntax => ["Syntax error in MAIL FROM".toList]
  | .rcptSyntax => ["Syntax error in RCPT TO".toList]
  | .badSequence => ["Bad sequence of commands".toList]
  | .startData => ["End data with <CR><LF>.<CR><LF>".toList]
  | .sizeExceeded => ["Message size exceeded".toList]
  | .localError => ["Requested action aborted: local error in processing".toList]
  | .notImplemented => ["Command not implemented".toList]

def Reply.answer (maxMessageSize : Nat) (reply : Reply) : Answer where
  code := reply.code
  texts := reply.texts maxMessageSize

/-- Only the reply to `EHLO` depends on the server. -/
theorem Reply.text_of_ne_ehlo {reply : Reply} (h : reply ≠ .ehlo) (maxMessageSize : Nat) :
    reply.text maxMessageSize = reply.text 0 ∧
      reply.answer maxMessageSize = reply.answer 0 := by
  cases reply with
  | ehlo => exact absurd rfl h
  | _ => exact ⟨rfl, rfl⟩

/-- The bytes the server writes are a reply in form. -/
theorem Reply.render_answer (maxMessageSize : Nat) (reply : Reply) :
    (reply.answer maxMessageSize).render = reply.text maxMessageSize := by
  by_cases hehlo : reply = .ehlo
  · subst hehlo
    have hcode : natToStr Reply.ehlo.code = "250".toList := by decide
    have hrender : ∀ (code : Nat) (first last : Str), Replies.renderLines code [first, last] =
        (natToStr code ++ '-' :: (first ++ ['\r'])) ++
          '\n' :: ((natToStr code ++ ' ' :: (last ++ ['\r'])) ++ ['\n']) :=
      fun _ _ _ => rfl
    have htexts : Reply.ehlo.texts maxMessageSize =
        ["chimney-post".toList, "SIZE ".toList ++ natToStr maxMessageSize] := rfl
    have htext : Reply.ehlo.text maxMessageSize = "250-chimney-post\r\n250 SIZE ".toList ++
        natToStr maxMessageSize ++ "\r\n".toList := rfl
    rw [htext, Answer.render, Reply.answer, htexts, hrender, hcode]
    simp
  · obtain ⟨htext, hanswer⟩ := Reply.text_of_ne_ehlo hehlo maxMessageSize
    rw [htext, hanswer]
    cases reply with
    | ehlo => exact absurd rfl hehlo
    | _ => decide

/-- A code has three digits. -/
theorem Reply.code_length (reply : Reply) : (natToStr reply.code).length = 3 := by
  cases reply with
  | _ => decide

theorem Reply.answer_wellFormed (maxMessageSize : Nat) (reply : Reply) :
    (reply.answer maxMessageSize).WellFormed := by
  refine ⟨reply.code_length, ?_, ?_⟩
  · cases reply with
    | _ => exact List.cons_ne_nil _ _
  · cases reply with
    | ehlo =>
        refine List.forall_mem_cons.mpr ⟨by decide, List.forall_mem_singleton.mpr ?_⟩
        intro hmem
        rcases List.mem_append.mp hmem with hmem | hmem
        · exact absurd hmem (by decide)
        · exact Replies.newline_not_mem_natToStr _ hmem
    | _ => exact List.forall_mem_singleton.mpr (by decide)

/-- The size limit a client is told of, if the reply has one. -/
def sizeLimit (a : Answer) : Option Nat :=
  a.texts.findSome? fun text =>
    (stripPrefix "SIZE ".toList text).map fun digits => Nat.ofDigitChars 10 digits 0

/-- Only the reply to `EHLO` tells of a limit, and it is the one the server keeps. -/
theorem Reply.sizeLimit_answer (maxMessageSize : Nat) (reply : Reply) :
    sizeLimit (reply.answer maxMessageSize) = if reply = .ehlo then some maxMessageSize else none := by
  cases reply with
  | ehlo =>
      have hstrip : stripPrefix "SIZE ".toList ("SIZE ".toList ++ natToStr maxMessageSize) =
          some (natToStr maxMessageSize) := by
        rw [stripPrefix, if_pos (List.isPrefixOf_iff_prefix.mpr (List.prefix_append _ _)),
          List.drop_left]
      have hfirst : stripPrefix "SIZE ".toList "chimney-post".toList = none := by
        decide
      rw [sizeLimit, Reply.answer, Reply.texts, List.findSome?_cons, hfirst, Option.map_none]
      dsimp only
      rw [List.findSome?_cons, hstrip, Option.map_some, Replies.ofDigitChars_natToStr]
      rfl
  | _ => rfl

/-! ## The protocol of the replies -/

/-- Where a client is. -/
inductive Phase where
  /-- the greeting is still to come -/
  | connecting
  /-- each reply is to a command -/
  | ready
  /-- the block is being sent -/
  | sending
  | over
deriving DecidableEq, Repr

/-- The codes a client accepts. -/
def Phase.next : Phase → Nat → Option Phase
  | .connecting, code => if code = 220 then some .ready else none
  | .ready, code =>
      if code = 354 then some .sending
      else if code = 221 ∨ code = 500 then some .over
      else if code ∈ [250, 501, 502, 503] then some .ready
      else none
  | .sending, code => if code ∈ [250, 451, 552] then some .ready else none
  | .over, _ => none

/-- The reply that is written, if one is. -/
def SessionEvent.reply : SessionEvent → Option Reply
  | .greeting => some .greeting
  | .command _ reply => some reply
  | .lineTooLong => some .lineTooLong
  | .answer reply => some reply
  | _ => none

def replies (es : List SessionEvent) : List Reply :=
  es.filterMap SessionEvent.reply

/-- The bytes a session writes. -/
def written (maxMessageSize : Nat) (es : List SessionEvent) : List UInt8 :=
  (replies es).flatMap fun reply => utf8 (reply.text maxMessageSize)

theorem written_eq_render (maxMessageSize : Nat) (es : List SessionEvent) :
    written maxMessageSize es =
      utf8 (((replies es).map (Reply.answer maxMessageSize)).flatMap Answer.render) := by
  rw [written, List.flatMap_map]
  induction replies es with
  | nil => rfl
  | cons reply replies ih =>
      rw [List.flatMap_cons, List.flatMap_cons, utf8_append, ih, Reply.render_answer]

/-- The client stands where the session does. -/
structure InStep (phase : Phase) (c : Conversation) : Prop where
  ready : c.session.isSome = true → phase = .ready
  unanswered : phase = .sending → ∃ error, c.events.getLast? = some (.closed (some error))

/-- The client accepts what is written, and is in step afterwards. -/
def Accepted (start : Phase) (c : Conversation) : Prop :=
  ∃ phase, Replay.replay Phase.next start ((replies c.events).map Reply.code) = some phase ∧
    InStep phase c

section Turns

variable {server : Server} {result : Except ChimneyError Int} {s : Session} {line : Str}

theorem accepted_of_ready {c : Conversation}
    (h : Replay.replay Phase.next .ready ((replies c.events).map Reply.code) = some .ready) :
    Accepted .ready c :=
  ⟨.ready, h, fun _ => rfl, fun hsending => (by cases hsending)⟩

theorem accepted_of_over {c : Conversation}
    (h : Replay.replay Phase.next .ready ((replies c.events).map Reply.code) = some .over)
    (hsession : c.session = none) : Accepted .ready c := by
  refine ⟨.over, h, ?_, fun hsending => (by cases hsending)⟩
  rw [hsession]
  exact fun hsome => (by cases hsome)

/-- A command that is answered and no more. -/
theorem reply_accepted {reply : Reply} (h : reply.code ∈ [250, 501, 502, 503]) (line : Str)
    (s : Session) : Accepted .ready (Server.reply line reply s) := by
  refine accepted_of_ready ?_
  have hnext : Phase.next .ready reply.code = some .ready := by
    have hdata : reply.code ≠ 354 := fun heq => absurd (heq ▸ h) (by decide)
    have hover : ¬(reply.code = 221 ∨ reply.code = 500) := by
      rintro (heq | heq)
      · exact absurd (heq ▸ h) (by decide)
      · exact absurd (heq ▸ h) (by decide)
    rw [Phase.next, if_neg hdata, if_neg hover, if_pos h]
  exact Replay.replay_cons_eq_some.mpr ⟨.ready, hnext, rfl⟩

/-- After 354 the block is answered, unless the connection breaks. -/
theorem receive_accepted : Accepted .ready (server.receive result line s) := by
  rw [Server.receive.eq_def]
  split
  · cases result with
    | ok id => exact accepted_of_ready rfl
    | error error => exact accepted_of_ready rfl
  · exact accepted_of_ready rfl
  · exact ⟨.sending, rfl, fun hsome => (by cases hsome), fun _ => ⟨_, rfl⟩⟩

theorem interpret_accepted : Accepted .ready (server.interpret result line s) := by
  rw [Server.interpret]
  split_ifs with hquit hhelo hehlo hrset hnoop hmail hrcpt hdata haccepts
  · exact accepted_of_over rfl rfl
  · exact reply_accepted (by decide) _ _
  · exact reply_accepted (by decide) _ _
  · exact reply_accepted (by decide) _ _
  · exact reply_accepted (by decide) _ _
  · cases parseMailFrom server.validateEmail line with
    | some addr => exact reply_accepted (by decide) _ _
    | none => exact reply_accepted (by decide) _ _
  · cases parseRcptTo server.validateEmail line with
    | some addr => exact reply_accepted (by decide) _ _
    | none => exact reply_accepted (by decide) _ _
  · exact receive_accepted
  · exact reply_accepted (by decide) _ _
  · exact reply_accepted (by decide) _ _

/-- One turn is accepted by a client that has read all before it. -/
theorem pass_accepted (server : Server) (result : Except ChimneyError Int) (s : Session) :
    Accepted .ready (server.pass result s) := by
  rw [Server.pass]
  split
  · exact accepted_of_over rfl rfl
  · exact accepted_of_ready rfl
  · exact accepted_of_ready rfl
  · dsimp only
    split_ifs
    · exact accepted_of_ready rfl
    · exact accepted_of_ready rfl
    · exact interpret_accepted

theorem replies_append (es fs : List SessionEvent) :
    replies (es ++ fs) = replies es ++ replies fs :=
  List.filterMap_append

/-- A client accepts all of a session. -/
theorem converse_accepted {reader : Reader} {results : List (Except ChimneyError Int)}
    {c : Conversation} (h : server.converse reader results = some c) :
    Accepted .connecting c := by
  refine Replay.replay_invariant (I := fun _ c => Accepted .connecting c) ?_ ?_ h
  · exact ⟨.ready, rfl, fun _ => rfl, fun hsending => (by cases hsending)⟩
  · rintro _ c result c' _ ⟨phase, hbefore, hstep⟩ hturn
    obtain ⟨s, hs, rfl⟩ := step_eq_some.mp hturn
    have hready : phase = .ready := hstep.ready (by rw [hs]; rfl)
    obtain ⟨after, hafter, hend⟩ := pass_accepted server result s
    refine ⟨after, ?_, hend.ready, ?_⟩
    · dsimp only
      rw [replies_append, List.map_append]
      exact Replay.replay_append_eq_some.mpr ⟨.ready, hready ▸ hbefore, hafter⟩
    · intro hsending
      obtain ⟨error, hlast⟩ := hend.unanswered hsending
      exact ⟨error, by rw [List.getLast?_append, hlast]; rfl⟩

end Turns

/-- A client that reads the replies. -/
abbrev readReplies (bytes : List UInt8) : Option (Client Phase) :=
  Replay.replay (Client.take Phase.next) (Client.fresh .connecting) bytes

/-- **The replies are understood**: a client that reads what a session writes reads the
replies that were given, in order and none besides.  While the session goes on it is ready
for the next command; it is left waiting for the reply to a block only when the connection
has failed.  Each `EHLO` tells it the size limit, and wherever the bytes break off it has read
no other replies. -/
theorem replies_understood {server : Server} {reader : Reader}
    {results : List (Except ChimneyError Int)} {c : Conversation}
    (h : server.converse reader results = some c) :
    ∃ client, readReplies (written server.maxMessageSize c.events) = some client ∧
      client.answers = (replies c.events).map (Reply.answer server.maxMessageSize) ∧
      (c.session.isSome = true → client.phase = .ready) ∧
      (client.phase = .sending →
        ∃ error, c.events.getLast? = some (.closed (some error))) ∧
      client.answers.map sizeLimit =
        (replies c.events).map
          (fun reply => if reply = .ehlo then some server.maxMessageSize else none) ∧
      ∀ front, front <+: written server.maxMessageSize c.events →
        ∃ cut, readReplies front = some cut ∧ cut.answers <+: client.answers := by
  obtain ⟨phase, hcodes, hinstep⟩ := converse_accepted h
  have hread : readReplies (written server.maxMessageSize c.events) = some
      { phase := phase
        answers := (replies c.events).map (Reply.answer server.maxMessageSize)
        pending := none
        line := [] } := by
    have hwell : ∀ a ∈ (replies c.events).map (Reply.answer server.maxMessageSize),
        a.WellFormed := by
      intro a ha
      obtain ⟨reply, _, rfl⟩ := List.mem_map.mp ha
      exact reply.answer_wellFormed server.maxMessageSize
    have hphase : Replay.replay Phase.next .connecting
        (((replies c.events).map (Reply.answer server.maxMessageSize)).map Answer.code) =
          some phase := by
      rw [List.map_map]
      exact hcodes
    rw [written_eq_render]
    exact Replies.replay_take_render (k := Client.fresh Phase.connecting) hwell rfl rfl hphase
  refine ⟨_, hread, rfl, hinstep.ready, hinstep.unanswered, ?_, ?_⟩
  · rw [List.map_map]
    exact List.map_congr_left fun reply _ => reply.sizeLimit_answer server.maxMessageSize
  · intro front hfront
    exact Replies.replay_take_prefix hfront hread

/-- A client that greets and leaves has been told the limit. -/
theorem farewell_understood :
    ∃ client, readReplies
        (written 20 [.greeting, .command "EHLO a".toList .ehlo, .command "QUIT".toList .bye,
          .closed none]) = some client ∧
      client.answers.map sizeLimit = [none, some 20, none] := by
  have hconverse : smallServer.converse (Reader.ofText "EHLO a\r\nQUIT\r\n") [.ok 0, .ok 0] = some
      { events := [.greeting, .command "EHLO a".toList .ehlo, .command "QUIT".toList .bye,
          .closed none]
        session := none } := by
    decide +kernel
  obtain ⟨client, hread, _, _, _, hlimits, _⟩ := replies_understood hconverse
  exact ⟨client, hread, hlimits⟩

end Smtp
end ChimneyPost
