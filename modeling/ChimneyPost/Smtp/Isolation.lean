import ChimneyPost.Smtp.Transcript

/-!
# Isolation of mail transactions

A mail transaction begins with an accepted `MAIL FROM`, and a greeting, `RSET` or the
end of a `DATA` block leaves none open.  The recipients of a message should be those
of its own transaction.  The server clears the recipients on `RSET` and after `DATA`
only, so this holds exactly when no accepted recipient is followed by `MAIL FROM`,
`HELO` or `EHLO` before the message (`isolated_iff_fresh`).
-/

namespace ChimneyPost
namespace Smtp

open Queue (Message)

namespace SessionEvent

/-- A greeting by the client. -/
def isHello : SessionEvent → Bool
  | .command line _ => keyword line = "HELO".toList || keyword line = "EHLO".toList
  | _ => false

/-- A `MAIL FROM` that is accepted. -/
def isMail (validateEmail : Str → Bool) (e : SessionEvent) : Bool :=
  (e.sender validateEmail).isSome

/-- What begins or ends a transaction. -/
def isBoundary (validateEmail : Str → Bool) (e : SessionEvent) : Bool :=
  e.isMail validateEmail || e.isHello || e.isReset

end SessionEvent

/-- The message belongs to the transaction that is open after the events `pre`. -/
structure Isolated (validateEmail : Str → Bool) (pre : List SessionEvent)
    (message : Message) : Prop where
  /-- its sender is the one accepted last -/
  sender : message.fromAddr =
    (pre.filterMap (SessionEvent.sender validateEmail)).getLast?.filter (fun a => a ≠ [])
  /-- its recipients are those accepted since then -/
  sinceMail : message.toAddrs =
    (History.since (SessionEvent.isMail validateEmail) pre).filterMap
      (SessionEvent.recipient validateEmail)
  /-- none of them was accepted before any other boundary -/
  sinceBoundary : message.toAddrs =
    (History.since (SessionEvent.isBoundary validateEmail) pre).filterMap
      (SessionEvent.recipient validateEmail)

/-- Since the envelope was cleared, no recipient precedes a `MAIL FROM` or greeting. -/
def FreshEnvelope (validateEmail : Str → Bool) (pre : List SessionEvent) : Prop :=
  ∀ before e after, History.since SessionEvent.isReset pre = before ++ e :: after →
    (e.isMail validateEmail || e.isHello) = true →
    before.filterMap (SessionEvent.recipient validateEmail) = []

/-- Every message a conversation enqueues is isolated. -/
def EveryMessageIsolated (server : Server) (c : Conversation) : Prop :=
  ∀ pre message result post, c.events = pre ++ .enqueue message result :: post →
    Isolated server.validateEmail pre message

/-- Every message a conversation enqueues is preceded by a fresh envelope. -/
def EveryEnvelopeFresh (server : Server) (c : Conversation) : Prop :=
  ∀ pre message result post, c.events = pre ++ .enqueue message result :: post →
    FreshEnvelope server.validateEmail pre

section Isolation

variable {validateEmail : Str → Bool} {pre : List SessionEvent}

/-- A boundary is not a recipient. -/
theorem recipient_of_isBoundary (e : SessionEvent)
    (h : e.isBoundary validateEmail = true) : e.recipient validateEmail = none := by
  cases e with
  | command line reply =>
      cases reply with
      | ok =>
          by_cases hkeyword : keyword line = "RCPT".toList
          · simp only [SessionEvent.isBoundary, SessionEvent.isMail, SessionEvent.sender,
              SessionEvent.isHello, SessionEvent.isReset, hkeyword] at h
            exact absurd h (by simp)
          · simp only [SessionEvent.recipient, if_neg hkeyword]
      | _ => rfl
  | _ => rfl

/-- What was accepted since the last boundary is all that was accepted iff fresh. -/
theorem sinceBoundary_eq_iff :
    (History.since (SessionEvent.isBoundary validateEmail) pre).filterMap
        (SessionEvent.recipient validateEmail) = acceptedRecipients validateEmail pre ↔
      FreshEnvelope validateEmail pre := by
  have hcoarser : ∀ e : SessionEvent, e.isReset = true →
      e.isBoundary validateEmail = true := by
    intro e he
    simp [SessionEvent.isBoundary, he]
  unfold acceptedRecipients
  rw [← History.since_since hcoarser, History.filterMap_since_eq_iff _ recipient_of_isBoundary]
  constructor
  · intro h before e after heq hopen
    exact h before e after heq (by simp [SessionEvent.isBoundary, hopen])
  · intro h before e after heq hboundary
    have hmem : e ∈ History.since SessionEvent.isReset pre := by
      rw [heq]
      simp
    have hreset := History.not_of_mem_since hmem
    unfold SessionEvent.isBoundary at hboundary
    rw [hreset, Bool.or_false] at hboundary
    exact h before e after heq hboundary

/-- The sender accepted last is accepted since the envelope was cleared. -/
theorem acceptedSender_eq_last (h : (acceptedSender validateEmail pre).isSome = true) :
    acceptedSender validateEmail pre =
      (pre.filterMap (SessionEvent.sender validateEmail)).getLast? := by
  obtain ⟨front, hfront⟩ := History.since_suffix SessionEvent.isReset pre
  obtain ⟨addr, haddr⟩ := Option.isSome_iff_exists.mp h
  have hlast : ((History.since SessionEvent.isReset pre).filterMap
      (SessionEvent.sender validateEmail)).getLast? = some addr := haddr
  have hsplit : pre.filterMap (SessionEvent.sender validateEmail) =
      front.filterMap (SessionEvent.sender validateEmail) ++
        (History.since SessionEvent.isReset pre).filterMap
          (SessionEvent.sender validateEmail) := by
    rw [← List.filterMap_append, hfront]
  rw [haddr, hsplit, List.getLast?_append, hlast, Option.some_or]

/-- The last `MAIL FROM` stands between the last boundary and the last reset. -/
theorem sinceMail_between (h : (acceptedSender validateEmail pre).isSome = true) :
    (History.since (SessionEvent.isBoundary validateEmail) pre) <:+
        History.since (SessionEvent.isMail validateEmail) pre ∧
      History.since (SessionEvent.isMail validateEmail) pre <:+
        History.since SessionEvent.isReset pre := by
  constructor
  · have hcoarser : ∀ e : SessionEvent, e.isMail validateEmail = true →
        e.isBoundary validateEmail = true := by
      intro e he
      simp [SessionEvent.isBoundary, he]
    rw [← History.since_since hcoarser pre]
    exact History.since_suffix _ _
  · obtain ⟨addr, haddr⟩ := Option.isSome_iff_exists.mp h
    obtain ⟨e, he, hsender⟩ := List.mem_filterMap.mp (List.mem_of_getLast? haddr)
    exact History.since_suffix_since he (by simp [SessionEvent.isMail, hsender])

/-- A message made of the accepted envelope is isolated iff the envelope is fresh. -/
theorem isolated_iff {message : Message}
    (hsome : (acceptedSender validateEmail pre).isSome = true)
    (hfrom : message.fromAddr =
      (acceptedSender validateEmail pre).filter (fun a => a ≠ []))
    (hto : message.toAddrs = acceptedRecipients validateEmail pre) :
    Isolated validateEmail pre message ↔ FreshEnvelope validateEmail pre := by
  constructor
  · intro h
    rw [← sinceBoundary_eq_iff, ← hto]
    exact h.sinceBoundary.symm
  · intro h
    have hboundary := sinceBoundary_eq_iff.mpr h
    obtain ⟨hlower, hupper⟩ := sinceMail_between hsome
    have hlow := (hlower.filterMap (SessionEvent.recipient validateEmail)).length_le
    have hupp := hupper.filterMap (SessionEvent.recipient validateEmail)
    have hmail : (History.since (SessionEvent.isMail validateEmail) pre).filterMap
        (SessionEvent.recipient validateEmail) = acceptedRecipients validateEmail pre := by
      apply hupp.eq_of_length_le
      rw [hboundary] at hlow
      exact hlow
    constructor
    · rw [hfrom, acceptedSender_eq_last hsome]
    · rw [hto, hmail]
    · rw [hto, hboundary]

end Isolation

/-! ## Sessions -/

section Sessions

variable {server : Server} {c : Conversation} {reader : Reader}
  {results : List (Except ChimneyError Int)}

/--
**Isolation.**  In every run, every message belongs to its own transaction exactly
when, before each message, no recipient that was accepted since the envelope was
cleared is followed by a `MAIL FROM` or a greeting.
-/
theorem isolated_iff_fresh (h : server.converse reader results = some c) :
    EveryMessageIsolated server c ↔ EveryEnvelopeFresh server c := by
  have hpoint : ∀ pre message result post,
      c.events = pre ++ .enqueue message result :: post →
      (Isolated server.validateEmail pre message ↔
        FreshEnvelope server.validateEmail pre) := by
    intro pre message result post heq
    obtain ⟨data, rfl, hsome, _, _⟩ := Server.enqueue_of_converse h heq
    exact isolated_iff hsome (parseData_fromAddr _ _ _ _) (parseData_toAddrs _ _ _ _)
  constructor
  · intro hisolated pre message result post heq
    exact (hpoint pre message result post heq).mp (hisolated pre message result post heq)
  · intro hfresh pre message result post heq
    exact (hpoint pre message result post heq).mpr (hfresh pre message result post heq)

/-- A transaction after an `RSET`. -/
theorem afterReset_isolated_iff_fresh :
    ∃ c, smallServer.converse
        (Reader.ofText "RSET\r\nMAIL FROM:<a@b>\r\nRCPT TO:<c@d>\r\nDATA\r\n\r\nhi\r\n.\r\n")
        (List.replicate 4 (.ok 1)) = some c ∧
      (EveryMessageIsolated smallServer c ↔ EveryEnvelopeFresh smallServer c) := by
  have hrun : smallServer.converse
      (Reader.ofText "RSET\r\nMAIL FROM:<a@b>\r\nRCPT TO:<c@d>\r\nDATA\r\n\r\nhi\r\n.\r\n")
      (List.replicate 4 (.ok 1)) =
        some
          { events :=
              [.greeting, .command "RSET".toList .ok, .command "MAIL FROM:<a@b>".toList .ok,
                .command "RCPT TO:<c@d>".toList .ok, .command "DATA".toList .startData,
                .block "\r\nhi\r\n".toList,
                .enqueue
                  { fromAddr := some "a@b".toList
                    toAddrs := ["c@d".toList]
                    subject := none
                    body := "hi".toList } (.ok 1),
                .answer .ok]
            session := some
              { reader := Reader.ofText "", fromAddr := none, recipients := [] } } := by
    decide +kernel
  exact ⟨_, hrun, isolated_iff_fresh hrun⟩

/-- A transaction is abandoned by a second `MAIL FROM`; its recipient is not. -/
theorem abandonedRecipient_kept :
    ∃ c, smallServer.converse
        (Reader.ofText
          "MAIL FROM:<a@b>\r\nRCPT TO:<c@d>\r\nMAIL FROM:<x@y>\r\nDATA\r\n\r\nhi\r\n.\r\n")
        (List.replicate 4 (.ok 1)) = some c ∧
      ¬ EveryMessageIsolated smallServer c := by
  have hrun : smallServer.converse
      (Reader.ofText
        "MAIL FROM:<a@b>\r\nRCPT TO:<c@d>\r\nMAIL FROM:<x@y>\r\nDATA\r\n\r\nhi\r\n.\r\n")
      (List.replicate 4 (.ok 1)) =
        some
          { events :=
              [.greeting, .command "MAIL FROM:<a@b>".toList .ok,
                .command "RCPT TO:<c@d>".toList .ok, .command "MAIL FROM:<x@y>".toList .ok,
                .command "DATA".toList .startData, .block "\r\nhi\r\n".toList,
                .enqueue
                  { fromAddr := some "x@y".toList
                    toAddrs := ["c@d".toList]
                    subject := none
                    body := "hi".toList } (.ok 1),
                .answer .ok]
            session := some
              { reader := Reader.ofText "", fromAddr := none, recipients := [] } } := by
    decide +kernel
  refine ⟨_, hrun, ?_⟩
  intro h
  -- the recipients accepted since the second `MAIL FROM` are none
  have hisolated := h
    [.greeting, .command "MAIL FROM:<a@b>".toList .ok,
      .command "RCPT TO:<c@d>".toList .ok, .command "MAIL FROM:<x@y>".toList .ok,
      .command "DATA".toList .startData, .block "\r\nhi\r\n".toList] _ _ _ rfl
  exact absurd hisolated.sinceMail (by decide +kernel)

end Sessions

end Smtp
end ChimneyPost
