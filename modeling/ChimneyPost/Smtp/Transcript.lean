import ChimneyPost.Lib.History
import ChimneyPost.Smtp.Session

/-!
# What a session has accepted

The sender and the recipients a client has been promised, read off the commands and
replies of a session alone: those accepted since the last `RSET` and the last reply
to a `DATA` block.  The variables of `handle_connection` hold exactly these
(`Server.envelope_of_converse`), and what is enqueued is made of them
(`Server.enqueue_of_converse`).
-/

namespace ChimneyPost
namespace Smtp

namespace SessionEvent

/-- The envelope is cleared: `RSET`, or the end of a `DATA` block. -/
def isReset : SessionEvent → Bool
  | .command line .ok => keyword line = "RSET".toList
  | .answer _ => true
  | _ => false

/-- The address of an accepted `MAIL FROM`. -/
def sender (validateEmail : Str → Bool) : SessionEvent → Option Str
  | .command line .ok =>
      if keyword line = "MAIL".toList then parseMailFrom validateEmail line else none
  | _ => none

/-- The address of an accepted `RCPT TO`. -/
def recipient (validateEmail : Str → Bool) : SessionEvent → Option Str
  | .command line .ok =>
      if keyword line = "RCPT".toList then parseRcptTo validateEmail line else none
  | _ => none

end SessionEvent

/-- The sender accepted last, since the envelope was cleared. -/
def acceptedSender (validateEmail : Str → Bool) (es : List SessionEvent) : Option Str :=
  ((History.since SessionEvent.isReset es).filterMap
    (SessionEvent.sender validateEmail)).getLast?

/-- All recipients accepted since the envelope was cleared, in order. -/
def acceptedRecipients (validateEmail : Str → Bool) (es : List SessionEvent) : List Str :=
  (History.since SessionEvent.isReset es).filterMap
    (SessionEvent.recipient validateEmail)

section Envelope

variable {validateEmail : Str → Bool} {e : SessionEvent} (es : List SessionEvent)

theorem acceptedSender_of_reset (h : e.isReset = true) :
    acceptedSender validateEmail (es ++ [e]) = none := by
  unfold acceptedSender
  rw [History.since_concat_of_pos es h]
  rfl

theorem acceptedRecipients_of_reset (h : e.isReset = true) :
    acceptedRecipients validateEmail (es ++ [e]) = [] := by
  unfold acceptedRecipients
  rw [History.since_concat_of_pos es h]
  rfl

theorem acceptedSender_concat (h : e.isReset = false) :
    acceptedSender validateEmail (es ++ [e]) =
      (e.sender validateEmail).or (acceptedSender validateEmail es) := by
  unfold acceptedSender
  rw [History.since_concat_of_neg es h, List.filterMap_append]
  cases hsender : e.sender validateEmail with
  | none => simp [hsender]
  | some addr => simp [hsender]

theorem acceptedRecipients_concat (h : e.isReset = false) :
    acceptedRecipients validateEmail (es ++ [e]) =
      acceptedRecipients validateEmail es ++ (e.recipient validateEmail).toList := by
  unfold acceptedRecipients
  rw [History.since_concat_of_neg es h, List.filterMap_append]
  cases hrecipient : e.recipient validateEmail with
  | none => simp [hrecipient]
  | some addr => simp [hrecipient]

/-- The envelope of a session is the one the client has been promised. -/
structure EnvelopeMatches (validateEmail : Str → Bool) (es : List SessionEvent)
    (fromAddr : Option Str) (recipients : List Str) : Prop where
  fromAddr : fromAddr = acceptedSender validateEmail es
  recipients : recipients = acceptedRecipients validateEmail es

variable {es} {fromAddr : Option Str} {recipients : List Str}

/-- An event that neither clears the envelope nor adds to it. -/
theorem EnvelopeMatches.keep (h : EnvelopeMatches validateEmail es fromAddr recipients)
    (hreset : e.isReset = false) (hsender : e.sender validateEmail = none)
    (hrecipient : e.recipient validateEmail = none) :
    EnvelopeMatches validateEmail (es ++ [e]) fromAddr recipients := by
  constructor
  · rw [acceptedSender_concat es hreset, hsender, Option.none_or]
    exact h.fromAddr
  · rw [acceptedRecipients_concat es hreset, hrecipient, Option.toList_none, List.append_nil]
    exact h.recipients

theorem EnvelopeMatches.clear (es : List SessionEvent) (hreset : e.isReset = true) :
    EnvelopeMatches validateEmail (es ++ [e]) none [] := by
  constructor
  · exact (acceptedSender_of_reset es hreset).symm
  · exact (acceptedRecipients_of_reset es hreset).symm

end Envelope

/-! ## The events of one turn -/

/-- A neutral command does not clear the envelope or add to it. -/
theorem Neutral.keeps {line : Str} {reply : Reply} (h : Neutral line reply)
    (validateEmail : Str → Bool) :
    (SessionEvent.command line reply).isReset = false ∧
      (SessionEvent.command line reply).sender validateEmail = none ∧
      (SessionEvent.command line reply).recipient validateEmail = none := by
  cases h with
  | noop hkeyword =>
      simp only [SessionEvent.isReset, SessionEvent.sender, SessionEvent.recipient, hkeyword]
      exact ⟨by decide, rfl, rfl⟩
  | _ => exact ⟨rfl, rfl, rfl⟩

namespace Server

variable {server : Server} {result : Except ChimneyError Int} {s s' : Session}
  {es : List SessionEvent} {c : Conversation}

/-- The session of a conversation has the envelope its events say. -/
def Matches (server : Server) (c : Conversation) : Prop :=
  ∀ s, c.session = some s →
    EnvelopeMatches server.validateEmail c.events s.fromAddr s.recipients

/-- One turn keeps the envelope in step with the events. -/
theorem matches_pass (h : EnvelopeMatches server.validateEmail es s.fromAddr s.recipients)
    (hpass : Passes server result s c) :
    Matches server { events := es ++ c.events, session := c.session } := by
  intro t ht
  cases hpass with
  | ended events hclosing => cases ht
  | blank reader =>
      obtain rfl := Option.some.inj ht
      exact h.keep rfl rfl rfl
  | neutral line reply s' hreads hneutral =>
      obtain rfl := Option.some.inj ht
      obtain ⟨hreset, hsender, hrecipient⟩ := hneutral.keeps server.validateEmail
      rw [hreads.fromAddr, hreads.recipients]
      exact h.keep hreset hsender hrecipient
  | reset line s' hreads hkeyword =>
      obtain rfl := Option.some.inj ht
      exact .clear es (by simp [SessionEvent.isReset, hkeyword])
  | mail line addr s' hreads hkeyword haddr =>
      obtain rfl := Option.some.inj ht
      have hreset : (SessionEvent.command line .ok).isReset = false := by
        simp only [SessionEvent.isReset, hkeyword]
        decide
      have hsender : (SessionEvent.command line .ok).sender server.validateEmail =
          some addr := by
        simp only [SessionEvent.sender, hkeyword, if_true, haddr]
      have hrecipient : (SessionEvent.command line .ok).recipient server.validateEmail =
          none := by
        simp only [SessionEvent.recipient, hkeyword]
        rfl
      constructor
      · rw [acceptedSender_concat es hreset, hsender]
        rfl
      · rw [acceptedRecipients_concat es hreset, hrecipient, Option.toList_none,
          List.append_nil]
        exact hreads.recipients.trans h.recipients
  | rcpt line addr s' hreads hkeyword haddr =>
      obtain rfl := Option.some.inj ht
      have hreset : (SessionEvent.command line .ok).isReset = false := by
        simp only [SessionEvent.isReset, hkeyword]
        decide
      have hsender : (SessionEvent.command line .ok).sender server.validateEmail =
          none := by
        simp only [SessionEvent.sender, hkeyword]
        rfl
      have hrecipient : (SessionEvent.command line .ok).recipient server.validateEmail =
          some addr := by
        simp only [SessionEvent.recipient, hkeyword, if_true, haddr]
      constructor
      · rw [acceptedSender_concat es hreset, hsender, Option.none_or]
        exact hreads.fromAddr.trans h.fromAddr
      · rw [acceptedRecipients_concat es hreset, hrecipient, Option.toList_some]
        rw [← h.recipients, ← hreads.recipients]
  | stored line data s' reader reply hreads hkeyword haccepts hdata hreply =>
      obtain rfl := Option.some.inj ht
      have hcut : es ++ [SessionEvent.command line .startData, .block data,
          .enqueue (parseData server.parseMail s'.fromAddr s'.recipients data) result,
          .answer reply] =
          (es ++ [SessionEvent.command line .startData, .block data,
            .enqueue (parseData server.parseMail s'.fromAddr s'.recipients data) result]) ++
          [.answer reply] := by
        simp
      rw [hcut]
      exact .clear _ rfl
  | oversized line s' reader hreads hkeyword haccepts hdata =>
      obtain rfl := Option.some.inj ht
      have hcut : es ++ [SessionEvent.command line .startData, .answer .sizeExceeded] =
          (es ++ [SessionEvent.command line .startData]) ++ [.answer .sizeExceeded] := by
        simp
      rw [hcut]
      exact .clear _ rfl

theorem start_matches (server : Server) (reader : Reader) :
    Matches server (start reader) := by
  intro s hs
  obtain rfl := Option.some.inj hs
  exact ⟨rfl, rfl⟩

/-- **The envelope** of a session is the one its commands and replies promise. -/
theorem envelope_of_converse {reader : Reader} {results : List (Except ChimneyError Int)}
    (h : server.converse reader results = some c) : Matches server c := by
  refine Replay.replay_invariant (I := fun _ c => Matches server c)
    (start_matches server reader) ?_ h
  intro _ c result c' _ hc hstep
  obtain ⟨s, hs, rfl⟩ := step_eq_some.mp hstep
  exact matches_pass (hc s hs) (pass_passes server result s)

/--
What holds of every event of a turn, given the events before it, holds of every
event of a conversation.
-/
theorem events_of_converse {P : List SessionEvent → SessionEvent → Prop}
    (hgreeting : P [] .greeting)
    (hpass : ∀ es s result c,
      EnvelopeMatches server.validateEmail es s.fromAddr s.recipients →
      Passes server result s c →
      ∀ front e back, c.events = front ++ e :: back → P (es ++ front) e)
    {reader : Reader} {results : List (Except ChimneyError Int)}
    (h : server.converse reader results = some c) :
    ∀ pre e post, c.events = pre ++ e :: post → P pre e := by
  refine Replay.replay_invariant
    (I := fun _ c => ∀ pre e post, c.events = pre ++ e :: post → P pre e) ?_ ?_ h
  · intro pre e post heq
    have hone : [SessionEvent.greeting] = pre ++ e :: post := heq
    rcases List.singleton_eq_append_iff.mp hone with ⟨rfl, hcons⟩ | ⟨_, hcons⟩
    · obtain ⟨rfl, _⟩ := List.cons.inj hcons
      exact hgreeting
    · cases hcons
  · intro results' c result c' hrun hc hstep pre e post heq
    obtain ⟨s, hs, rfl⟩ := step_eq_some.mp hstep
    have hmatches := envelope_of_converse hrun s hs
    rcases History.append_eq_split heq with ⟨rest, hrest⟩ | ⟨front, rfl, hfront⟩
    · exact hc pre e rest hrest
    · exact hpass c.events s result _ hmatches (pass_passes server result s) front e post hfront

/-- What is enqueued was read from a block under the envelope before it. -/
def EnqueueFits (server : Server) (pre : List SessionEvent) (e : SessionEvent) : Prop :=
  ∀ message result, e = .enqueue message result →
    ∃ data, message = parseData server.parseMail
        (acceptedSender server.validateEmail pre)
        (acceptedRecipients server.validateEmail pre) data ∧
      (acceptedSender server.validateEmail pre).isSome = true ∧
      acceptedRecipients server.validateEmail pre ≠ [] ∧
      pre.getLast? = some (.block data)

/-- In one turn only a stored block is enqueued. -/
theorem enqueueFits_pass
    (h : EnvelopeMatches server.validateEmail es s.fromAddr s.recipients)
    (hpass : Passes server result s c) {front back : List SessionEvent} {e : SessionEvent}
    (heq : c.events = front ++ e :: back) : EnqueueFits server (es ++ front) e := by
  rintro message result' rfl
  have hmem : SessionEvent.enqueue message result' ∈ c.events := by
    rw [heq]
    simp
  cases hpass with
  | ended events hclosing => cases hclosing _ hmem
  | blank reader => simp at hmem
  | neutral line reply s' hreads hneutral => simp at hmem
  | reset line s' hreads hkeyword => simp at hmem
  | mail line addr s' hreads hkeyword haddr => simp at hmem
  | rcpt line addr s' hreads hkeyword haddr => simp at hmem
  | oversized line s' reader hreads hkeyword haccepts hdata => simp at hmem
  | stored line data s' reader reply hreads hkeyword haccepts hdata hreply =>
      have hbefore : EnvelopeMatches server.validateEmail
          (es ++ [SessionEvent.command line .startData] ++ [.block data])
          s'.fromAddr s'.recipients := by
        rw [hreads.fromAddr, hreads.recipients]
        exact (h.keep rfl rfl rfl).keep rfl rfl rfl
      -- the third of the four events is the call
      rcases front with _ | ⟨x, _ | ⟨y, _ | ⟨z, _ | ⟨w, front⟩⟩⟩⟩
      · simp at heq
      · simp at heq
      · simp only [List.cons_append, List.nil_append, List.cons.injEq,
          SessionEvent.enqueue.injEq] at heq
        obtain ⟨rfl, rfl, ⟨rfl, rfl⟩, _⟩ := heq
        have hfront : es ++ [SessionEvent.command line .startData, .block data] =
            es ++ [SessionEvent.command line .startData] ++ [.block data] := by
          simp
        unfold Session.acceptsData at haccepts
        rw [Bool.and_eq_true, Bool.not_eq_true', List.isEmpty_eq_false_iff] at haccepts
        rw [hfront, ← hbefore.fromAddr, ← hbefore.recipients]
        exact ⟨data, rfl, haccepts.1, haccepts.2, by simp⟩
      · simp at heq
      · simp at heq

/-- **What is enqueued** is a block with the envelope the client was promised. -/
theorem enqueue_of_converse {reader : Reader} {results : List (Except ChimneyError Int)}
    (h : server.converse reader results = some c) {pre post : List SessionEvent}
    {message : Queue.Message} (heq : c.events = pre ++ .enqueue message result :: post) :
    ∃ data, message = parseData server.parseMail
        (acceptedSender server.validateEmail pre)
        (acceptedRecipients server.validateEmail pre) data ∧
      (acceptedSender server.validateEmail pre).isSome = true ∧
      acceptedRecipients server.validateEmail pre ≠ [] ∧
      pre.getLast? = some (.block data) := by
  have hfits := events_of_converse (P := EnqueueFits server) ?_ ?_ h pre _ post heq
  · exact hfits message result rfl
  · rintro message result heq
    cases heq
  · intro es s result c hmatches hpass front e back hfront
    exact enqueueFits_pass hmatches hpass hfront

end Server

end Smtp
end ChimneyPost
