import ChimneyPost.Smtp.Transcript

/-!
# What is acknowledged is what is stored

Two ledgers of a session: the messages it has inserted into the outbox, and the
messages of the `DATA` blocks it has answered 250, each made of the decoded block and
the envelope the client has been promised (`Server.tally`).  They agree at every
point of every run, but for one message that has been inserted and not been answered
yet.  A session that is cut off leaves exactly such a point behind.
-/

namespace ChimneyPost
namespace Smtp

open Queue (Message)

/-- The message a call of `store.enqueue` has inserted. -/
def SessionEvent.insertion : SessionEvent → Option Message
  | .enqueue message (.ok _) => some message
  | _ => none

/-- The messages inserted into the outbox, in order. -/
def inserted (es : List SessionEvent) : List Message :=
  es.filterMap SessionEvent.insertion

/-- The block that awaits its reply, and the blocks that were answered 250. -/
structure Tally where
  awaiting : Option Message
  acknowledged : List Message
deriving DecidableEq

/-- Events that are no part of the dealings with a block. -/
def SessionEvent.isAside : SessionEvent → Bool
  | .block _ => false
  | .enqueue _ _ => false
  | .answer _ => false
  | _ => true

namespace Server

variable (server : Server)

/-- One event in the tally; `before` are the events before it. -/
def tallyEvent (before : List SessionEvent) (t : Tally) : SessionEvent → Tally
  | .block data =>
      { awaiting := some (parseData server.parseMail
          (acceptedSender server.validateEmail before)
          (acceptedRecipients server.validateEmail before) data)
        acknowledged := t.acknowledged }
  | .answer reply =>
      { awaiting := none
        acknowledged :=
          if reply.code = 250 then t.acknowledged ++ t.awaiting.toList
          else t.acknowledged }
  | _ => t

def tallyFrom : List SessionEvent → Tally → List SessionEvent → Tally
  | _, t, [] => t
  | before, t, e :: es => tallyFrom (before ++ [e]) (server.tallyEvent before t e) es

/-- The blocks of a session and what became of them, by its replies. -/
def tally (es : List SessionEvent) : Tally :=
  server.tallyFrom [] { awaiting := none, acknowledged := [] } es

/-- The ledgers agree, but for one message that awaits its reply. -/
def Balanced (es : List SessionEvent) : Prop :=
  inserted es = (server.tally es).acknowledged ∨
    ∃ message, (server.tally es).awaiting = some message ∧
      inserted es = (server.tally es).acknowledged ++ [message]

/-- The ledgers agree and no block awaits its reply. -/
structure Settled (es : List SessionEvent) : Prop where
  agree : inserted es = (server.tally es).acknowledged
  awaiting : (server.tally es).awaiting = none

end Server

/-! ## Keeping the tally -/

section Tallies

variable {server : Server} {es fs : List SessionEvent} {e : SessionEvent}

theorem tallyFrom_concat (before : List SessionEvent) (t : Tally) :
    server.tallyFrom before t (es ++ [e]) =
      server.tallyEvent (before ++ es) (server.tallyFrom before t es) e := by
  induction es generalizing before t with
  | nil =>
      simp [Server.tallyFrom]
  | cons x es ih =>
      simp only [List.cons_append, Server.tallyFrom]
      rw [ih]
      simp

@[simp] theorem tally_concat (server : Server) (es : List SessionEvent) (e : SessionEvent) :
    server.tally (es ++ [e]) = server.tallyEvent es (server.tally es) e := by
  unfold Server.tally
  rw [tallyFrom_concat, List.nil_append]

@[simp] theorem inserted_concat (es : List SessionEvent) (e : SessionEvent) :
    inserted (es ++ [e]) = inserted es ++ e.insertion.toList := by
  unfold inserted
  rw [List.filterMap_append]
  cases h : e.insertion with
  | none => simp [h]
  | some message => simp [h]

theorem Server.Settled.balanced (h : server.Settled es) : server.Balanced es := by
  exact Or.inl h.agree

theorem Server.Settled.aside (h : server.Settled es) (haside : e.isAside = true) :
    server.Settled (es ++ [e]) := by
  have htally : server.tallyEvent es (server.tally es) e = server.tally es := by
    cases e <;> first | rfl | cases haside
  have hinsertion : e.insertion = none := by
    cases e <;> first | rfl | cases haside
  constructor
  · rw [inserted_concat, tally_concat, htally, hinsertion, Option.toList_none,
      List.append_nil]
    exact h.agree
  · rw [tally_concat, htally]
    exact h.awaiting

theorem Server.Settled.asides (h : server.Settled es)
    (haside : ∀ e ∈ fs, e.isAside = true) : server.Settled (es ++ fs) := by
  induction fs using List.reverseRecOn with
  | nil =>
      rw [List.append_nil]
      exact h
  | append_singleton fs e ih =>
      rw [← List.append_assoc]
      refine (ih ?_).aside (haside e (by simp))
      intro x hx
      exact haside x (List.mem_append_left _ hx)

/-- Turns that deal with no block keep the ledgers settled throughout. -/
theorem Server.Settled.balanced_asides (h : server.Settled es)
    (haside : ∀ e ∈ fs, e.isAside = true) :
    (∀ q, q <+: fs → server.Balanced (es ++ q)) ∧ server.Settled (es ++ fs) := by
  constructor
  · intro q hq
    refine (h.asides ?_).balanced
    intro x hx
    exact haside x (hq.subset hx)
  · exact h.asides haside

theorem SessionEvent.isAside_of_isClosing (h : e.isClosing = true) : e.isAside = true := by
  cases e <;> first | rfl | cases h

end Tallies

/-! ## One turn -/

section Turns

variable {server : Server} {result : Except ChimneyError Int} {s : Session}
  {es : List SessionEvent} {c : Conversation}

/-- The ledgers agree and a block awaits its reply. -/
structure Awaiting (server : Server) (es : List SessionEvent) (message : Message) :
    Prop where
  agree : inserted es = (server.tally es).acknowledged
  awaiting : (server.tally es).awaiting = some message

/-- The block has been passed to the store and awaits its reply. -/
structure Called (server : Server) (es : List SessionEvent) (message : Message)
    (result : Except ChimneyError Int) : Prop where
  agree : inserted es = (server.tally es).acknowledged ++
    (SessionEvent.enqueue message result).insertion.toList
  awaiting : (server.tally es).awaiting = some message

theorem Server.Settled.block (h : server.Settled es) (data : Str) :
    Awaiting server (es ++ [SessionEvent.block data])
      (parseData server.parseMail (acceptedSender server.validateEmail es)
        (acceptedRecipients server.validateEmail es) data) := by
  constructor
  · rw [inserted_concat, tally_concat]
    simpa [SessionEvent.insertion, Server.tallyEvent] using h.agree
  · rw [tally_concat]
    rfl

theorem Awaiting.call {message : Message} (h : Awaiting server es message)
    (result : Except ChimneyError Int) :
    Called server (es ++ [SessionEvent.enqueue message result]) message result := by
  have htally : server.tally (es ++ [SessionEvent.enqueue message result]) =
      server.tally es := by
    rw [tally_concat]
    rfl
  constructor
  · rw [inserted_concat, htally, h.agree]
  · rw [htally]
    exact h.awaiting

theorem Called.balanced {message : Message} (h : Called server es message result) :
    server.Balanced es := by
  have hagree := h.agree
  cases result with
  | ok id => exact Or.inr ⟨message, h.awaiting, hagree⟩
  | error error =>
      left
      simpa [SessionEvent.insertion] using hagree

/-- The reply tells what the store did. -/
theorem Called.answer {message : Message} {reply : Reply}
    (h : Called server es message result)
    (hreply : (reply = .ok ∧ ∃ id, result = .ok id) ∨
      (reply = .localError ∧ ∃ error, result = .error error)) :
    server.Settled (es ++ [SessionEvent.answer reply]) := by
  constructor
  · rw [inserted_concat, tally_concat, h.agree]
    unfold Server.tallyEvent
    rw [h.awaiting]
    rcases hreply with ⟨rfl, id, rfl⟩ | ⟨rfl, error, rfl⟩
    · simp [SessionEvent.insertion, Reply.code]
    · simp [SessionEvent.insertion, Reply.code]
  · rw [tally_concat]
    rfl

/-- A turn that passes a block to the store: the ledgers meet again with its reply. -/
theorem balanced_stored {line data : Str} {message : Message} {reply : Reply}
    (h : server.Settled es)
    (hmessage : message = parseData server.parseMail
      (acceptedSender server.validateEmail (es ++ [SessionEvent.command line .startData]))
      (acceptedRecipients server.validateEmail
        (es ++ [SessionEvent.command line .startData])) data)
    (hreply : (reply = .ok ∧ ∃ id, result = .ok id) ∨
      (reply = .localError ∧ ∃ error, result = .error error)) :
    (∀ q, q <+: [SessionEvent.command line .startData, .block data,
      .enqueue message result, .answer reply] → server.Balanced (es ++ q)) ∧
    server.Settled (es ++ [SessionEvent.command line .startData, .block data,
      .enqueue message result, .answer reply]) := by
  have hcommand : server.Settled (es ++ [SessionEvent.command line .startData]) :=
    h.aside rfl
  have hblock := hcommand.block data
  rw [← hmessage] at hblock
  have hcall := hblock.call result
  have hend := hcall.answer hreply
  simp only [List.append_assoc, List.cons_append, List.nil_append] at hblock hcall hend
  refine ⟨?_, hend⟩
  intro q hq
  rcases q with _ | ⟨x, _ | ⟨y, _ | ⟨z, _ | ⟨w, q⟩⟩⟩⟩
  · rw [List.append_nil]
    exact h.balanced
  · simp only [List.cons_prefix_cons, List.nil_prefix, and_true] at hq
    rw [hq]
    exact hcommand.balanced
  · simp only [List.cons_prefix_cons, List.nil_prefix, and_true] at hq
    obtain ⟨rfl, rfl⟩ := hq
    exact Or.inl hblock.agree
  · simp only [List.cons_prefix_cons, List.nil_prefix, and_true] at hq
    obtain ⟨rfl, rfl, rfl⟩ := hq
    exact hcall.balanced
  · simp only [List.cons_prefix_cons, List.prefix_nil] at hq
    obtain ⟨rfl, rfl, rfl, rfl, rfl⟩ := hq
    exact hend.balanced

/-- One turn keeps the ledgers in step. -/
theorem balanced_pass
    (hmatches : EnvelopeMatches server.validateEmail es s.fromAddr s.recipients)
    (h : server.Settled es) (hpass : Passes server result s c) :
    (∀ q, q <+: c.events → server.Balanced (es ++ q)) ∧ server.Settled (es ++ c.events) := by
  cases hpass with
  | ended events hclosing =>
      apply h.balanced_asides
      intro e he
      exact SessionEvent.isAside_of_isClosing (hclosing e he)
  | blank reader => exact h.balanced_asides (by simp [SessionEvent.isAside])
  | neutral line reply s' hreads hneutral =>
      exact h.balanced_asides (by simp [SessionEvent.isAside])
  | reset line s' hreads hkeyword =>
      exact h.balanced_asides (by simp [SessionEvent.isAside])
  | mail line addr s' hreads hkeyword haddr =>
      exact h.balanced_asides (by simp [SessionEvent.isAside])
  | rcpt line addr s' hreads hkeyword haddr =>
      exact h.balanced_asides (by simp [SessionEvent.isAside])
  | stored line data s' reader reply hreads hkeyword haccepts hdata hreply =>
      have hcommand := hmatches.keep (e := .command line .startData) rfl rfl rfl
      refine balanced_stored h ?_ hreply
      rw [← hcommand.fromAddr, ← hcommand.recipients, hreads.fromAddr, hreads.recipients]
  | oversized line s' reader hreads hkeyword haccepts hdata =>
      have hcommand : server.Settled (es ++ [SessionEvent.command line .startData]) := h.aside rfl
      have hend : server.Settled (es ++ [SessionEvent.command line .startData] ++
          [SessionEvent.answer .sizeExceeded]) := by
        constructor
        · rw [inserted_concat, tally_concat]
          simpa [SessionEvent.insertion, Server.tallyEvent, Reply.code] using hcommand.agree
        · rw [tally_concat]
          rfl
      constructor
      · intro q hq
        rcases q with _ | ⟨x, _ | ⟨y, q⟩⟩
        · rw [List.append_nil]
          exact h.balanced
        · simp only [List.cons_prefix_cons, List.nil_prefix, and_true] at hq
          rw [hq]
          exact hcommand.balanced
        · simp only [List.cons_prefix_cons, List.prefix_nil] at hq
          obtain ⟨rfl, rfl, rfl⟩ := hq
          simpa using hend.balanced
      · simpa using hend

/-- What a turn may do to the outbox and to the envelope. -/
structure TurnHonest (server : Server) (result : Except ChimneyError Int) (s : Session) :
    Prop where
  /-- only a block that is answered 250 is inserted -/
  inserts : inserted (server.pass result s).events ≠ [] →
    ∃ line data message id, (server.pass result s).events =
      [.command line .startData, .block data, .enqueue message (.ok id), .answer .ok]
  /-- a block is what stands before its terminator line, decoded -/
  decodes : ∀ data, .block data ∈ (server.pass result s).events →
    ∃ reader, s.dataReader = some reader ∧ (afterBody reader.stream).isSome = true ∧
      data = fromUtf8Lossy (content (bodyLines reader.stream))
  /-- a refused command and a blank line leave the envelope as it was -/
  refuses : ∀ s', (server.pass result s).session = some s' →
    ((server.pass result s).events = [.blank] ∨
      ∃ line reply, (server.pass result s).events = [.command line reply] ∧
        reply.code ∈ [501, 502, 503]) →
    s'.fromAddr = s.fromAddr ∧ s'.recipients = s.recipients

theorem inserted_of_aside {fs : List SessionEvent} (h : ∀ e ∈ fs, e.isAside = true) :
    inserted fs = [] := by
  unfold inserted
  rw [List.filterMap_eq_nil_iff]
  intro e he
  have haside := h e he
  cases e <;> first | rfl | cases haside

theorem turnHonest (server : Server) (result : Except ChimneyError Int) (s : Session) :
    TurnHonest server result s := by
  have hpass := pass_passes server result s
  generalize hc : server.pass result s = c at hpass
  constructor
  · intro hne
    rw [hc] at hne ⊢
    cases hpass with
    | stored line data s' reader reply hreads hkeyword haccepts hdata hreply =>
        rcases hreply with ⟨rfl, id, rfl⟩ | ⟨rfl, error, rfl⟩
        · exact ⟨line, data, _, id, rfl⟩
        · exact absurd rfl hne
    | ended events hclosing =>
        have hnone := inserted_of_aside fun e he =>
          SessionEvent.isAside_of_isClosing (hclosing e he)
        exact absurd hnone hne
    | _ => exact absurd rfl hne
  · intro data hmem
    rw [hc] at hmem
    cases hpass with
    | stored line data' s' reader reply hreads hkeyword haccepts hdata hreply =>
        simp only [List.mem_cons, SessionEvent.block.injEq, reduceCtorEq, List.not_mem_nil,
          or_false, false_or] at hmem
        subst hmem
        have hread := s'.reader.readsData server.maxMessageSize
        rw [hdata] at hread
        refine ⟨s'.reader, hreads.dataReader hkeyword haccepts, ?_⟩
        generalize hres : (Except.ok data : Except ChimneyError Str) = res at hread
        cases hread with
        | decoded _ hafter hfits hending =>
            rw [hafter]
            exact ⟨rfl, Except.ok.inj hres⟩
        | _ => cases hres
    | ended events hclosing => cases hclosing _ hmem
    | _ => simp at hmem
  · intro s' hs' hrefused
    rw [hc] at hs' hrefused
    cases hpass with
    | ended events hclosing => cases hs'
    | blank reader =>
        obtain rfl := Option.some.inj hs'
        exact ⟨rfl, rfl⟩
    | neutral line reply t hreads hneutral =>
        obtain rfl := Option.some.inj hs'
        exact ⟨hreads.fromAddr, hreads.recipients⟩
    | _ =>
        rcases hrefused with hblank | ⟨line', reply', hcommand, hcode⟩
        · simp at hblank
        · simp only [List.cons.injEq, SessionEvent.command.injEq, reduceCtorEq, and_true,
            and_false] at hcommand
          try
            obtain ⟨_, rfl⟩ := hcommand
            simp [Reply.code] at hcode

end Turns

/-! ## Every run -/

section Runs

variable {server : Server} {c : Conversation} {reader : Reader}
  {results : List (Except ChimneyError Int)}

/-- The ledgers are balanced at every point, and settled between two turns. -/
theorem balanced_of_converse (h : server.converse reader results = some c) :
    (∀ p, p <+: c.events → server.Balanced p) ∧ server.Settled c.events := by
  refine Replay.replay_invariant
    (I := fun _ c => (∀ p, p <+: c.events → server.Balanced p) ∧
      server.Settled c.events) ?_ ?_ h
  · have hempty : server.Settled [] := ⟨rfl, rfl⟩
    have haside : ∀ e ∈ [SessionEvent.greeting], e.isAside = true := by
      simp [SessionEvent.isAside]
    exact hempty.balanced_asides haside
  · intro results' c result c' hrun hc hstep
    obtain ⟨s, hs, rfl⟩ := step_eq_some.mp hstep
    have hmatches := Server.envelope_of_converse hrun s hs
    obtain ⟨hprefixes, hsettled⟩ := balanced_pass hmatches hc.2
      (pass_passes server result s)
    refine ⟨?_, hsettled⟩
    intro p hp
    rcases List.prefix_or_prefix_of_prefix hp (List.prefix_append c.events _) with hfirst | hrest
    · exact hc.1 p hfirst
    · obtain ⟨q, rfl⟩ := hrest
      exact hprefixes q ((List.prefix_append_right_inj _).mp hp)

/--
**Acknowledged exactly when stored.**  At every point of every run, the messages
inserted are those of the blocks answered 250, but for one last block that has been
inserted and not been answered; between two turns they agree.  The envelope is the
one the client was promised; a turn inserts nothing but a complete block that it
answers 250, and a refused command or a blank line changes nothing.
-/
theorem stored_exactly_when_acknowledged (h : server.converse reader results = some c) :
    (∀ p, p <+: c.events → server.Balanced p) ∧ server.Settled c.events ∧
      server.Matches c ∧ ∀ result s, TurnHonest server result s := by
  obtain ⟨hprefixes, hsettled⟩ := balanced_of_converse h
  refine ⟨hprefixes, hsettled, Server.envelope_of_converse h, ?_⟩
  intro result s
  exact turnHonest server result s

/-- A block is stored, answered 250, and followed by the next transaction. -/
theorem oneBlock_acknowledged :
    ∃ c, smallServer.converse
        (Reader.ofText
          "MAIL FROM:<a@b>\r\nRCPT TO:<c@d>\r\nDATA\r\n\r\nhi\r\n.\r\nMAIL FROM:<>\r\n")
        [.ok 1, .ok 1, .ok 1, .error .queueFull] = some c ∧
      (inserted c.events).map Message.toAddrs = [["c@d".toList]] ∧
      (∀ p, p <+: c.events → smallServer.Balanced p) ∧ smallServer.Settled c.events ∧
        smallServer.Matches c ∧ ∀ result s, TurnHonest smallServer result s := by
  have hrun : smallServer.converse
      (Reader.ofText
        "MAIL FROM:<a@b>\r\nRCPT TO:<c@d>\r\nDATA\r\n\r\nhi\r\n.\r\nMAIL FROM:<>\r\n")
      [.ok 1, .ok 1, .ok 1, .error .queueFull] =
        some
          { events :=
              [.greeting, .command "MAIL FROM:<a@b>".toList .ok,
                .command "RCPT TO:<c@d>".toList .ok, .command "DATA".toList .startData,
                .block "\r\nhi\r\n".toList,
                .enqueue
                  { fromAddr := some "a@b".toList
                    toAddrs := ["c@d".toList]
                    subject := none
                    body := "hi".toList } (.ok 1),
                .answer .ok, .command "MAIL FROM:<>".toList .ok]
            session := some
              { reader := Reader.ofText ""
                fromAddr := some []
                recipients := [] } } := by
    decide +kernel
  exact ⟨_, hrun, rfl, stored_exactly_when_acknowledged hrun⟩

end Runs

end Smtp
end ChimneyPost
