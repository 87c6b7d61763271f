import ChimneyPost.Queue.RoundTrip
import ChimneyPost.Smtp.Transcript

/-!
# From a session to a claim

A command line has no line feed once its end is trimmed, and a recipient is a
non-empty piece of it.  So the recipients of every message a session enqueues can be
stored, and whenever its row is claimed the message comes back as it was.
-/

namespace ChimneyPost
namespace Smtp

/-- **A trimmed command line has no line feed.** -/
theorem newline_not_mem_of_readLineLimited {r r' : Reader} {maxBytes bytes : Nat}
    {buffer : Str} (h : r.readLineLimited maxBytes = (.text bytes buffer, r')) :
    '\n' ∉ trimEndMatches ['\r', '\n'] buffer := by
  have hread := r.readsLine maxBytes
  unfold Reader.readLineLimited at h
  split at h
  · next raw reader hraw =>
      split at h
      · next text htext =>
          obtain ⟨_, rfl⟩ := ReadText.text.inj (Prod.mk.inj h).1
          apply newline_not_mem_of_fromUtf8 _ htext
          rw [hraw] at hread
          cases hread with
          | line _ hmem hfits hrest hending =>
              right
              rw [List.nil_append]
              exact Lines.cut_of_mem hmem
          | atEof _ hmem hfits heof hrest hending =>
              left
              exact hmem
      · cases h
  · cases h
  · cases h

theorem Reads.newline_not_mem {s s' : Session} {line : Str} (h : Reads s line s') :
    '\n' ∉ line := by
  obtain ⟨bytes, buffer, hread, rfl⟩ := h.read
  exact newline_not_mem_of_readLineLimited hread

/-- **A recipient can be stored**: it is not empty and has no line feed. -/
theorem parseRcptTo_storable {validateEmail : Str → Bool} {r r' : Reader}
    {maxBytes bytes : Nat} {buffer addr : Str}
    (hread : r.readLineLimited maxBytes = (.text bytes buffer, r'))
    (haddr : parseRcptTo validateEmail (trimEndMatches ['\r', '\n'] buffer) = some addr) :
    addr ≠ [] ∧ '\n' ∉ addr := by
  obtain ⟨hne, hpiece⟩ := parseRcptTo_eq_some haddr
  refine ⟨hne, ?_⟩
  intro hmem
  exact newline_not_mem_of_readLineLimited hread (hpiece '\n' hmem)

section Sessions

variable {server : Server} {result : Except ChimneyError Int} {s : Session}
  {c : Conversation} {reader : Reader} {results : List (Except ChimneyError Int)}

/-- An accepted command line has no line feed. -/
theorem newline_not_mem_pass (hpass : Passes server result s c) {line : Str}
    (hmem : SessionEvent.command line .ok ∈ c.events) : '\n' ∉ line := by
  cases hpass with
  | ended events hclosing => cases hclosing _ hmem
  | blank reader => simp at hmem
  | neutral line' reply s' hreads hneutral =>
      simp only [List.mem_singleton, SessionEvent.command.injEq] at hmem
      rw [hmem.1]
      exact hreads.newline_not_mem
  | reset line' s' hreads hkeyword =>
      simp only [List.mem_singleton, SessionEvent.command.injEq, and_true] at hmem
      rw [hmem]
      exact hreads.newline_not_mem
  | mail line' addr s' hreads hkeyword haddr =>
      simp only [List.mem_singleton, SessionEvent.command.injEq, and_true] at hmem
      rw [hmem]
      exact hreads.newline_not_mem
  | rcpt line' addr s' hreads hkeyword haddr =>
      simp only [List.mem_singleton, SessionEvent.command.injEq, and_true] at hmem
      rw [hmem]
      exact hreads.newline_not_mem
  | stored line' data s' reader reply hreads hkeyword haccepts hdata hreply =>
      simp at hmem
  | oversized line' s' reader hreads hkeyword haccepts hdata => simp at hmem

theorem newline_not_mem_of_converse (h : server.converse reader results = some c)
    {line : Str} (hmem : SessionEvent.command line .ok ∈ c.events) : '\n' ∉ line := by
  obtain ⟨pre, post, heq⟩ := List.append_of_mem hmem
  have hfree := Server.events_of_converse
    (P := fun _ e => ∀ line, e = .command line .ok → '\n' ∉ line) ?_ ?_ h pre _ post heq
  · exact hfree line rfl
  · intro line heq
    cases heq
  · intro es s result c _ hpass front e back hfront line heq
    apply newline_not_mem_pass hpass
    rw [hfront, heq]
    simp

/-- The recipients accepted in a session can be stored. -/
theorem storable_acceptedRecipients (h : server.converse reader results = some c)
    {pre post : List SessionEvent} (heq : c.events = pre ++ post) :
    Queue.Storable (acceptedRecipients server.validateEmail pre) := by
  have hsource : ∀ addr ∈ acceptedRecipients server.validateEmail pre,
      addr ≠ [] ∧ '\n' ∉ addr := by
    intro addr haddr
    obtain ⟨e, he, hrecipient⟩ := List.mem_filterMap.mp haddr
    have hmem : e ∈ c.events := by
      rw [heq]
      exact List.mem_append_left _ ((History.since_suffix _ pre).subset he)
    unfold SessionEvent.recipient at hrecipient
    split at hrecipient
    · next line =>
        split_ifs at hrecipient
        obtain ⟨hne, hpiece⟩ := parseRcptTo_eq_some hrecipient
        refine ⟨hne, ?_⟩
        intro hnewline
        exact newline_not_mem_of_converse h hmem (hpiece '\n' hnewline)
    · cases hrecipient
  constructor
  · intro addr haddr
    exact (hsource addr haddr).1
  · intro addr haddr
    exact (hsource addr haddr).2

/-- **What a session enqueues can be stored.** -/
theorem storable_of_enqueue (h : server.converse reader results = some c)
    {message : Queue.Message} (hmem : SessionEvent.enqueue message result ∈ c.events) :
    Queue.Storable message.toAddrs := by
  obtain ⟨pre, post, heq⟩ := List.append_of_mem hmem
  obtain ⟨data, rfl, _⟩ := Server.enqueue_of_converse h heq
  rw [parseData_toAddrs]
  exact storable_acceptedRecipients h heq

/--
**Round trip.**  A message that a session enqueues comes back unchanged from every
claim of its row, in every run of the queue; its recipients survive the encoding, and
no recipient that `parse_rcpt_to` can return is empty or has a line feed.
-/
theorem enqueued_message_comes_back (h : server.converse reader results = some c)
    {message : Queue.Message} (hmem : SessionEvent.enqueue message result ∈ c.events) :
    (∀ (s₀ s : Queue.System) pre mid post t createdAt live now stored,
      Queue.run s₀ (pre ++ .insert t message createdAt live stored.id ::
        (mid ++ .claim now (some stored) :: post)) = some s →
      stored.message = message) ∧
    Queue.decodeRecipients (Queue.encodeRecipients message.toAddrs) = message.toAddrs ∧
    ∀ (r r' : Reader) maxBytes bytes buffer addr,
      r.readLineLimited maxBytes = (.text bytes buffer, r') →
      parseRcptTo server.validateEmail (trimEndMatches ['\r', '\n'] buffer) = some addr →
      addr ≠ [] ∧ '\n' ∉ addr := by
  have hstorable := storable_of_enqueue h hmem
  refine ⟨?_, Queue.decodeRecipients_encodeRecipients hstorable, ?_⟩
  · intro s₀ s pre mid post t createdAt live now stored hrun
    exact Queue.claim_returns_inserted hstorable hrun
  · intro r r' maxBytes bytes buffer addr hread haddr
    exact parseRcptTo_storable hread haddr

/-- A bounce for two recipients. -/
def bounce : Queue.Message where
  fromAddr := none
  toAddrs := ["c@d".toList, "e@f".toList]
  subject := none
  body := "hi".toList

/-- What happens between its insertion and its second claim: one failed delivery. -/
def bounceFails : List Queue.Event :=
  [ .notify 0 1, .claim 7 (some ⟨1, bounce, 0⟩), .deliver ⟨1, bounce, 0⟩ 7,
    .sinkErr ⟨1, bounce, 0⟩ 7 (.matrix []), .reschedule 1 1 7 ]

/-- It is received, stored, fails once and is claimed again. -/
theorem bounce_comes_back :
    ∃ c, smallServer.converse
        (Reader.ofText
          "MAIL FROM:<>\r\nRCPT TO:<c@d>\r\nRCPT TO:<e@f>\r\nDATA\r\n\r\nhi\r\n.\r\n")
        (List.replicate 4 (.ok 1)) = some c ∧
      SessionEvent.enqueue bounce (.ok 1) ∈ c.events ∧
      ∃ s, Queue.run (Queue.System.start ⟨5, 0⟩ 10 Queue.Db.empty)
        ([Queue.Event.enqueue 0 bounce 5] ++ Queue.Event.insert 0 bounce 5 true 1 ::
          (bounceFails ++ Queue.Event.claim 8 (some ⟨1, bounce, 1⟩) :: [])) = some s ∧
      (⟨1, bounce, 1⟩ : Queue.StoredMessage).message = bounce := by
  have hsession : smallServer.converse
      (Reader.ofText
        "MAIL FROM:<>\r\nRCPT TO:<c@d>\r\nRCPT TO:<e@f>\r\nDATA\r\n\r\nhi\r\n.\r\n")
      (List.replicate 4 (.ok 1)) =
        some
          { events :=
              [.greeting, .command "MAIL FROM:<>".toList .ok,
                .command "RCPT TO:<c@d>".toList .ok, .command "RCPT TO:<e@f>".toList .ok,
                .command "DATA".toList .startData, .block "\r\nhi\r\n".toList,
                .enqueue bounce (.ok 1), .answer .ok]
            session := some
              { reader := Reader.ofText "", fromAddr := none, recipients := [] } } := by
    decide +kernel
  have hmem : SessionEvent.enqueue bounce (.ok 1) ∈
      [.greeting, .command "MAIL FROM:<>".toList .ok,
        .command "RCPT TO:<c@d>".toList .ok, .command "RCPT TO:<e@f>".toList .ok,
        .command "DATA".toList .startData, .block "\r\nhi\r\n".toList,
        .enqueue bounce (.ok 1), .answer .ok] := by
    simp
  have hqueue : ∃ s, Queue.run (Queue.System.start ⟨5, 0⟩ 10 Queue.Db.empty)
      ([Queue.Event.enqueue 0 bounce 5] ++ Queue.Event.insert 0 bounce 5 true 1 ::
        (bounceFails ++ Queue.Event.claim 8 (some ⟨1, bounce, 1⟩) :: [])) = some s :=
    ⟨_, rfl⟩
  obtain ⟨s, hs⟩ := hqueue
  refine ⟨_, hsession, hmem, s, hs, ?_⟩
  exact (enqueued_message_comes_back hsession hmem).1 _ _ _ _ _ _ _ _ _
    ⟨1, bounce, 1⟩ hs

end Sessions

end Smtp
end ChimneyPost
