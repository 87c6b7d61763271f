import ChimneyPost.Lib.History
import ChimneyPost.Smtp.Session

/-!
# Content and commands

After a 354 reply everything up to the terminator line is content, and the next
command is what follows that line.  The server keeps to this exactly when the block
is within the size limit (`content_skipped_iff`): when the limit trips, `read_data`
returns with the reader inside of the block, and the command loop goes on there.
-/

namespace ChimneyPost
namespace Smtp

/-- The block has been read to its end: what is left is what follows it. -/
def Skipped (stream left : List UInt8) : Prop :=
  left = (afterBody stream).getD []

/-- The reader has been read past its block, unless the session ends. -/
def BlockSkipped (maxSize : Nat) (r : Reader) : Prop :=
  ((∃ data, (r.readData maxSize).1 = .ok data) ∨
    (r.readData maxSize).1 = .error .smtpSizeExceeded) →
  Skipped r.stream (r.readData maxSize).2.stream

/--
The block is within the size limit; or it has no terminator line, all lines before
the last one are, and the last one can still be read.
-/
def BlockFits (maxSize : Nat) (stream : List UInt8) : Prop :=
  (content (bodyLines stream)).length ≤ maxSize ∨ LastLineReadable maxSize [] stream

section Block

variable {maxSize : Nat} {front back : List (List UInt8)} {line : List UInt8}

/-- Lines that follow a line that is over the limit are over it too. -/
theorem content_length_le_of_prefix {xs ys : List (List UInt8)} (h : xs <+: ys) :
    (content xs).length ≤ (content ys).length := by
  obtain ⟨rest, rfl⟩ := h
  rw [content_append, List.length_append]
  omega

theorem content_concat_length (front : List (List UInt8)) (line : List UInt8) :
    (content (front ++ [line])).length = (content front).length + (unstuff line).length := by
  rw [content_append, content_cons, content_nil, List.append_nil, List.length_append]

/-- A block with a line over the limit fits only if that line is its last one. -/
theorem last_of_blockFits {stream : List UInt8} (h : BlockFits maxSize stream)
    (hlines : bodyLines stream = front ++ line :: back)
    (hover : maxSize < (content front).length + (unstuff line).length) :
    afterBody stream = none ∧ back = [] ∧
      line.length ≤ maxSize - (content front).length + 4 := by
  have hprefix : front ++ [line] <+: bodyLines stream := by
    rw [hlines]
    exact ⟨back, by simp⟩
  have hlength := content_length_le_of_prefix hprefix
  rw [content_concat_length] at hlength
  rcases h with hfits | ⟨hafter, front', line', hlines', hfits, hread⟩
  · omega
  · simp only [List.length_nil, Nat.zero_add] at hfits hread
    have heq : front' ++ [line'] = front ++ line :: back := hlines'.symm.trans hlines
    rcases History.concat_eq_split heq with ⟨rfl, rfl⟩ | ⟨rest, rfl⟩
    · have hcons := List.append_cancel_left heq
      exact ⟨hafter, (List.cons.inj hcons).2.symm, hread⟩
    · have hshorter : front ++ [line] <+: front ++ line :: rest := ⟨rest, by simp⟩
      have hle := content_length_le_of_prefix hshorter
      rw [content_concat_length] at hle
      omega

/-- **One block** is skipped exactly when it fits. -/
theorem blockSkipped_iff (maxSize : Nat) (r : Reader) :
    BlockSkipped maxSize r ↔ BlockFits maxSize r.stream := by
  have hread := r.readsData maxSize
  unfold BlockSkipped
  generalize r.readData maxSize = result at hread ⊢
  obtain ⟨result, r'⟩ := result
  dsimp only at hread ⊢
  cases hread with
  | decoded _ hafter hfits hending =>
      constructor
      · intro _
        exact Or.inl (by simpa using hfits)
      · intro _ _
        unfold Skipped
        rw [hafter, Option.getD_some]
  | incomplete _ hafter hfits heof =>
      constructor
      · intro _
        exact Or.inl (by simpa using hfits)
      · rintro _ (⟨data, hdata⟩ | hdata) <;> cases hdata
  | stalled _ hfits hafter hstalls =>
      constructor
      · intro _
        exact hfits.imp_left (by simp)
      · rintro _ (⟨data, hdata⟩ | hdata) <;> cases hdata
  | broken _ text hfits hafter hfails =>
      constructor
      · intro _
        exact hfits.imp_left (by simp)
      · rintro _ (⟨data, hdata⟩ | hdata) <;> cases hdata
  | tooLong _ front line back hlines hfront hlong hleft =>
      simp only [List.length_nil, Nat.zero_add] at hfront hlong
      constructor
      · intro h
        have hskipped := h (Or.inr rfl)
        unfold Skipped at hskipped
        rw [hskipped] at hleft
        exact absurd hleft (lt_irrefl _)
      · intro h
        have hunstuff := length_le_unstuff line
        obtain ⟨_, _, hread⟩ := last_of_blockFits h hlines (by omega)
        omega
  | oversized _ front line hlines hafter hfront hreadable hover =>
      simp only [List.length_nil, Nat.zero_add] at hfront hreadable hover
      constructor
      · intro h
        have hskipped := h (Or.inr rfl)
        unfold Skipped at hskipped
        rw [hafter] at hskipped
        have hnone : afterBody r'.stream = none := by
          cases hrest : afterBody r'.stream with
          | none => rfl
          | some rest =>
              have hlt := Lines.after_length_lt hrest
              rw [hrest, Option.getD_some] at hskipped
              rw [hskipped] at hlt
              exact absurd hlt (lt_irrefl _)
        rw [hnone, Option.getD_none] at hskipped
        right
        refine ⟨hafter.trans hnone, front, line, ?_, by simpa using hfront, ?_⟩
        · rw [hlines, hskipped, bodyLines_nil]
        · simpa using hreadable
      · intro h _
        obtain ⟨hnone, hback, _⟩ := last_of_blockFits h hlines (by omega)
        rw [hafter] at hnone
        unfold Skipped
        rw [hafter, hnone, Option.getD_none]
        exact Lines.eq_nil_of_block_eq_nil hback hnone

end Block

/-! ## Sessions -/

/-- If this turn is answered 354 and the session goes on, it goes on after the block. -/
def ContentSkipped (server : Server) (c : Conversation) (result : Except ChimneyError Int) :
    Prop :=
  ∀ s reader s', c.session = some s → s.dataReader = some reader →
    (server.pass result s).session = some s' → Skipped reader.stream s'.reader.stream

/-- If this turn is answered 354, the block fits. -/
def ContentFits (server : Server) (c : Conversation) (_ : Except ChimneyError Int) : Prop :=
  ∀ s reader, c.session = some s → s.dataReader = some reader →
    BlockFits server.maxMessageSize reader.stream

section Sessions

variable {server : Server} {c : Conversation} {result : Except ChimneyError Int}

/-- The session that goes on after a block. -/
theorem receive_session {line : Str} {s s' : Session} :
    (server.receive result line s).session = some s' ↔
      ((∃ data, (s.reader.readData server.maxMessageSize).1 = .ok data) ∨
        (s.reader.readData server.maxMessageSize).1 = .error .smtpSizeExceeded) ∧
      s' =
        { reader := (s.reader.readData server.maxMessageSize).2
          fromAddr := none
          recipients := [] } := by
  unfold Server.receive
  split
  · next data reader hdata =>
      simp [hdata, eq_comm]
  · next reader hdata =>
      simp [hdata, eq_comm]
  · next error reader hne hdata =>
      simp only [hdata, reduceCtorEq, exists_false, Except.error.injEq, false_or, false_iff,
        not_and]
      rintro rfl
      exact absurd rfl hne

/-- One turn skips its content exactly when it fits. -/
theorem contentSkipped_iff :
    ContentSkipped server c result ↔ ContentFits server c result := by
  constructor
  · intro h s reader hs hreader
    rw [← blockSkipped_iff]
    intro hgoes
    obtain ⟨line, _, _, _, hpass⟩ := pass_of_dataReader server result hreader
    exact h s reader _ hs hreader (hpass ▸ receive_session.mpr ⟨hgoes, rfl⟩)
  · intro h s reader s' hs hreader hs'
    have hskipped := (blockSkipped_iff server.maxMessageSize reader).mpr
      (h s reader hs hreader)
    obtain ⟨line, _, _, _, hpass⟩ := pass_of_dataReader server result hreader
    rw [hpass] at hs'
    obtain ⟨hgoes, rfl⟩ := receive_session.mp hs'
    exact hskipped hgoes

/--
**Content is not interpreted** exactly when every block fits: the session goes on
after each block, whatever becomes of it, if and only if none of them trips the limit
before its end.
-/
theorem content_skipped_iff (server : Server) (reader : Reader)
    (results : List (Except ChimneyError Int)) :
    Replay.StepsMeet server.step (ContentSkipped server) (Server.start reader) results ↔
      Replay.StepsMeet server.step (ContentFits server) (Server.start reader) results := by
  constructor
  · intro h pre result post c heq hrun
    exact contentSkipped_iff.mp (h pre result post c heq hrun)
  · intro h pre result post c heq hrun
    exact contentSkipped_iff.mpr (h pre result post c heq hrun)

/-- A block that is over the limit of 20 bytes and holds commands. -/
def commandsInContent : Reader :=
  Reader.ofText
    "MAIL FROM:<a@b>\r\nRCPT TO:<c@d>\r\nDATA\r\nThis line is over the limit.\r\nMAIL FROM:<x@y>\r\nRCPT TO:<c@d>\r\nDATA\r\n\r\nforged\r\n.\r\n"

/-- What the session goes on with after its 552 reply. -/
def leftOfContent : Reader :=
  Reader.ofText
    "This line is over the limit.\r\nMAIL FROM:<x@y>\r\nRCPT TO:<c@d>\r\nDATA\r\n\r\nforged\r\n.\r\n"

/-- The content of an oversized block is executed and enqueues a message of its own. -/
theorem commandsInContent_executed :
    ¬ Replay.StepsMeet smallServer.step (ContentSkipped smallServer)
        (Server.start commandsInContent) (List.replicate 7 (.ok 1)) ∧
      ∃ c, smallServer.converse commandsInContent (List.replicate 7 (.ok 1)) = some c ∧
        c.events =
          [.greeting, .command "MAIL FROM:<a@b>".toList .ok,
            .command "RCPT TO:<c@d>".toList .ok, .command "DATA".toList .startData,
            .answer .sizeExceeded,
            .command "This line is over the limit.".toList .notImplemented,
            .command "MAIL FROM:<x@y>".toList .ok,
            .command "RCPT TO:<c@d>".toList .ok, .command "DATA".toList .startData,
            .block "\r\nforged\r\n".toList,
            .enqueue
              { fromAddr := some "x@y".toList
                toAddrs := ["c@d".toList]
                subject := none
                body := "forged".toList } (.ok 1),
            .answer .ok] := by
  constructor
  · intro h
    have hrun : smallServer.converse commandsInContent [.ok 1, .ok 1] =
        some
          { events :=
              [.greeting, .command "MAIL FROM:<a@b>".toList .ok,
                .command "RCPT TO:<c@d>".toList .ok]
            session := some
              { reader := Reader.ofText
                  "DATA\r\nThis line is over the limit.\r\nMAIL FROM:<x@y>\r\nRCPT TO:<c@d>\r\nDATA\r\n\r\nforged\r\n.\r\n"
                fromAddr := some "a@b".toList
                recipients := ["c@d".toList] } } := by
      decide +kernel
    have hskipped := h [.ok 1, .ok 1] (.ok 1) (List.replicate 4 (.ok 1)) _ rfl hrun _
      leftOfContent { reader := leftOfContent, fromAddr := none, recipients := [] } rfl
      (by decide +kernel) (by decide +kernel)
    unfold Skipped at hskipped
    exact absurd hskipped (by decide +kernel)
  · have hrun : smallServer.converse commandsInContent (List.replicate 7 (.ok 1)) =
        some
          { events :=
              [.greeting, .command "MAIL FROM:<a@b>".toList .ok,
                .command "RCPT TO:<c@d>".toList .ok, .command "DATA".toList .startData,
                .answer .sizeExceeded,
                .command "This line is over the limit.".toList .notImplemented,
                .command "MAIL FROM:<x@y>".toList .ok,
                .command "RCPT TO:<c@d>".toList .ok, .command "DATA".toList .startData,
                .block "\r\nforged\r\n".toList,
                .enqueue
                  { fromAddr := some "x@y".toList
                    toAddrs := ["c@d".toList]
                    subject := none
                    body := "forged".toList } (.ok 1),
                .answer .ok]
            session := some
              { reader := Reader.ofText "", fromAddr := none, recipients := [] } } := by
      decide +kernel
    exact ⟨_, hrun, rfl⟩

end Sessions

end Smtp
end ChimneyPost
