import ChimneyPost.Queue.System

/-!
# The outbox round trip

The recipients of a message are stored as one newline-joined column.  That loses
nothing of a list of addresses without line feeds, but for the list that holds one
empty address.  A row keeps its columns as long as it is in the outbox, and its id is
never used again, so a claim of the row gives the message back.
-/

namespace ChimneyPost
namespace Queue

/-- Recipient lists that the column can hold: no address is empty or has a line feed. -/
structure Storable (toAddrs : List Str) : Prop where
  ne_nil : ∀ addr ∈ toAddrs, addr ≠ []
  newline_free : ∀ addr ∈ toAddrs, '\n' ∉ addr

/-- Joining addresses that are not empty yields a string that is not empty. -/
theorem encodeRecipients_eq_nil {toAddrs : List Str} (h : ∀ addr ∈ toAddrs, addr ≠ []) :
    encodeRecipients toAddrs = [] ↔ toAddrs = [] := by
  constructor
  · intro hnil
    cases toAddrs with
    | nil => rfl
    | cons addr addrs =>
        exfalso
        have haddr := h addr List.mem_cons_self
        unfold encodeRecipients join at hnil
        cases addrs with
        | nil =>
            rw [List.intercalate_singleton] at hnil
            exact haddr hnil
        | cons next addrs =>
            rw [List.intercalate_cons_cons] at hnil
            simp at hnil
  · rintro rfl
    rfl

/-- **`decode_recipients` undoes `encode_recipients`** on storable lists. -/
theorem decodeRecipients_encodeRecipients {toAddrs : List Str} (h : Storable toAddrs) :
    decodeRecipients (encodeRecipients toAddrs) = toAddrs := by
  unfold decodeRecipients
  by_cases hnil : toAddrs = []
  · rw [if_pos ((encodeRecipients_eq_nil h.ne_nil).mpr hnil), hnil]
  · rw [if_neg (mt (encodeRecipients_eq_nil h.ne_nil).mp hnil)]
    exact List.splitOn_intercalate '\n' h.newline_free hnil

theorem Message.message_columns {m : Message} (h : Storable m.toAddrs) :
    m.columns.message = m := by
  unfold Message.columns MailColumns.message
  rw [decodeRecipients_encodeRecipients h]

/-! ## A row keeps its columns -/

/-- The id has been handed out, and the row under it, if there is one, has columns `c`. -/
structure Keeps (id : Int) (c : MailColumns) (db : Db) : Prop where
  handedOut : id ≤ db.outboxSeq
  columns : ∀ r ∈ db.outbox, r.id = id → r.toMailColumns = c

/-- A fresh row has the columns it was inserted with. -/
theorem keeps_insertOutbox (db : Db) (c : MailColumns) (createdAt : Int) :
    Keeps (db.outboxSeq + 1) c (db.insertOutbox c createdAt) := by
  constructor
  · exact le_refl _
  · intro r hr hid
    rcases Db.mem_insertOutbox.mp hr with hr | rfl
    · have hle := db.outbox_le_seq r hr
      omega
    · rfl

/-- No change to the tables touches the columns of a row. -/
theorem Keeps.apply {id : Int} {c : MailColumns} {db : Db} (h : Keeps id c db)
    (change : Change) : Keeps id c (change.apply db) := by
  have hmono := Change.outboxSeq_le db change
  refine ⟨le_trans h.handedOut hmono, ?_⟩
  cases change with
  | nothing => exact h.columns
  | insert columns createdAt =>
      intro r hr hid
      rcases Db.mem_insertOutbox.mp hr with hr | rfl
      · exact h.columns r hr hid
      · have hle := h.handedOut
        rw [Db.newRow_id] at hid
        omega
  | delete id' =>
      intro r hr hid
      exact h.columns r (MessageStore.mem_markDelivered.mp hr).1 hid
  | bury id' lastError failedAt =>
      intro r hr hid
      exact h.columns r (MessageStore.mem_deadLetter.mp hr).1 hid
  | schedule id' attempts nextAttemptAt =>
      intro r hr hid
      obtain ⟨q, hq, rfl⟩ := MessageStore.mem_reschedule.mp hr
      rw [Db.setSchedule_id] at hid
      rw [Db.setSchedule_columns]
      exact h.columns q hq hid

section Runs

variable {s₀ s : System} {es : List Event} {id : Int} {c : MailColumns}

theorem keeps_of_run (h : Keeps id c s₀.db) (hrun : run s₀ es = some s) :
    Keeps id c s.db := by
  refine Replay.replay_invariant (I := fun _ s => Keeps id c s.db) h ?_ hrun
  intro es s e t _ hI hstep
  rw [step_db hstep]
  exact hI.apply e.change

/-- A claim of a row reads the message off the columns the row keeps. -/
theorem claimed_message {now : Int} {stored : StoredMessage} {db : Db}
    (h : Keeps stored.id c db)
    (hclaim : MessageStore.claimNextReady now db = some stored) :
    stored.message = c.message := by
  obtain ⟨r, hr, hstored, _, _⟩ := MessageStore.claimNextReady_eq_some hclaim
  have hid : r.id = stored.id := by
    rw [← hstored]
    rfl
  rw [← hstored, ← h.columns r hr hid]
  rfl

/-- **A claim gives back what was inserted** under the same id, whatever happens in
between, provided the column can hold the recipients. -/
theorem claim_returns_inserted {pre mid post : List Event} {t : Nat} {m : Message}
    {createdAt now : Int} {live : Bool} {stored : StoredMessage}
    (hstorable : Storable m.toAddrs)
    (hrun : run s₀ (pre ++ .insert t m createdAt live stored.id ::
      (mid ++ .claim now (some stored) :: post)) = some s) :
    stored.message = m := by
  obtain ⟨s₁, s₂, _, hinsert, hrest⟩ := Replay.replay_at hrun
  obtain ⟨s₃, s₄, hmid, hclaim, _⟩ := Replay.replay_at hrest
  obtain ⟨_, _, hid, rfl⟩ := step_insert.mp hinsert
  have hkeeps : Keeps stored.id m.columns (s₁.db.insertOutbox m.columns createdAt) := by
    rw [hid]
    exact keeps_insertOutbox s₁.db m.columns createdAt
  rw [claimed_message (keeps_of_run hkeeps hmid) (step_claim.mp hclaim).1.2]
  exact Message.message_columns hstorable

end Runs

end Queue
end ChimneyPost
