import ChimneyPost.Error
import Mathlib.Data.List.Sort
import Mathlib.Tactic

/-!
# The message store

`src/queue/store.rs`: the two tables of the SQLite database and the statements
`MessageStore` runs on them.  Each function here is what one closure does once it
holds the connection; SQLite runs it atomically, or it fails and the tables stay
as they were.

The outbox is kept in the order of its primary key, as SQLite stores it.  `Db`
carries the two facts the `INTEGER PRIMARY KEY AUTOINCREMENT` column guarantees:
ids are distinct (the list is strictly increasing) and no id exceeds the last one
handed out.  `i64` columns are integers; only additions that can overflow wrap.
-/

namespace ChimneyPost
namespace Queue

/-- A parsed email ready to be forwarded to Matrix. -/
structure Message where
  fromAddr : Option Str
  toAddrs : List Str
  subject : Option Str
  body : Str
deriving DecidableEq, Repr

/-- A message in the outbox with its row id and its stored attempt counter. -/
structure StoredMessage where
  id : Int
  message : Message
  attempts : UInt32
deriving DecidableEq, Repr

/-- The columns that hold the message itself; both tables have them. -/
structure MailColumns where
  fromAddr : Option Str
  toAddrs : Str
  subject : Option Str
  body : Str
deriving DecidableEq, Repr

structure OutboxRow extends MailColumns where
  id : Int
  attempts : Int
  nextAttemptAt : Int
  createdAt : Int
deriving DecidableEq, Repr

structure DeadLetterRow extends MailColumns where
  id : Int
  attempts : Int
  createdAt : Int
  failedAt : Int
  lastError : Str
deriving DecidableEq, Repr

/-- The database file. -/
structure Db where
  outbox : List OutboxRow
  deadLetter : List DeadLetterRow
  outboxSeq : Int
  deadLetterSeq : Int
  outbox_sorted : outbox.Pairwise (fun r q => r.id < q.id)
  outbox_le_seq : ∀ r ∈ outbox, r.id ≤ outboxSeq

/-- A freshly created database. -/
def Db.empty : Db where
  outbox := []
  deadLetter := []
  outboxSeq := 0
  deadLetterSeq := 0
  outbox_sorted := List.Pairwise.nil
  outbox_le_seq := by simp

/-- `x as u32` for an `i64`. -/
def asU32 (x : Int) : UInt32 :=
  UInt32.ofNat (x % 4294967296).toNat

/-- The `i64` a result wraps to in the release build. -/
def wrapI64 (z : Int) : Int :=
  (z + 9223372036854775808) % 18446744073709551616 - 9223372036854775808

def i64Add (x y : Int) : Int :=
  wrapI64 (x + y)

def i64Sub (x y : Int) : Int :=
  wrapI64 (x - y)

/-- Recipients are stored newline-joined. -/
def encodeRecipients (toAddrs : List Str) : Str :=
  join ['\n'] toAddrs

def decodeRecipients (raw : Str) : List Str :=
  if raw = [] then [] else raw.splitOn '\n'

/-- The columns a message is written to. -/
def Message.columns (m : Message) : MailColumns where
  fromAddr := m.fromAddr
  toAddrs := encodeRecipients m.toAddrs
  subject := m.subject
  body := m.body

/-- The message read back from its columns. -/
def MailColumns.message (c : MailColumns) : Message where
  fromAddr := c.fromAddr
  toAddrs := decodeRecipients c.toAddrs
  subject := c.subject
  body := c.body

def rowToStored (r : OutboxRow) : StoredMessage where
  id := r.id
  message := r.toMailColumns.message
  attempts := asU32 r.attempts

/-- `ORDER BY next_attempt_at ASC, id ASC`. -/
def OutboxRow.Before (r q : OutboxRow) : Prop :=
  r.nextAttemptAt < q.nextAttemptAt ∨
    (r.nextAttemptAt = q.nextAttemptAt ∧ r.id ≤ q.id)

instance : DecidableRel OutboxRow.Before := fun r q => by
  unfold OutboxRow.Before
  infer_instance

instance : Std.Total OutboxRow.Before where
  total r q := by
    unfold OutboxRow.Before
    omega

instance : IsTrans OutboxRow OutboxRow.Before where
  trans r q p := by
    unfold OutboxRow.Before
    omega

namespace Db

/-- The row an `INSERT` of message columns appends. -/
def newRow (db : Db) (c : MailColumns) (createdAt : Int) : OutboxRow where
  toMailColumns := c
  id := db.outboxSeq + 1
  attempts := 0
  nextAttemptAt := 0
  createdAt := createdAt

/-- `INSERT INTO outbox`. -/
def insertOutbox (db : Db) (c : MailColumns) (createdAt : Int) : Db where
  outbox := db.outbox ++ [db.newRow c createdAt]
  deadLetter := db.deadLetter
  outboxSeq := db.outboxSeq + 1
  deadLetterSeq := db.deadLetterSeq
  outbox_sorted := by
    rw [List.pairwise_append]
    refine ⟨db.outbox_sorted, List.pairwise_singleton _ _, ?_⟩
    intro r hr q hq
    rw [List.mem_singleton] at hq
    subst hq
    have hle := db.outbox_le_seq r hr
    simp only [newRow]
    omega
  outbox_le_seq := by
    intro r hr
    rcases List.mem_append.mp hr with hr | hr
    · have hle := db.outbox_le_seq r hr
      omega
    · rw [List.mem_singleton] at hr
      subst hr
      exact le_refl _

/-- `DELETE FROM outbox WHERE id = ?1`. -/
def deleteOutbox (db : Db) (id : Int) : Db where
  outbox := db.outbox.filter (fun r => r.id ≠ id)
  deadLetter := db.deadLetter
  outboxSeq := db.outboxSeq
  deadLetterSeq := db.deadLetterSeq
  outbox_sorted := db.outbox_sorted.filter _
  outbox_le_seq := by
    intro r hr
    exact db.outbox_le_seq r (List.mem_of_mem_filter hr)

/-- `SET attempts = ?2, next_attempt_at = ?3 WHERE id = ?1`, on one row. -/
def setSchedule (id : Int) (attempts : UInt32) (nextAttemptAt : Int)
    (r : OutboxRow) : OutboxRow :=
  if r.id = id then
    { r with attempts := attempts.toNat, nextAttemptAt := nextAttemptAt }
  else
    r

@[simp] theorem setSchedule_id (id : Int) (attempts : UInt32)
    (nextAttemptAt : Int) (r : OutboxRow) :
    (setSchedule id attempts nextAttemptAt r).id = r.id := by
  unfold setSchedule
  split_ifs <;> rfl

@[simp] theorem setSchedule_columns (id : Int) (attempts : UInt32)
    (nextAttemptAt : Int) (r : OutboxRow) :
    (setSchedule id attempts nextAttemptAt r).toMailColumns =
      r.toMailColumns := by
  unfold setSchedule
  split_ifs <;> rfl

/-- The dead-letter rows `INSERT ... SELECT ... WHERE id = ?1` appends. -/
def deadLetterRows (db : Db) (id : Int) (lastError : Str) (failedAt : Int) :
    List DeadLetterRow :=
  (db.outbox.filter (fun r => r.id = id)).mapIdx fun i r =>
    { toMailColumns := r.toMailColumns
      id := db.deadLetterSeq + 1 + i
      attempts := r.attempts
      createdAt := r.createdAt
      failedAt := failedAt
      lastError := lastError }

end Db

/-- The outbox holds `max_len` messages or more (`0` means unlimited). -/
def Db.full (db : Db) (maxLen : Nat) : Prop :=
  0 < maxLen ∧ maxLen ≤ db.outbox.length

instance (db : Db) (maxLen : Nat) : Decidable (db.full maxLen) := by
  unfold Db.full
  infer_instance

namespace MessageStore

/-- `MessageStore::enqueue`, the closure: check the cap and insert. -/
def enqueue (maxLen : Nat) (message : Message) (createdAt : Int) (db : Db) :
    Except ChimneyError (Int × Db) :=
  if db.full maxLen then
    .error .queueFull
  else
    .ok (db.outboxSeq + 1, db.insertOutbox message.columns createdAt)

/-- The row `claim_next_ready` selects. -/
def earliestDue (now : Int) (db : Db) : Option OutboxRow :=
  ((db.outbox.filter (fun r => r.nextAttemptAt ≤ now)).insertionSort
    OutboxRow.Before).head?

/-- `MessageStore::claim_next_ready`. -/
def claimNextReady (now : Int) (db : Db) : Option StoredMessage :=
  (earliestDue now db).map rowToStored

/-- `MessageStore::mark_delivered`, which is `remove`. -/
def markDelivered (id : Int) (db : Db) : Db :=
  db.deleteOutbox id

/-- `MessageStore::dead_letter`: copy the row, delete it, in one transaction. -/
def deadLetter (id : Int) (lastError : Str) (failedAt : Int) (db : Db) : Db :=
  { db.deleteOutbox id with
    deadLetter := db.deadLetter ++ db.deadLetterRows id lastError failedAt
    deadLetterSeq :=
      db.deadLetterSeq + (db.deadLetterRows id lastError failedAt).length }

/-- `MessageStore::reschedule`. -/
def reschedule (id : Int) (attempts : UInt32) (nextAttemptAt : Int) (db : Db) :
    Db where
  outbox := db.outbox.map (Db.setSchedule id attempts nextAttemptAt)
  deadLetter := db.deadLetter
  outboxSeq := db.outboxSeq
  deadLetterSeq := db.deadLetterSeq
  outbox_sorted := by
    rw [List.pairwise_map]
    simpa using db.outbox_sorted
  outbox_le_seq := by
    intro r hr
    obtain ⟨q, hq, rfl⟩ := List.mem_map.mp hr
    simpa using db.outbox_le_seq q hq

/-- `MessageStore::next_wakeup`: `MIN(next_attempt_at)` beyond `now`. -/
def nextWakeup (now : Int) (db : Db) : Option Int :=
  ((db.outbox.map (fun r => r.nextAttemptAt)).filter (fun t => now < t)).min?

/-- `MessageStore::len`. -/
def len (db : Db) : Nat :=
  db.outbox.length

/-- `MessageStore::dead_letter_len`. -/
def deadLetterLen (db : Db) : Nat :=
  db.deadLetter.length

end MessageStore

/-! ## What the statements do -/

theorem Db.ids_nodup (db : Db) :
    (db.outbox.map (fun r => r.id)).Nodup := by
  rw [List.Nodup, List.pairwise_map]
  exact db.outbox_sorted.imp (fun h => ne_of_lt h)

/-- The primary key determines the row. -/
theorem Db.row_unique (db : Db) {r q : OutboxRow}
    (hr : r ∈ db.outbox) (hq : q ∈ db.outbox) (hid : r.id = q.id) :
    r = q := by
  exact List.inj_on_of_nodup_map db.ids_nodup hr hq hid

/-- At most one row has a given id. -/
theorem Db.filter_id_eq (db : Db) {r : OutboxRow} (hr : r ∈ db.outbox) :
    db.outbox.filter (fun q => q.id = r.id) = [r] := by
  have hnodup : (db.outbox.filter (fun q => q.id = r.id)).Nodup :=
    (List.Nodup.of_map _ db.ids_nodup).filter _
  have hmem : ∀ q, q ∈ db.outbox.filter (fun q => q.id = r.id) ↔ q = r := by
    intro q
    rw [List.mem_filter, decide_eq_true_eq]
    constructor
    · rintro ⟨hq, hid⟩
      exact db.row_unique hq hr hid
    · rintro rfl
      exact ⟨hr, rfl⟩
  exact List.perm_singleton.mp
    ((List.perm_ext_iff_of_nodup hnodup (List.nodup_singleton r)).mpr
      (by simpa using hmem))

theorem Db.newRow_id (db : Db) (c : MailColumns) (createdAt : Int) :
    (db.newRow c createdAt).id = db.outboxSeq + 1 := by
  rfl

@[simp] theorem Db.mem_insertOutbox {db : Db} {c : MailColumns}
    {createdAt : Int} {r : OutboxRow} :
    r ∈ (db.insertOutbox c createdAt).outbox ↔
      r ∈ db.outbox ∨ r = db.newRow c createdAt := by
  simp [Db.insertOutbox]

@[simp] theorem Db.mem_deleteOutbox {db : Db} {id : Int} {r : OutboxRow} :
    r ∈ (db.deleteOutbox id).outbox ↔ r ∈ db.outbox ∧ r.id ≠ id := by
  simp [Db.deleteOutbox]

namespace MessageStore

variable {db : Db}

theorem enqueue_eq_ok {maxLen : Nat} {m : Message} {createdAt id : Int}
    {db' : Db} :
    enqueue maxLen m createdAt db = .ok (id, db') ↔
      ¬ db.full maxLen ∧ id = db.outboxSeq + 1 ∧
        db' = db.insertOutbox m.columns createdAt := by
  unfold enqueue
  split_ifs with hfull
  · simp [hfull]
  · simp [hfull, eq_comm]

@[simp] theorem mem_markDelivered {id : Int} {r : OutboxRow} :
    r ∈ (markDelivered id db).outbox ↔ r ∈ db.outbox ∧ r.id ≠ id := by
  simp [markDelivered]

@[simp] theorem mem_deadLetter {id failedAt : Int} {lastError : Str}
    {r : OutboxRow} :
    r ∈ (deadLetter id lastError failedAt db).outbox ↔
      r ∈ db.outbox ∧ r.id ≠ id := by
  simp [deadLetter]

@[simp] theorem mem_reschedule {id next : Int} {attempts : UInt32}
    {r : OutboxRow} :
    r ∈ (reschedule id attempts next db).outbox ↔
      ∃ q ∈ db.outbox, Db.setSchedule id attempts next q = r := by
  simp [reschedule]

/-- A claim finds a due row that no other due row comes before. -/
theorem earliestDue_eq_some {now : Int} {r : OutboxRow}
    (h : earliestDue now db = some r) :
    r ∈ db.outbox ∧ r.nextAttemptAt ≤ now ∧
      ∀ q ∈ db.outbox, q.nextAttemptAt ≤ now → r.Before q := by
  unfold earliestDue at h
  have hsorted := List.pairwise_insertionSort OutboxRow.Before
    (db.outbox.filter (fun r => r.nextAttemptAt ≤ now))
  have hperm := List.perm_insertionSort OutboxRow.Before
    (db.outbox.filter (fun r => r.nextAttemptAt ≤ now))
  obtain ⟨rest, hrest⟩ := List.head?_eq_some_iff.mp h
  rw [hrest] at hsorted hperm
  have hmem : ∀ q, q ∈ r :: rest ↔ q ∈ db.outbox ∧ q.nextAttemptAt ≤ now := by
    intro q
    rw [hperm.mem_iff, List.mem_filter, decide_eq_true_eq]
  obtain ⟨hin, hdue⟩ := (hmem r).mp List.mem_cons_self
  refine ⟨hin, hdue, ?_⟩
  intro q hq hqdue
  rcases List.mem_cons.mp ((hmem q).mpr ⟨hq, hqdue⟩) with rfl | hq
  · exact Or.inr ⟨rfl, le_refl _⟩
  · exact (List.pairwise_cons.mp hsorted).1 q hq

/-- A claim finds nothing exactly when nothing is due. -/
theorem earliestDue_eq_none {now : Int} :
    earliestDue now db = none ↔ ∀ r ∈ db.outbox, now < r.nextAttemptAt := by
  unfold earliestDue
  rw [List.head?_eq_none_iff]
  constructor
  · intro h r hr
    by_contra hdue
    have hmem : r ∈ (db.outbox.filter (fun r => r.nextAttemptAt ≤ now)).insertionSort
        OutboxRow.Before := by
      rw [List.mem_insertionSort, List.mem_filter, decide_eq_true_eq]
      exact ⟨hr, by omega⟩
    rw [h] at hmem
    exact absurd hmem (by simp)
  · intro h
    have hnone : db.outbox.filter (fun r => r.nextAttemptAt ≤ now) = [] := by
      rw [List.filter_eq_nil_iff]
      intro r hr
      have hlt := h r hr
      simpa using hlt
    rw [hnone]
    rfl

theorem claimNextReady_eq_some {now : Int} {stored : StoredMessage}
    (h : claimNextReady now db = some stored) :
    ∃ r ∈ db.outbox, rowToStored r = stored ∧ r.nextAttemptAt ≤ now ∧
      ∀ q ∈ db.outbox, q.nextAttemptAt ≤ now → r.Before q := by
  obtain ⟨r, hr, hstored⟩ := Option.map_eq_some_iff.mp h
  obtain ⟨hin, hdue, hfirst⟩ := earliestDue_eq_some hr
  exact ⟨r, hin, hstored, hdue, hfirst⟩

theorem claimNextReady_eq_none {now : Int} :
    claimNextReady now db = none ↔ ∀ r ∈ db.outbox, now < r.nextAttemptAt := by
  unfold claimNextReady
  rw [Option.map_eq_none_iff]
  exact earliestDue_eq_none

/-- The next wakeup is the earliest due time beyond `now`. -/
theorem nextWakeup_eq_some {now at_ : Int} (h : nextWakeup now db = some at_) :
    now < at_ ∧ ∀ r ∈ db.outbox, now < r.nextAttemptAt → at_ ≤ r.nextAttemptAt := by
  unfold nextWakeup at h
  rw [List.min?_eq_some_iff] at h
  obtain ⟨hmem, hmin⟩ := h
  rw [List.mem_filter, decide_eq_true_eq] at hmem
  refine ⟨hmem.2, ?_⟩
  intro r hr hlater
  apply hmin
  rw [List.mem_filter, decide_eq_true_eq]
  exact ⟨List.mem_map_of_mem hr, hlater⟩

theorem nextWakeup_eq_none {now : Int} (h : nextWakeup now db = none) :
    ∀ r ∈ db.outbox, r.nextAttemptAt ≤ now := by
  unfold nextWakeup at h
  rw [List.min?_eq_none_iff, List.filter_eq_nil_iff] at h
  intro r hr
  have hnot := h r.nextAttemptAt (List.mem_map_of_mem hr)
  simpa using hnot

end MessageStore

/-- The counter `reschedule` writes is the counter a claim reads back. -/
@[simp] theorem asU32_toNat (a : UInt32) :
    asU32 (a.toNat : Int) = a := by
  have hlt := a.toNat_lt
  have hmod : ((a.toNat : Int) % 4294967296).toNat = a.toNat := by
    omega
  unfold asU32
  rw [hmod, UInt32.ofNat_toNat]

theorem asU32_zero :
    asU32 0 = 0 := by
  rfl

/-- `i64` addition is exact while the sum is an `i64`. -/
theorem i64Add_eq {x y : Int}
    (hlow : -9223372036854775808 ≤ x + y) (hhigh : x + y ≤ 9223372036854775807) :
    i64Add x y = x + y := by
  unfold i64Add wrapI64
  omega

end Queue
end ChimneyPost
