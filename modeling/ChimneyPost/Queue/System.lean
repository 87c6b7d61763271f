import ChimneyPost.Lib.Replay
import ChimneyPost.Queue.Worker
import Mathlib.Tactic

/-!
# Sessions, store and worker together

The state of one server process on its database, and the events that can happen
to it in any order.

* A session's `enqueue` call spawns a closure, the closure commits (or fails),
  and the session then calls `notify_one`.  The session may be dropped by its
  deadline at any of these points; a spawned closure runs nevertheless.
* The worker moves from one `await` of `DeliveryWorker::run` to the next.
* The process may crash and start again on the same database between any two
  transactions.

Each event carries the values it observes, so that the list of events of a run is
a full record of what happened.
-/

namespace ChimneyPost
namespace Queue

/-- What a session's `enqueue` call is doing. -/
inductive EnqueueTask where
  | idle
  /-- the closure waits for the connection; `live` while the session awaits it -/
  | awaiting (message : Message) (createdAt : Int) (live : Bool)
  /-- the row is committed and the session is about to call `notify_one` -/
  | committed (id : Int)
deriving DecidableEq

namespace EnqueueTask

/-- There is a session to drop. -/
def live : EnqueueTask → Bool
  | .idle => false
  | .awaiting _ _ live => live
  | .committed _ => true

/-- The session is dropped: its closure still runs, its `notify_one` does not. -/
def cancel : EnqueueTask → EnqueueTask
  | .idle => .idle
  | .awaiting message createdAt _ => .awaiting message createdAt false
  | .committed _ => .idle

end EnqueueTask

namespace WorkerPc

/-- A store write of `deliver_one` or `handle_failure` is pending. -/
def writing : WorkerPc → Bool
  | .marking _ => true
  | .deadLettering _ _ => true
  | .rescheduling _ _ _ => true
  | _ => false

/-- The worker is in its idle `select!`. -/
def isParked : WorkerPc → Bool
  | .parked _ _ => true
  | _ => false

end WorkerPc

structure System where
  db : Db
  worker : WorkerPc
  config : DeliveryWorker
  maxLen : Nat
  permit : Bool
  shutdown : Bool
  tasks : Nat → EnqueueTask

/-- A process that has just opened the database `db`. -/
def System.start (config : DeliveryWorker) (maxLen : Nat) (db : Db) : System where
  db := db
  worker := .loopTop
  config := config
  maxLen := maxLen
  permit := false
  shutdown := false
  tasks := fun _ => .idle

/-- An error `with_conn` reports when a statement or its thread fails. -/
def ChimneyError.isStorageFailure : ChimneyError → Bool
  | .storage _ => true
  | .queue _ => true
  | _ => false

inductive Event where
  /-- session `t` calls `enqueue`; the closure is spawned -/
  | enqueue (t : Nat) (message : Message) (createdAt : Int)
  /-- the closure of `t` commits its `INSERT` -/
  | insert (t : Nat) (message : Message) (createdAt : Int) (live : Bool) (id : Int)
  /-- the closure of `t` returns an error -/
  | refuse (t : Nat) (message : Message) (createdAt : Int) (live : Bool)
      (error : ChimneyError)
  | notify (t : Nat) (id : Int)
  /-- the deadline of session `t` drops it inside `enqueue` -/
  | cancel (t : Nat)
  | claim (now : Int) (result : Option StoredMessage)
  | claimError
  /-- `sink.deliver` is called -/
  | deliver (stored : StoredMessage) (now : Int)
  | sinkOk (stored : StoredMessage) (now : Int)
  | sinkErr (stored : StoredMessage) (now : Int) (error : ChimneyError)
  | markDelivered (id : Int)
  | deadLetter (id : Int) (lastError : Str) (failedAt : Int)
  | reschedule (id : Int) (attempts : UInt32) (nextAttemptAt : Int)
  /-- the pending write fails; nothing is written -/
  | writeError
  /-- the claim found nothing: look at `shutdown` -/
  | nothingDue (now : Int)
  | nextWakeup (now : Int)
  | nextWakeupError (now : Int)
  | wakeNotified
  | wakeSlept
  | wakeShutdown
  | backoffElapsed
  | backoffInterrupted
  | setShutdown
  /-- the process dies and a new one opens the database -/
  | crash (config : DeliveryWorker) (maxLen : Nat)
deriving DecidableEq

/-- One event; `none` when it cannot happen in this state. -/
def step (s : System) : Event → Option System
  | .enqueue t message createdAt =>
      if s.tasks t = .idle then
        some { s with
          tasks := Function.update s.tasks t (.awaiting message createdAt true) }
      else
        none
  | .insert t message createdAt live id =>
      if s.tasks t = .awaiting message createdAt live then
        match MessageStore.enqueue s.maxLen message createdAt s.db with
        | .ok (id', db') =>
            if id' = id then
              some { s with
                db := db'
                tasks := Function.update s.tasks t
                  (if live then .committed id else .idle) }
            else
              none
        | .error _ => none
      else
        none
  | .refuse t message createdAt live error =>
      if s.tasks t = .awaiting message createdAt live ∧
          ((error = .queueFull ∧ s.db.full s.maxLen) ∨
            ChimneyError.isStorageFailure error = true) then
        some { s with tasks := Function.update s.tasks t .idle }
      else
        none
  | .notify t id =>
      if s.tasks t = .committed id then
        some { s with
          permit := true
          tasks := Function.update s.tasks t .idle }
      else
        none
  | .cancel t =>
      if (s.tasks t).live then
        some { s with tasks := Function.update s.tasks t (s.tasks t).cancel }
      else
        none
  | .claim now result =>
      if s.worker = .loopTop ∧ MessageStore.claimNextReady now s.db = result then
        some { s with worker := .claimed now result }
      else
        none
  | .claimError =>
      if s.worker = .loopTop then
        some { s with worker := .storageBackoff }
      else
        none
  | .deliver stored now =>
      if s.worker = .claimed now (some stored) then
        some { s with worker := .delivering stored now }
      else
        none
  | .sinkOk stored now =>
      if s.worker = .delivering stored now then
        some { s with worker := s.config.deliverOne stored now (.ok ()) }
      else
        none
  | .sinkErr stored now error =>
      if s.worker = .delivering stored now then
        some { s with worker := s.config.deliverOne stored now (.error error) }
      else
        none
  | .markDelivered id =>
      if s.worker = .marking id then
        some { s with
          db := MessageStore.markDelivered id s.db
          worker := .loopTop }
      else
        none
  | .deadLetter id lastError failedAt =>
      if s.worker = .deadLettering id lastError then
        some { s with
          db := MessageStore.deadLetter id lastError failedAt s.db
          worker := .loopTop }
      else
        none
  | .reschedule id attempts nextAttemptAt =>
      if s.worker = .rescheduling id attempts nextAttemptAt then
        some { s with
          db := MessageStore.reschedule id attempts nextAttemptAt s.db
          worker := .loopTop }
      else
        none
  | .writeError =>
      if s.worker.writing then
        some { s with worker := .loopTop }
      else
        none
  | .nothingDue now =>
      if s.worker = .claimed now none then
        some { s with worker := if s.shutdown then .stopped else .idleWaiting now }
      else
        none
  | .nextWakeup now =>
      if s.worker = .idleWaiting now then
        some { s with
          worker := .parked now
            (DeliveryWorker.idleWait now (.ok (MessageStore.nextWakeup now s.db))) }
      else
        none
  | .nextWakeupError now =>
      if s.worker = .idleWaiting now then
        some { s with worker := .parked now storageErrorBackoff }
      else
        none
  | .wakeNotified =>
      if s.worker.isParked ∧ s.permit then
        some { s with permit := false, worker := .loopTop }
      else
        none
  | .wakeSlept =>
      if s.worker.isParked then
        some { s with worker := .loopTop }
      else
        none
  | .wakeShutdown =>
      if s.worker.isParked ∧ s.shutdown then
        some { s with worker := .loopTop }
      else
        none
  | .backoffElapsed =>
      if s.worker = .storageBackoff then
        some { s with worker := if s.shutdown then .stopped else .loopTop }
      else
        none
  | .backoffInterrupted =>
      if s.worker = .storageBackoff ∧ s.shutdown then
        some { s with worker := .stopped }
      else
        none
  | .setShutdown =>
      some { s with shutdown := true }
  | .crash config maxLen =>
      some (System.start config maxLen s.db)

/-- The state a run reaches. -/
abbrev run (s : System) (es : List Event) : Option System :=
  Replay.replay step s es

/-! ## What each event does -/

section Steps

variable {s s' : System}

@[simp] theorem step_enqueue {t : Nat} {message : Message} {createdAt : Int} :
    step s (.enqueue t message createdAt) = some s' ↔
      s.tasks t = .idle ∧
      s' = { s with
        tasks := Function.update s.tasks t (.awaiting message createdAt true) } := by
  exact Replay.guarded_eq_some

@[simp] theorem step_insert {t : Nat} {message : Message} {createdAt id : Int}
    {live : Bool} :
    step s (.insert t message createdAt live id) = some s' ↔
      s.tasks t = .awaiting message createdAt live ∧
      ¬ s.db.full s.maxLen ∧ id = s.db.outboxSeq + 1 ∧
      s' = { s with
        db := s.db.insertOutbox message.columns createdAt
        tasks := Function.update s.tasks t
          (if live then .committed id else .idle) } := by
  simp only [step, MessageStore.enqueue]
  by_cases htask : s.tasks t = .awaiting message createdAt live
  · by_cases hfull : s.db.full s.maxLen
    · simp [htask, hfull]
    · simp only [htask, hfull, if_true, if_false, Option.ite_none_right_eq_some,
        Option.some.injEq, true_and, not_false_eq_true]
      constructor
      · rintro ⟨hid, hs⟩
        exact ⟨hid.symm, hs.symm⟩
      · rintro ⟨hid, hs⟩
        exact ⟨hid.symm, hs.symm⟩
  · simp [htask]

@[simp] theorem step_refuse {t : Nat} {message : Message} {createdAt : Int}
    {live : Bool} {error : ChimneyError} :
    step s (.refuse t message createdAt live error) = some s' ↔
      (s.tasks t = .awaiting message createdAt live ∧
        ((error = .queueFull ∧ s.db.full s.maxLen) ∨
          ChimneyError.isStorageFailure error = true)) ∧
      s' = { s with tasks := Function.update s.tasks t .idle } := by
  exact Replay.guarded_eq_some

@[simp] theorem step_notify {t : Nat} {id : Int} :
    step s (.notify t id) = some s' ↔
      s.tasks t = .committed id ∧
      s' = { s with
        permit := true
        tasks := Function.update s.tasks t .idle } := by
  exact Replay.guarded_eq_some

@[simp] theorem step_cancel {t : Nat} :
    step s (.cancel t) = some s' ↔
      (s.tasks t).live = true ∧
      s' = { s with tasks := Function.update s.tasks t (s.tasks t).cancel } := by
  exact Replay.guarded_eq_some

@[simp] theorem step_claim {now : Int} {result : Option StoredMessage} :
    step s (.claim now result) = some s' ↔
      (s.worker = .loopTop ∧ MessageStore.claimNextReady now s.db = result) ∧
      s' = { s with worker := .claimed now result } := by
  exact Replay.guarded_eq_some

@[simp] theorem step_claimError :
    step s .claimError = some s' ↔
      s.worker = .loopTop ∧ s' = { s with worker := .storageBackoff } := by
  exact Replay.guarded_eq_some

@[simp] theorem step_deliver {stored : StoredMessage} {now : Int} :
    step s (.deliver stored now) = some s' ↔
      s.worker = .claimed now (some stored) ∧
      s' = { s with worker := .delivering stored now } := by
  exact Replay.guarded_eq_some

@[simp] theorem step_sinkOk {stored : StoredMessage} {now : Int} :
    step s (.sinkOk stored now) = some s' ↔
      s.worker = .delivering stored now ∧
      s' = { s with worker := .marking stored.id } := by
  exact Replay.guarded_eq_some

@[simp] theorem step_sinkErr {stored : StoredMessage} {now : Int}
    {error : ChimneyError} :
    step s (.sinkErr stored now error) = some s' ↔
      s.worker = .delivering stored now ∧
      s' = { s with worker := s.config.handleFailure stored now error } := by
  exact Replay.guarded_eq_some

@[simp] theorem step_markDelivered {id : Int} :
    step s (.markDelivered id) = some s' ↔
      s.worker = .marking id ∧
      s' = { s with
        db := MessageStore.markDelivered id s.db
        worker := .loopTop } := by
  exact Replay.guarded_eq_some

@[simp] theorem step_deadLetter {id failedAt : Int} {lastError : Str} :
    step s (.deadLetter id lastError failedAt) = some s' ↔
      s.worker = .deadLettering id lastError ∧
      s' = { s with
        db := MessageStore.deadLetter id lastError failedAt s.db
        worker := .loopTop } := by
  exact Replay.guarded_eq_some

@[simp] theorem step_reschedule {id next : Int} {attempts : UInt32} :
    step s (.reschedule id attempts next) = some s' ↔
      s.worker = .rescheduling id attempts next ∧
      s' = { s with
        db := MessageStore.reschedule id attempts next s.db
        worker := .loopTop } := by
  exact Replay.guarded_eq_some

@[simp] theorem step_writeError :
    step s .writeError = some s' ↔
      s.worker.writing = true ∧ s' = { s with worker := .loopTop } := by
  exact Replay.guarded_eq_some

@[simp] theorem step_nothingDue {now : Int} :
    step s (.nothingDue now) = some s' ↔
      s.worker = .claimed now none ∧
      s' = { s with
        worker := if s.shutdown then .stopped else .idleWaiting now } := by
  exact Replay.guarded_eq_some

@[simp] theorem step_nextWakeup {now : Int} :
    step s (.nextWakeup now) = some s' ↔
      s.worker = .idleWaiting now ∧
      s' = { s with
        worker := .parked now
          (DeliveryWorker.idleWait now (.ok (MessageStore.nextWakeup now s.db))) } := by
  exact Replay.guarded_eq_some

@[simp] theorem step_nextWakeupError {now : Int} :
    step s (.nextWakeupError now) = some s' ↔
      s.worker = .idleWaiting now ∧
      s' = { s with worker := .parked now storageErrorBackoff } := by
  exact Replay.guarded_eq_some

@[simp] theorem step_wakeNotified :
    step s .wakeNotified = some s' ↔
      (s.worker.isParked = true ∧ s.permit = true) ∧
      s' = { s with permit := false, worker := .loopTop } := by
  exact Replay.guarded_eq_some

@[simp] theorem step_wakeSlept :
    step s .wakeSlept = some s' ↔
      s.worker.isParked = true ∧ s' = { s with worker := .loopTop } := by
  exact Replay.guarded_eq_some

@[simp] theorem step_wakeShutdown :
    step s .wakeShutdown = some s' ↔
      (s.worker.isParked = true ∧ s.shutdown = true) ∧
      s' = { s with worker := .loopTop } := by
  exact Replay.guarded_eq_some

@[simp] theorem step_backoffElapsed :
    step s .backoffElapsed = some s' ↔
      s.worker = .storageBackoff ∧
      s' = { s with worker := if s.shutdown then .stopped else .loopTop } := by
  exact Replay.guarded_eq_some

@[simp] theorem step_backoffInterrupted :
    step s .backoffInterrupted = some s' ↔
      (s.worker = .storageBackoff ∧ s.shutdown = true) ∧
      s' = { s with worker := .stopped } := by
  exact Replay.guarded_eq_some

@[simp] theorem step_setShutdown :
    step s .setShutdown = some s' ↔ s' = { s with shutdown := true } := by
  rw [step, Option.some.injEq, eq_comm]

@[simp] theorem step_crash {config : DeliveryWorker} {maxLen : Nat} :
    step s (.crash config maxLen) = some s' ↔
      s' = System.start config maxLen s.db := by
  rw [step, Option.some.injEq, eq_comm]

end Steps

/-! ## What each event does to the tables -/

/-- A statement or transaction the store commits. -/
inductive Change where
  | nothing
  | insert (columns : MailColumns) (createdAt : Int)
  | delete (id : Int)
  | bury (id : Int) (lastError : Str) (failedAt : Int)
  | schedule (id : Int) (attempts : UInt32) (nextAttemptAt : Int)

def Change.apply (db : Db) : Change → Db
  | .nothing => db
  | .insert columns createdAt => db.insertOutbox columns createdAt
  | .delete id => MessageStore.markDelivered id db
  | .bury id lastError failedAt => MessageStore.deadLetter id lastError failedAt db
  | .schedule id attempts nextAttemptAt =>
      MessageStore.reschedule id attempts nextAttemptAt db

/-- The change an event commits. -/
def Event.change : Event → Change
  | .insert _ message createdAt _ _ => .insert message.columns createdAt
  | .markDelivered id => .delete id
  | .deadLetter id lastError failedAt => .bury id lastError failedAt
  | .reschedule id attempts nextAttemptAt => .schedule id attempts nextAttemptAt
  | _ => .nothing

/-- Every event changes the tables by its change and in no other way. -/
theorem step_db {s s' : System} {e : Event} (h : step s e = some s') :
    s'.db = e.change.apply s.db := by
  cases e <;> simp at h <;>
    simp [h, Event.change, Change.apply, System.start]

/-- Ids are handed out in increasing order and never taken back. -/
theorem Change.outboxSeq_le (db : Db) (c : Change) :
    db.outboxSeq ≤ (c.apply db).outboxSeq := by
  cases c with
  | nothing => exact le_refl _
  | insert columns createdAt =>
      show db.outboxSeq ≤ db.outboxSeq + 1
      omega
  | delete id => exact le_refl _
  | bury id lastError failedAt => exact le_refl _
  | schedule id attempts nextAttemptAt => exact le_refl _

theorem step_outboxSeq_le {s s' : System} {e : Event}
    (h : step s e = some s') :
    s.db.outboxSeq ≤ s'.db.outboxSeq := by
  rw [step_db h]
  exact Change.outboxSeq_le s.db e.change

end Queue
end ChimneyPost
