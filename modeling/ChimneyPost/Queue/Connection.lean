import ChimneyPost.Lib.Transaction
import ChimneyPost.Queue.System

/-!
# The store's calls, statement by statement

`MessageStore` runs each call as one closure that holds the connection.  Here the
closures are the statements they run, any of which can fail, and `dead_letter` has
the transaction it opens.  A call is the closure on its blocking thread, which can
fail as well, and for `enqueue` the notification after it.

Each closure refines the atomic operation of the store (`refines_enqueue` and the
lemmas after it), and so every way a call can end is an event of the system
(`enqueue_step`, `write_step`).
-/

namespace ChimneyPost
namespace Queue

open Transaction

/-- A closure on the connection; rusqlite reports its errors as texts. -/
abbrev Sql (α : Type) := Code Db Str ChimneyError α

/-- The first statement of `dead_letter`: `INSERT ... SELECT`. -/
def Db.copyToDeadLetter (db : Db) (id : Int) (lastError : Str) (failedAt : Int) : Db :=
  { db with
    deadLetter := db.deadLetter ++ db.deadLetterRows id lastError failedAt
    deadLetterSeq :=
      db.deadLetterSeq + (db.deadLetterRows id lastError failedAt).length }

namespace MessageStore

/-- `INSERT INTO outbox`, with the `last_insert_rowid` after it. -/
def insertStatement (message : Message) (createdAt : Int) : Sql Int :=
  statement .storage fun db =>
    (db.outboxSeq + 1, db.insertOutbox message.columns createdAt)

/-- The closure of `enqueue`. -/
def enqueueClosure (maxLen : Nat) (message : Message) (createdAt : Int) : Sql Int :=
  if 0 < maxLen then do
    let count ← query .storage fun db => db.outbox.length
    if maxLen ≤ count then
      fail .queueFull
    else
      insertStatement message createdAt
  else
    insertStatement message createdAt

/-- The closure of `remove`. -/
def removeClosure (id : Int) : Sql Unit :=
  statement .storage fun db => ((), db.deleteOutbox id)

/-- The closure of `dead_letter`. -/
def deadLetterClosure (id : Int) (lastError : Str) (failedAt : Int) : Sql Unit :=
  transaction .storage do
    let _ ← statement .storage fun db => ((), db.copyToDeadLetter id lastError failedAt)
    let _ ← statement .storage fun db => ((), db.deleteOutbox id)
    commit .storage

/-- The closure of `reschedule`. -/
def rescheduleClosure (id : Int) (attempts : UInt32) (nextAttemptAt : Int) : Sql Unit :=
  statement .storage fun db => ((), reschedule id attempts nextAttemptAt db)

theorem refines_enqueue (maxLen : Nat) (message : Message) (createdAt : Int) :
    Refines .storage (enqueueClosure maxLen message createdAt)
      (enqueue maxLen message createdAt) := by
  have hinsert : Refines .storage (insertStatement message createdAt)
      (fun db => .ok (db.outboxSeq + 1, db.insertOutbox message.columns createdAt)) :=
    refines_statement _
  rw [enqueueClosure]
  by_cases hpos : 0 < maxLen
  · rw [if_pos hpos]
    have hspec : enqueue maxLen message createdAt = fun db =>
        if maxLen ≤ db.outbox.length then .error .queueFull
        else .ok (db.outboxSeq + 1, db.insertOutbox message.columns createdAt) := by
      funext db
      simp [enqueue, Db.full, hpos]
    rw [hspec]
    refine refines_query_bind (g := fun (count : Nat) (db : Db) =>
      if maxLen ≤ count then .error ChimneyError.queueFull
      else .ok (db.outboxSeq + 1, db.insertOutbox message.columns createdAt)) ?_
    intro count
    by_cases hfull : maxLen ≤ count
    · simp only [if_pos hfull]
      exact refines_fail ChimneyError.queueFull
    · simp only [if_neg hfull]
      exact hinsert
  · rw [if_neg hpos]
    have hspec : enqueue maxLen message createdAt = fun db =>
        .ok (db.outboxSeq + 1, db.insertOutbox message.columns createdAt) := by
      funext db
      simp [enqueue, Db.full, hpos]
    rw [hspec]
    exact hinsert

theorem refines_remove (id : Int) :
    Refines .storage (removeClosure id) (fun db => .ok ((), markDelivered id db)) := by
  exact refines_statement _

theorem refines_reschedule (id : Int) (attempts : UInt32) (nextAttemptAt : Int) :
    Refines .storage (rescheduleClosure id attempts nextAttemptAt)
      (fun db => .ok ((), reschedule id attempts nextAttemptAt db)) := by
  exact refines_statement _

/-- The copy and the deletion are one piece. -/
theorem refines_deadLetter (id : Int) (lastError : Str) (failedAt : Int) :
    Refines .storage (deadLetterClosure id lastError failedAt)
      (fun db => .ok ((), deadLetter id lastError failedAt db)) := by
  have hdelete : Commits ChimneyError.storage
      (do
        let _ ← statement .storage fun db => ((), db.deleteOutbox id)
        commit .storage : Sql Unit)
      (fun db => ((), db.deleteOutbox id)) :=
    (stages_statement _).bind_commits fun _ => commits_commit
  have hbody : Commits ChimneyError.storage
      (do
        let _ ← statement .storage fun db =>
          ((), db.copyToDeadLetter id lastError failedAt)
        let _ ← statement .storage fun db => ((), db.deleteOutbox id)
        commit .storage : Sql Unit)
      (fun db => ((), (db.copyToDeadLetter id lastError failedAt).deleteOutbox id)) :=
    (stages_statement _).bind_commits fun _ => hdelete
  exact refines_transaction hbody

end MessageStore

/-! ## Calls -/

/-- The store its clones share. -/
structure Store where
  connection : Connection Db Str
  permit : Bool

/-- The committed tables. -/
def Store.tables (store : Store) : Db :=
  store.connection.committed

/-- `MessageStore::with_conn`; `join` is the error of the blocking task, if it fails. -/
def Store.withConn {α : Type} (join : Option Str) (f : Sql α) (store : Store) :
    Except ChimneyError α × Store :=
  match join with
  | some text => (.error (.queue ("storage task failed: ".toList ++ text)), store)
  | none => ((f store.connection).1, { store with connection := (f store.connection).2 })

/-- `MessageStore::enqueue`. -/
def Store.enqueue (maxLen : Nat) (message : Message) (createdAt : Int)
    (join : Option Str) (store : Store) : Except ChimneyError Int × Store :=
  match store.withConn join (MessageStore.enqueueClosure maxLen message createdAt) with
  | (.ok id, store') => (.ok id, { store' with permit := true })
  | (.error e, store') => (.error e, store')

/-- `MessageStore::mark_delivered`. -/
def Store.markDelivered (id : Int) (join : Option Str) (store : Store) :
    Except ChimneyError Unit × Store :=
  store.withConn join (MessageStore.removeClosure id)

/-- `MessageStore::dead_letter`. -/
def Store.deadLetter (id : Int) (lastError : Str) (failedAt : Int) (join : Option Str)
    (store : Store) : Except ChimneyError Unit × Store :=
  store.withConn join (MessageStore.deadLetterClosure id lastError failedAt)

/-- `MessageStore::reschedule`. -/
def Store.reschedule (id : Int) (attempts : UInt32) (nextAttemptAt : Int)
    (join : Option Str) (store : Store) : Except ChimneyError Unit × Store :=
  store.withConn join (MessageStore.rescheduleClosure id attempts nextAttemptAt)

/-- How a call that is to do `f` may end: with `f` done, or with nothing done. -/
structure Ends {α : Type} (f : Db → Except ChimneyError (α × Db)) (store : Store)
    (result : Except ChimneyError α × Store) : Prop where
  closed : result.2.connection.staged = none
  outcome :
    (∃ a db, f store.tables = .ok (a, db) ∧ result.1 = .ok a ∧ result.2.tables = db) ∨
    (∃ e, result.1 = .error e ∧ result.2.tables = store.tables ∧
      result.2.permit = store.permit ∧
      (f store.tables = .error e ∨ ChimneyError.isStorageFailure e = true))

theorem ends_withConn {α : Type} {p : Sql α} {f : Db → Except ChimneyError (α × Db)}
    (hp : Refines .storage p f) (join : Option Str) {store : Store}
    (hclosed : store.connection.staged = none) :
    Ends f store (store.withConn join p) := by
  cases join with
  | some text =>
      refine ⟨hclosed, Or.inr ⟨_, rfl, rfl, rfl, Or.inr rfl⟩⟩
  | none =>
      have hends := hp store.connection hclosed
      refine ⟨hends.closed, ?_⟩
      rcases hends.outcome with hok | ⟨e, hf, hresult, htables⟩ | ⟨⟨fault, _, hresult⟩, htables⟩
      · exact Or.inl hok
      · exact Or.inr ⟨e, hresult, htables, rfl, Or.inl hf⟩
      · exact Or.inr ⟨.storage fault, hresult, htables, rfl, Or.inr rfl⟩

/-- The notification comes after the commit and with it. -/
theorem ends_enqueue (maxLen : Nat) (message : Message) (createdAt : Int)
    (join : Option Str) {store : Store} (hclosed : store.connection.staged = none) :
    Ends (MessageStore.enqueue maxLen message createdAt) store
      (store.enqueue maxLen message createdAt join) := by
  have hends := ends_withConn (MessageStore.refines_enqueue maxLen message createdAt)
    join hclosed
  rw [Store.enqueue]
  cases hrun : store.withConn join (MessageStore.enqueueClosure maxLen message createdAt) with
  | mk result store' =>
      rw [hrun] at hends
      cases result with
      | error e => exact hends
      | ok id =>
          refine ⟨hends.closed, ?_⟩
          rcases hends.outcome with hok | ⟨e, hresult, _⟩
          · exact Or.inl hok
          · cases hresult

/-! ## Every end of a call is an event of the system -/

section Events

variable {s : System} {store : Store}

/-- The closure of a session's `enqueue`, once it has the connection. -/
theorem enqueue_step {t : Nat} {message : Message} {createdAt : Int} {live : Bool}
    (hclosed : store.connection.staged = none) (htables : store.tables = s.db)
    (hawaiting : s.tasks t = .awaiting message createdAt live) (join : Option Str) :
    let result := store.withConn join
      (MessageStore.enqueueClosure s.maxLen message createdAt)
    (∃ id s', result.1 = .ok id ∧ step s (.insert t message createdAt live id) = some s' ∧
      result.2.tables = s'.db) ∨
    (∃ error s', result.1 = .error error ∧
      step s (.refuse t message createdAt live error) = some s' ∧
      result.2.tables = s'.db) := by
  intro result
  have hends := ends_withConn (MessageStore.refines_enqueue s.maxLen message createdAt)
    join hclosed
  rcases hends.outcome with ⟨id, db, hspec, hresult, hdb⟩ | ⟨e, hresult, hdb, _, hwhy⟩
  · left
    rw [htables] at hspec
    obtain ⟨hroom, rfl, rfl⟩ := MessageStore.enqueue_eq_ok.mp hspec
    exact ⟨_, _, hresult, step_insert.mpr ⟨hawaiting, hroom, rfl, rfl⟩, hdb⟩
  · right
    refine ⟨e, _, hresult, step_refuse.mpr ⟨⟨hawaiting, ?_⟩, rfl⟩, hdb.trans htables⟩
    rcases hwhy with hspec | hfailure
    · left
      rw [htables] at hspec
      unfold MessageStore.enqueue at hspec
      split_ifs at hspec with hfull
      exact ⟨(Except.error.inj hspec).symm, hfull⟩
    · exact Or.inr hfailure

/-- The write the worker is about to make, with the event of its success. -/
def WorkerPc.pendingWrite (failedAt : Int) : WorkerPc → Option (Sql Unit × Event)
  | .marking id => some (MessageStore.removeClosure id, .markDelivered id)
  | .deadLettering id lastError =>
      some (MessageStore.deadLetterClosure id lastError failedAt,
        .deadLetter id lastError failedAt)
  | .rescheduling id attempts nextAttemptAt =>
      some (MessageStore.rescheduleClosure id attempts nextAttemptAt,
        .reschedule id attempts nextAttemptAt)
  | _ => none

theorem refines_pendingWrite {failedAt : Int} {closure : Sql Unit} {e : Event}
    (h : s.worker.pendingWrite failedAt = some (closure, e)) :
    Refines .storage closure (fun db => .ok ((), e.change.apply db)) ∧
      (∃ s', step s e = some s') ∧ s.worker.writing = true := by
  cases hpc : s.worker with
  | marking id =>
      rw [hpc] at h
      obtain ⟨rfl, rfl⟩ := Prod.mk.inj (Option.some.inj h)
      exact ⟨MessageStore.refines_remove id, ⟨_, step_markDelivered.mpr ⟨hpc, rfl⟩⟩, rfl⟩
  | deadLettering id lastError =>
      rw [hpc] at h
      obtain ⟨rfl, rfl⟩ := Prod.mk.inj (Option.some.inj h)
      exact ⟨MessageStore.refines_deadLetter id lastError failedAt,
        ⟨_, step_deadLetter.mpr ⟨hpc, rfl⟩⟩, rfl⟩
  | rescheduling id attempts next =>
      rw [hpc] at h
      obtain ⟨rfl, rfl⟩ := Prod.mk.inj (Option.some.inj h)
      exact ⟨MessageStore.refines_reschedule id attempts next,
        ⟨_, step_reschedule.mpr ⟨hpc, rfl⟩⟩, rfl⟩
  | _ =>
      rw [hpc] at h
      cases h

/-- A write of the worker succeeds as its event says or is a `writeError`. -/
theorem write_step {failedAt : Int} {closure : Sql Unit} {e : Event}
    (hclosed : store.connection.staged = none) (htables : store.tables = s.db)
    (hpending : s.worker.pendingWrite failedAt = some (closure, e)) (join : Option Str) :
    let result := store.withConn join closure
    (∃ s', result.1 = .ok () ∧ step s e = some s' ∧ result.2.tables = s'.db) ∨
    (∃ error s', result.1 = .error error ∧ step s .writeError = some s' ∧
      result.2.tables = s'.db) := by
  intro result
  obtain ⟨hrefines, ⟨s', hstep⟩, hwriting⟩ := refines_pendingWrite hpending
  have hends := ends_withConn hrefines join hclosed
  rcases hends.outcome with ⟨_, db, hspec, hresult, hdb⟩ | ⟨error, hresult, hdb, _⟩
  · left
    obtain ⟨_, rfl⟩ := Prod.mk.inj (Except.ok.inj hspec)
    refine ⟨s', hresult, hstep, ?_⟩
    rw [step_db hstep, ← htables]
    exact hdb
  · right
    exact ⟨error, _, hresult, step_writeError.mpr ⟨hwriting, rfl⟩, hdb.trans htables⟩

end Events

end Queue
end ChimneyPost
