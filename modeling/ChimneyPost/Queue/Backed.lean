import ChimneyPost.Queue.System

/-!
# The row in the worker's hands

Between a claim and the write that ends it, the worker works on one outbox row.
No session deletes or changes a row, so the row it works on is there, with the
contents it read (`Backed`), until the worker itself writes.
-/

namespace ChimneyPost
namespace Queue

/-- The row whose delivery is under way, from the sink's call to the write. -/
def WorkerPc.holding : WorkerPc → Option Int
  | .delivering stored _ => some stored.id
  | .marking id => some id
  | .deadLettering id _ => some id
  | .rescheduling id _ _ => some id
  | _ => none

/-- The events of a delivery, and the two that cut one short. -/
def Event.onRow : Event → Bool
  | .deliver _ _ => true
  | .sinkOk _ _ => true
  | .sinkErr _ _ _ => true
  | .markDelivered _ => true
  | .deadLetter _ _ _ => true
  | .reschedule _ _ _ => true
  | .writeError => true
  | .crash _ _ => true
  | _ => false

theorem holding_of_isParked {pc : WorkerPc} (h : pc.isParked = true) :
    pc.holding = none := by
  cases pc with
  | parked now wakeup => rfl
  | _ => cases h

/-- All other events leave the worker where it is or find and leave it idle. -/
theorem step_aside {s t : System} {e : Event} (hstep : step s e = some t)
    (h : e.onRow = false) :
    t.config = s.config ∧
      (t.worker = s.worker ∨
        s.worker.holding = none ∧ t.worker.holding = none) := by
  cases e with
  | nothingDue now =>
      obtain ⟨hpc, rfl⟩ := step_nothingDue.mp hstep
      refine ⟨rfl, Or.inr ⟨by rw [hpc]; rfl, ?_⟩⟩
      cases s.shutdown <;> rfl
  | backoffElapsed =>
      obtain ⟨hpc, rfl⟩ := step_backoffElapsed.mp hstep
      refine ⟨rfl, Or.inr ⟨by rw [hpc]; rfl, ?_⟩⟩
      cases s.shutdown <;> rfl
  | wakeNotified =>
      obtain ⟨⟨hpc, _⟩, rfl⟩ := step_wakeNotified.mp hstep
      exact ⟨rfl, Or.inr ⟨holding_of_isParked hpc, rfl⟩⟩
  | wakeSlept =>
      obtain ⟨hpc, rfl⟩ := step_wakeSlept.mp hstep
      exact ⟨rfl, Or.inr ⟨holding_of_isParked hpc, rfl⟩⟩
  | wakeShutdown =>
      obtain ⟨⟨hpc, _⟩, rfl⟩ := step_wakeShutdown.mp hstep
      exact ⟨rfl, Or.inr ⟨holding_of_isParked hpc, rfl⟩⟩
  | enqueue => simp at hstep; simp [hstep]
  | insert => simp at hstep; simp [hstep]
  | refuse => simp at hstep; simp [hstep]
  | notify => simp at hstep; simp [hstep]
  | cancel => simp at hstep; simp [hstep]
  | setShutdown => simp at hstep; simp [hstep]
  | claim => simp at hstep; simp [hstep, WorkerPc.holding]
  | claimError => simp at hstep; simp [hstep, WorkerPc.holding]
  | nextWakeup => simp at hstep; simp [hstep, WorkerPc.holding]
  | nextWakeupError => simp at hstep; simp [hstep, WorkerPc.holding]
  | backoffInterrupted => simp at hstep; simp [hstep, WorkerPc.holding]
  | _ => simp [Event.onRow] at h

/-- The row the worker has read is in the outbox as it was read. -/
def WorkerPc.Backed (db : Db) : WorkerPc → Prop
  | .claimed now (some stored) =>
      ∃ r ∈ db.outbox, rowToStored r = stored ∧ r.nextAttemptAt ≤ now
  | .delivering stored _ => ∃ r ∈ db.outbox, rowToStored r = stored
  | .marking id => ∃ r ∈ db.outbox, r.id = id
  | .deadLettering id _ => ∃ r ∈ db.outbox, r.id = id
  | .rescheduling id attempts _ =>
      ∃ r ∈ db.outbox, r.id = id ∧ asU32 r.attempts + 1 = attempts
  | _ => True

/-- Rows that stay keep the worker backed. -/
theorem WorkerPc.Backed.mono {db db' : Db} {pc : WorkerPc}
    (h : pc.Backed db) (hsub : ∀ r ∈ db.outbox, r ∈ db'.outbox) :
    pc.Backed db' := by
  cases pc with
  | claimed now result =>
      cases result with
      | none => trivial
      | some stored =>
          obtain ⟨r, hr, hrest⟩ := h
          exact ⟨r, hsub r hr, hrest⟩
  | delivering stored now =>
      obtain ⟨r, hr, hrest⟩ := h
      exact ⟨r, hsub r hr, hrest⟩
  | marking id =>
      obtain ⟨r, hr, hrest⟩ := h
      exact ⟨r, hsub r hr, hrest⟩
  | deadLettering id text =>
      obtain ⟨r, hr, hrest⟩ := h
      exact ⟨r, hsub r hr, hrest⟩
  | rescheduling id attempts next =>
      obtain ⟨r, hr, hrest⟩ := h
      exact ⟨r, hsub r hr, hrest⟩
  | _ => trivial

theorem backed_handleFailure {db : Db} {w : DeliveryWorker}
    {stored : StoredMessage} {now : Int} {error : ChimneyError}
    (h : (WorkerPc.delivering stored now).Backed db) :
    (w.handleFailure stored now error).Backed db := by
  obtain ⟨r, hr, rfl⟩ := h
  rcases handleFailure_cases w (rowToStored r) now error with
    ⟨_, hpc⟩ | ⟨_, hpc⟩
  · rw [hpc]
    exact ⟨r, hr, rfl⟩
  · rw [hpc]
    exact ⟨r, hr, rfl, rfl⟩

theorem backed_step {s t : System} {e : Event}
    (h : s.worker.Backed s.db) (hstep : step s e = some t) :
    t.worker.Backed t.db := by
  cases e with
  | insert u message createdAt live id =>
      obtain ⟨_, _, _, rfl⟩ := step_insert.mp hstep
      apply h.mono
      intro r hr
      exact Db.mem_insertOutbox.mpr (Or.inl hr)
  | claim now result =>
      obtain ⟨⟨_, hclaim⟩, rfl⟩ := step_claim.mp hstep
      cases result with
      | none => trivial
      | some stored =>
          obtain ⟨r, hr, hstored, hdue, _⟩ :=
            MessageStore.claimNextReady_eq_some hclaim
          exact ⟨r, hr, hstored, hdue⟩
  | deliver stored now =>
      obtain ⟨hpc, rfl⟩ := step_deliver.mp hstep
      rw [hpc] at h
      obtain ⟨r, hr, hstored, _⟩ := h
      exact ⟨r, hr, hstored⟩
  | sinkOk stored now =>
      obtain ⟨hpc, rfl⟩ := step_sinkOk.mp hstep
      rw [hpc] at h
      obtain ⟨r, hr, rfl⟩ := h
      exact ⟨r, hr, rfl⟩
  | sinkErr stored now error =>
      obtain ⟨hpc, rfl⟩ := step_sinkErr.mp hstep
      rw [hpc] at h
      exact backed_handleFailure h
  | nothingDue now =>
      obtain ⟨_, rfl⟩ := step_nothingDue.mp hstep
      cases hs : s.shutdown <;> trivial
  | backoffElapsed =>
      obtain ⟨_, rfl⟩ := step_backoffElapsed.mp hstep
      cases hs : s.shutdown <;> trivial
  | enqueue => simp at hstep; simpa [hstep] using h
  | refuse => simp at hstep; simpa [hstep] using h
  | notify => simp at hstep; simpa [hstep] using h
  | cancel => simp at hstep; simpa [hstep] using h
  | setShutdown => simp at hstep; simpa [hstep] using h
  | _ => simp at hstep; simp [hstep, WorkerPc.Backed, System.start]

theorem run_backed {s₀ s : System} {es : List Event}
    (h₀ : s₀.worker.Backed s₀.db) (hrun : run s₀ es = some s) :
    s.worker.Backed s.db := by
  refine Replay.replay_invariant (I := fun _ s => s.worker.Backed s.db)
    h₀ ?_ hrun
  intro _ s e t _ hI hstep
  exact backed_step hI hstep

/-- A process that has just started works on no row. -/
theorem backed_start (config : DeliveryWorker) (maxLen : Nat) (db : Db) :
    (System.start config maxLen db).worker.Backed (System.start config maxLen db).db := by
  trivial

/-- A row the worker holds is in the outbox. -/
theorem WorkerPc.Backed.exists_row {db : Db} {pc : WorkerPc} {id : Int}
    (h : pc.Backed db) (hid : pc.holding = some id) :
    ∃ r ∈ db.outbox, r.id = id := by
  cases pc with
  | delivering stored now =>
      obtain ⟨r, hr, rfl⟩ := h
      exact ⟨r, hr, Option.some.inj hid⟩
  | marking id' =>
      obtain ⟨r, hr, hrid⟩ := h
      exact ⟨r, hr, hrid.trans (Option.some.inj hid)⟩
  | deadLettering id' text =>
      obtain ⟨r, hr, hrid⟩ := h
      exact ⟨r, hr, hrid.trans (Option.some.inj hid)⟩
  | rescheduling id' attempts next =>
      obtain ⟨r, hr, hrid, _⟩ := h
      exact ⟨r, hr, hrid.trans (Option.some.inj hid)⟩
  | _ => cases hid

end Queue
end ChimneyPost
