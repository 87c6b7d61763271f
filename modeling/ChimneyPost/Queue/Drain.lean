import ChimneyPost.Queue.Budget

/-!
# The drain at shutdown

With `shutdown` set, `DeliveryWorker::run` sends what is due until a claim finds
nothing, and returns.  Here it is driven alone, by an arbitrary sequence of clock
readings and sink results (`drive`).

The budgets of the rows bound the sends, as long as the attempt counter can count:
`stored.attempts + 1` is a `u32` addition, and a counter at `u32::MAX` wraps to
zero and starts the retries afresh.  `drain_ends_iff` is the exact condition.
-/

namespace ChimneyPost
namespace Queue

/-- What the clock and the sink answer at one step of the worker. -/
structure Answer where
  now : Int
  outcome : Except ChimneyError Unit
  failedAt : Int

/-- The next step of a worker whose store calls succeed; it stops when it is told
to before it parks. -/
def System.drainEvent (s : System) (answer : Answer) : Option Event :=
  match s.worker with
  | .loopTop =>
      some (.claim answer.now (MessageStore.claimNextReady answer.now s.db))
  | .claimed now (some stored) => some (.deliver stored now)
  | .claimed now none => some (.nothingDue now)
  | .delivering stored now =>
      match answer.outcome with
      | .ok () => some (.sinkOk stored now)
      | .error error => some (.sinkErr stored now error)
  | .marking id => some (.markDelivered id)
  | .deadLettering id lastError => some (.deadLetter id lastError answer.failedAt)
  | .rescheduling id attempts next => some (.reschedule id attempts next)
  | .idleWaiting _ => none
  | .parked _ _ => none
  | .storageBackoff => none
  | .stopped => none

/-- The first `n` steps of the worker. -/
def drive (answers : Nat → Answer) : Nat → System → List Event
  | 0, _ => []
  | n + 1, s =>
      match s.drainEvent (answers 0) with
      | none => []
      | some e =>
          match step s e with
          | none => []
          | some t => e :: drive (fun k => answers (k + 1)) n t

/-- A worker at the top of its loop that has been told to stop. -/
def draining (w : DeliveryWorker) (maxLen : Nat) (db : Db) : System :=
  { System.start w maxLen db with shutdown := true }

/-- The sum over the outbox of `max(1, max_retries + 1 - attempts)`. -/
def Db.budget (maxRetries : UInt32) (db : Db) : Nat :=
  db.total (fun r => sendBudget maxRetries (asU32 r.attempts))

/-- The drain returns within the budget, after a claim that found nothing due, and
leaves only rows parked beyond the clock of that claim. -/
def DrainEnds (w : DeliveryWorker) (db : Db) : Prop :=
  ∀ (maxLen : Nat) (answers : Nat → Answer), ∃ n t,
    run (draining w maxLen db) (drive answers n (draining w maxLen db)) = some t ∧
    t.worker = .stopped ∧
    sends (fun _ => true) (drive answers n (draining w maxLen db)) ≤
      db.budget w.maxRetries ∧
    ∃ pre now,
      drive answers n (draining w maxLen db) =
        pre ++ [.claim now none, .nothingDue now] ∧
      ∀ r ∈ t.db.outbox, now < r.nextAttemptAt

theorem budget_eq_total (m : UInt32) (db : Db) :
    db.budget m = db.total (rowBudget m (fun _ => true)) := by
  rfl

/-! ## The steps of a drive -/

section Drive

variable {s t : System} {e : Event} {answers : Nat → Answer}

theorem drive_succ {n : Nat} (hnext : s.drainEvent (answers 0) = some e)
    (hstep : step s e = some t) :
    drive answers (n + 1) s = e :: drive (fun k => answers (k + 1)) n t := by
  simp only [drive, hnext, hstep]

/-- A drive is a run, and each of its events is the worker's next. -/
theorem drive_run (n : Nat) (s : System) (answers : Nat → Answer) :
    (∃ t, run s (drive answers n s) = some t) ∧
      Replay.StepsMeet step (fun s e => ∃ k, s.drainEvent (answers k) = some e) s
        (drive answers n s) := by
  induction n generalizing s answers with
  | zero =>
      exact ⟨⟨s, rfl⟩, .nil⟩
  | succ n ih =>
      cases hnext : s.drainEvent (answers 0) with
      | none =>
          simp only [drive, hnext]
          exact ⟨⟨s, rfl⟩, .nil⟩
      | some e =>
          cases hstep : step s e with
          | none =>
              simp only [drive, hnext, hstep]
              exact ⟨⟨s, rfl⟩, .nil⟩
          | some t =>
              rw [drive_succ hnext hstep]
              obtain ⟨⟨u, hrun⟩, hmeet⟩ := ih t (fun k => answers (k + 1))
              refine ⟨⟨u, Replay.replay_cons_eq_some.mpr ⟨t, hstep, hrun⟩⟩, ?_⟩
              refine .cons ⟨0, hnext⟩ hstep ?_
              intro pre f post v heq hpre
              obtain ⟨k, hk⟩ := hmeet pre f post v heq hpre
              exact ⟨k + 1, hk⟩

end Drive

/-! ## The drain ends -/

/-- The worker is on its way from a claim to the next, or has stopped. -/
def WorkerPc.awake : WorkerPc → Bool
  | .idleWaiting _ => false
  | .parked _ _ => false
  | .storageBackoff => false
  | _ => true

/-- No counter of the outbox wraps at its next failure, nor at any later one. -/
def CountersFit (maxRetries : UInt32) (db : Db) : Prop :=
  ∀ r ∈ db.outbox, maxRetries.toNat < 4294967295 ∧
    (asU32 r.attempts).toNat < 4294967295

/-- The worker was told to stop and works on rows that are there. -/
structure Draining (s : System) : Prop where
  shutdown : s.shutdown = true
  awake : s.worker.awake = true
  backed : s.worker.Backed s.db
  counted : Counted s
  fit : CountersFit s.config.maxRetries s.db

/-- A bound on the steps the worker takes before it has stopped. -/
def System.stepsLeft (s : System) : Nat :=
  match s.worker with
  | .stopped => 0
  | .claimed _ none => 1
  | .loopTop => 4 * s.db.budget s.config.maxRetries + 2
  | .claimed _ (some _) => 4 * s.db.budget s.config.maxRetries + 1
  | .delivering _ _ => 4 * s.db.budget s.config.maxRetries
  | _ => 4 * s.db.budget s.config.maxRetries - 1

section Ends

variable {s t : System} {e : Event}

theorem draining_start {w : DeliveryWorker} (maxLen : Nat) {db : Db}
    (hfit : CountersFit w.maxRetries db) : Draining (draining w maxLen db) := by
  refine ⟨rfl, rfl, trivial, ?_, hfit⟩
  simp [Counted, draining, System.start]

/-- Every row is worth at least one send. -/
theorem one_le_budget {m : UInt32} {db : Db} {r : OutboxRow} (hr : r ∈ db.outbox) :
    1 ≤ db.budget m := by
  have hle := Db.le_total (f := fun r => sendBudget m (asU32 r.attempts)) hr
  have hpos := sendBudget_pos m (asU32 r.attempts)
  exact le_trans hpos hle

theorem CountersFit.of_removed {m : UInt32} {db db' : Db} {id : Int}
    (h : CountersFit m db)
    (hmem : ∀ r, r ∈ db'.outbox ↔ r ∈ db.outbox ∧ r.id ≠ id) : CountersFit m db' := by
  intro r hr
  exact h r ((hmem r).mp hr).1

/-- A retry that is scheduled leaves a counter that can be incremented. -/
theorem CountersFit.reschedule {m a : UInt32} {db : Db} {r : OutboxRow} {next : Int}
    (h : CountersFit m db) (hr : r ∈ db.outbox) (hle : a.toNat ≤ m.toNat) :
    CountersFit m (MessageStore.reschedule r.id a next db) := by
  obtain ⟨hm, _⟩ := h r hr
  intro q hq
  obtain ⟨q', hq', rfl⟩ := MessageStore.mem_reschedule.mp hq
  refine ⟨hm, ?_⟩
  by_cases hid : q'.id = r.id
  · simp only [Db.setSchedule, hid, if_true, asU32_toNat]
    omega
  · simpa [Db.setSchedule, hid] using (h q' hq').2

/-- The write that ends a delivery takes at least one from the budget. -/
theorem budget_removed_lt {m : UInt32} {db db' : Db} {r : OutboxRow}
    (htotal : db'.budget m + sendBudget m (asU32 r.attempts) = db.budget m) :
    db'.budget m < db.budget m := by
  have hpos := sendBudget_pos m (asU32 r.attempts)
  omega

theorem budget_reschedule_lt {m a : UInt32} {db : Db} {r : OutboxRow} (next : Int)
    (hr : r ∈ db.outbox) (hsucc : asU32 r.attempts + 1 = a)
    (hpos : 1 ≤ a.toNat) (hle : a.toNat ≤ m.toNat) :
    (MessageStore.reschedule r.id a next db).budget m < db.budget m := by
  have htotal := Db.total_reschedule
    (f := fun r => sendBudget m (asU32 r.attempts)) hr a next
  have hrow : (Db.setSchedule r.id a next r).attempts = a.toNat := by
    simp [Db.setSchedule]
  have hval := attempts_succ_toNat (asU32 r.attempts)
  have hlt := (asU32 r.attempts).toNat_lt
  rw [hsucc] at hval
  have hretry : sendBudget m a + 1 = sendBudget m (asU32 r.attempts) :=
    sendBudget_retry (by omega) hle
  simp only [hrow, asU32_toNat] at htotal
  unfold Db.budget
  omega

/-- A draining worker that has not stopped takes a step, and has fewer left. -/
theorem drain_step (h : Draining s) (hgo : s.worker ≠ .stopped) (answer : Answer) :
    ∃ e t, s.drainEvent answer = some e ∧ step s e = some t ∧ Draining t ∧
      t.config = s.config ∧ Metered s e ∧ t.stepsLeft < s.stepsLeft := by
  have hbacked := h.backed
  cases hpc : s.worker with
  | loopTop =>
      cases hclaim : MessageStore.claimNextReady answer.now s.db with
      | none =>
          refine ⟨.claim answer.now none, { s with worker := .claimed answer.now none },
            by simp [System.drainEvent, hpc, hclaim], by simp [hpc, hclaim],
            ⟨h.shutdown, rfl, trivial, by simp [Counted], h.fit⟩, rfl, trivial, ?_⟩
          simp [System.stepsLeft, hpc]
      | some stored =>
          have hstep : step s (.claim answer.now (some stored)) =
              some { s with worker := .claimed answer.now (some stored) } := by
            simp [hpc, hclaim]
          refine ⟨.claim answer.now (some stored), _,
            by simp [System.drainEvent, hpc, hclaim], hstep,
            ⟨h.shutdown, rfl, backed_step hbacked hstep, by simp [Counted], h.fit⟩,
            rfl, trivial, ?_⟩
          simp [System.stepsLeft, hpc]
  | claimed now result =>
      cases result with
      | none =>
          refine ⟨.nothingDue now, { s with worker := .stopped },
            by simp [System.drainEvent, hpc], by simp [hpc, h.shutdown],
            ⟨h.shutdown, rfl, trivial, by simp [Counted], h.fit⟩, rfl, trivial, ?_⟩
          simp [System.stepsLeft, hpc]
      | some stored =>
          have hstep : step s (.deliver stored now) =
              some { s with worker := .delivering stored now } := by
            simp [hpc]
          refine ⟨.deliver stored now, _, by simp [System.drainEvent, hpc], hstep,
            ⟨h.shutdown, rfl, backed_step hbacked hstep, by simp [Counted], h.fit⟩,
            rfl, trivial, ?_⟩
          simp [System.stepsLeft, hpc]
  | delivering stored now =>
      rw [hpc] at hbacked
      obtain ⟨r, hr, rfl⟩ := hbacked
      have hone := one_le_budget (m := s.config.maxRetries) hr
      have hlt := (h.fit r hr).2
      cases hout : answer.outcome with
      | ok u =>
          have hstep : step s (.sinkOk (rowToStored r) now) =
              some { s with worker := .marking r.id } := by
            simp [hpc, rowToStored]
          refine ⟨.sinkOk (rowToStored r) now, _,
            by simp [System.drainEvent, hpc, hout], hstep,
            ⟨h.shutdown, rfl, backed_step h.backed hstep, by simp [Counted], h.fit⟩,
            rfl, trivial, ?_⟩
          simp only [System.stepsLeft, hpc]
          omega
      | error error =>
          have hstep : step s (.sinkErr (rowToStored r) now error) =
              some { s with
                worker := s.config.handleFailure (rowToStored r) now error } := by
            simp [hpc]
          have hback := backed_step h.backed hstep
          have hsucc := attempts_succ_of_lt hlt
          refine ⟨.sinkErr (rowToStored r) now error, _,
            by simp [System.drainEvent, hpc, hout], hstep, ?_, rfl, hlt, ?_⟩
          · rcases handleFailure_cases s.config (rowToStored r) now error with
              ⟨_, hnext⟩ | ⟨hretry, hnext⟩
            · exact ⟨h.shutdown, by simp [hnext, WorkerPc.awake], hback,
                by simp [Counted, hnext], h.fit⟩
            · refine ⟨h.shutdown, by simp [hnext, WorkerPc.awake], hback, ?_, h.fit⟩
              intro id a n hw
              simp only [hnext, WorkerPc.rescheduling.injEq] at hw
              obtain ⟨_, rfl, _⟩ := hw
              rw [UInt32.le_iff_toNat_le] at hretry
              refine ⟨?_, hretry⟩
              show 1 ≤ (asU32 r.attempts + 1).toNat
              omega
          · rcases handleFailure_cases s.config (rowToStored r) now error with
              ⟨_, hnext⟩ | ⟨_, hnext⟩
            · simp only [System.stepsLeft, hpc, hnext]
              omega
            · simp only [System.stepsLeft, hpc, hnext]
              omega
  | marking id =>
      rw [hpc] at hbacked
      obtain ⟨r, hr, rfl⟩ := hbacked
      have hlt := budget_removed_lt (m := s.config.maxRetries) (Db.total_markDelivered hr)
      refine ⟨.markDelivered r.id, _, by simp [System.drainEvent, hpc],
        step_markDelivered.mpr ⟨hpc, rfl⟩,
        ⟨h.shutdown, rfl, trivial, by simp [Counted], ?_⟩, rfl, trivial, ?_⟩
      · exact h.fit.of_removed (fun _ => MessageStore.mem_markDelivered)
      · simp only [System.stepsLeft, hpc]
        omega
  | deadLettering id text =>
      rw [hpc] at hbacked
      obtain ⟨r, hr, rfl⟩ := hbacked
      have hlt := budget_removed_lt (m := s.config.maxRetries)
        (Db.total_deadLetter hr text answer.failedAt)
      refine ⟨.deadLetter r.id text answer.failedAt, _, by simp [System.drainEvent, hpc],
        step_deadLetter.mpr ⟨hpc, rfl⟩,
        ⟨h.shutdown, rfl, trivial, by simp [Counted], ?_⟩, rfl, trivial, ?_⟩
      · exact h.fit.of_removed (fun _ => MessageStore.mem_deadLetter)
      · simp only [System.stepsLeft, hpc]
        omega
  | rescheduling id a next =>
      rw [hpc] at hbacked
      obtain ⟨r, hr, rfl, hsucc⟩ := hbacked
      obtain ⟨hpos, hle⟩ := h.counted _ _ _ hpc
      have hlt := budget_reschedule_lt next hr hsucc hpos hle
      refine ⟨.reschedule r.id a next, _, by simp [System.drainEvent, hpc],
        step_reschedule.mpr ⟨hpc, rfl⟩,
        ⟨h.shutdown, rfl, trivial, by simp [Counted], ?_⟩, rfl, trivial, ?_⟩
      · exact h.fit.reschedule hr hle
      · simp only [System.stepsLeft, hpc]
        omega
  | stopped => exact absurd hpc hgo
  | idleWaiting => exact absurd h.awake (by simp [hpc, WorkerPc.awake])
  | parked => exact absurd h.awake (by simp [hpc, WorkerPc.awake])
  | storageBackoff => exact absurd h.awake (by simp [hpc, WorkerPc.awake])

/-- A draining worker stops, whatever the clock and the sink answer. -/
theorem drive_stops (h : Draining s) (answers : Nat → Answer) :
    ∃ n t, run s (drive answers n s) = some t ∧ t.worker = .stopped ∧
      Replay.StepsMeet step Metered s (drive answers n s) := by
  induction hk : s.stepsLeft using Nat.strong_induction_on generalizing s answers with
  | _ k ih =>
      by_cases hgo : s.worker = .stopped
      · exact ⟨0, s, rfl, hgo, .nil⟩
      · obtain ⟨e, u, hnext, hstep, hu, _, hmeter, hlt⟩ := drain_step h hgo (answers 0)
        obtain ⟨n, t, hrun, hstop, hmeet⟩ :=
          ih u.stepsLeft (hk ▸ hlt) hu (fun k => answers (k + 1)) rfl
        refine ⟨n + 1, t, ?_, hstop, ?_⟩
        · rw [drive_succ hnext hstep]
          exact Replay.replay_cons_eq_some.mpr ⟨u, hstep, hrun⟩
        · rw [drive_succ hnext hstep]
          exact .cons hmeter hstep hmeet

/-- The events of a drain. -/
def Event.drains : Event → Bool
  | .claim _ _ => true
  | .deliver _ _ => true
  | .sinkOk _ _ => true
  | .sinkErr _ _ _ => true
  | .markDelivered _ => true
  | .deadLetter _ _ _ => true
  | .reschedule _ _ _ => true
  | .nothingDue _ => true
  | _ => false

/-- What the worker does next, by its position. -/
inductive DrainsTo (answer : Answer) (s : System) : Event → Prop
  | claim (hpc : s.worker = .loopTop) :
      DrainsTo answer s (.claim answer.now (MessageStore.claimNextReady answer.now s.db))
  | nothingDue (now : Int) (hpc : s.worker = .claimed now none) :
      DrainsTo answer s (.nothingDue now)
  | deliver (stored : StoredMessage) (now : Int) (hpc : s.worker = .claimed now (some stored)) :
      DrainsTo answer s (.deliver stored now)
  | sinkOk (stored : StoredMessage) (now : Int) (hpc : s.worker = .delivering stored now)
      (hout : answer.outcome = .ok ()) : DrainsTo answer s (.sinkOk stored now)
  | sinkErr (stored : StoredMessage) (now : Int) (error : ChimneyError)
      (hpc : s.worker = .delivering stored now) (hout : answer.outcome = .error error) :
      DrainsTo answer s (.sinkErr stored now error)
  | markDelivered (id : Int) (hpc : s.worker = .marking id) :
      DrainsTo answer s (.markDelivered id)
  | deadLetter (id : Int) (text : Str) (hpc : s.worker = .deadLettering id text) :
      DrainsTo answer s (.deadLetter id text answer.failedAt)
  | reschedule (id : Int) (a : UInt32) (next : Int) (hpc : s.worker = .rescheduling id a next) :
      DrainsTo answer s (.reschedule id a next)

theorem drainsTo_of_drainEvent {answer : Answer} (h : s.drainEvent answer = some e) :
    DrainsTo answer s e := by
  rw [System.drainEvent.eq_def] at h
  split at h
  · next hpc =>
      obtain rfl := Option.some.inj h
      exact .claim hpc
  · next now stored hpc =>
      obtain rfl := Option.some.inj h
      exact .deliver stored now hpc
  · next now hpc =>
      obtain rfl := Option.some.inj h
      exact .nothingDue now hpc
  · next stored now hpc =>
      split at h
      · next hout =>
          obtain rfl := Option.some.inj h
          exact .sinkOk stored now hpc hout
      · next error hout =>
          obtain rfl := Option.some.inj h
          exact .sinkErr stored now error hpc hout
  · next id hpc =>
      obtain rfl := Option.some.inj h
      exact .markDelivered id hpc
  · next id text hpc =>
      obtain rfl := Option.some.inj h
      exact .deadLetter id text hpc
  · next id a next hpc =>
      obtain rfl := Option.some.inj h
      exact .reschedule id a next hpc
  · cases h
  · cases h
  · cases h
  · cases h

theorem drainEvent_drains {answer : Answer} (h : s.drainEvent answer = some e) :
    e.drains = true := by
  cases drainsTo_of_drainEvent h with
  | _ => rfl

/-- What the worker's position says about the last claim of a drain. -/
def LastClaim (es : List Event) (s : System) : Prop :=
  match s.worker with
  | .claimed now none =>
      (∃ pre, es = pre ++ [.claim now none]) ∧ ∀ r ∈ s.db.outbox, now < r.nextAttemptAt
  | .stopped =>
      ∃ pre now, es = pre ++ [.claim now none, .nothingDue now] ∧
        ∀ r ∈ s.db.outbox, now < r.nextAttemptAt
  | _ => True

theorem lastClaim_step {es : List Event} (h : LastClaim es s) (hdrain : e.drains = true)
    (hstep : Queue.step s e = some t) : LastClaim (es ++ [e]) t := by
  cases e with
  | claim now result =>
      obtain ⟨⟨_, hclaim⟩, rfl⟩ := step_claim.mp hstep
      cases result with
      | none =>
          exact ⟨⟨es, rfl⟩, MessageStore.claimNextReady_eq_none.mp hclaim⟩
      | some stored => trivial
  | nothingDue now =>
      obtain ⟨hpc, rfl⟩ := step_nothingDue.mp hstep
      unfold LastClaim at h
      rw [hpc] at h
      obtain ⟨⟨pre, rfl⟩, hbeyond⟩ := h
      cases hs : s.shutdown with
      | true =>
          simp only [LastClaim, if_true]
          exact ⟨pre, now, by simp, hbeyond⟩
      | false => simp [LastClaim]
  | sinkErr stored now error =>
      obtain ⟨_, rfl⟩ := step_sinkErr.mp hstep
      rcases handleFailure_cases s.config stored now error with ⟨_, hpc⟩ | ⟨_, hpc⟩
      · simp [LastClaim, hpc]
      · simp [LastClaim, hpc]
  | deliver => simp at hstep; simp [hstep, LastClaim]
  | sinkOk => simp at hstep; simp [hstep, LastClaim]
  | markDelivered => simp at hstep; simp [hstep, LastClaim]
  | deadLetter => simp at hstep; simp [hstep, LastClaim]
  | reschedule => simp at hstep; simp [hstep, LastClaim]
  | _ => simp [Event.drains] at hdrain

/-- A drain inserts nothing. -/
theorem inserts_of_drains {es : List Event} (p : Int → Bool)
    (h : ∀ e ∈ es, e.drains = true) : inserts p es = 0 := by
  unfold inserts
  rw [List.countP_eq_zero]
  intro e he
  have hdrain := h e he
  cases e <;> simp [Event.drains, Event.isInsert] at hdrain ⊢

end Ends

section Bound

variable {w : DeliveryWorker} {db : Db} {maxLen n : Nat} {answers : Nat → Answer}
  {t : System}

theorem drive_drains (answers : Nat → Answer) (n : Nat) (s : System) :
    Replay.StepsMeet step (fun _ e => e.drains = true) s (drive answers n s) := by
  intro pre e post t heq hpre
  obtain ⟨k, hk⟩ := (drive_run n s answers).2 pre e post t heq hpre
  exact drainEvent_drains hk

theorem mem_drive_drains {answers : Nat → Answer} {n : Nat} {s : System} {e : Event}
    (he : e ∈ drive answers n s) : e.drains = true := by
  obtain ⟨pre, post, heq⟩ := List.append_of_mem he
  obtain ⟨t, hrun⟩ := (drive_run n s answers).1
  rw [heq] at hrun
  obtain ⟨u, _, hpre, _, _⟩ := Replay.replay_at hrun
  exact drive_drains answers n s pre e post u heq hpre

/-- A drain that has stopped did so after a claim that found nothing due. -/
theorem drive_lastClaim
    (hrun : run (draining w maxLen db) (drive answers n (draining w maxLen db)) = some t)
    (hstop : t.worker = .stopped) :
    ∃ pre now,
      drive answers n (draining w maxLen db) =
        pre ++ [.claim now none, .nothingDue now] ∧
      ∀ r ∈ t.db.outbox, now < r.nextAttemptAt := by
  have hlast : LastClaim (drive answers n (draining w maxLen db)) t := by
    refine Replay.replay_invariant_of_stepsMeet (I := LastClaim) ?_ ?_
      (drive_drains answers n _) hrun
    · simp [LastClaim, draining, System.start]
    · intro es s e t _ hI hC hstep
      exact lastClaim_step hI hC hstep
  unfold LastClaim at hlast
  rw [hstop] at hlast
  exact hlast

/-- Counters that can count make the drain end. -/
theorem drainEnds_of_countersFit (hfit : CountersFit w.maxRetries db) :
    DrainEnds w db := by
  intro maxLen answers
  obtain ⟨n, t, hrun, hstop, hmeter⟩ := drive_stops (draining_start maxLen hfit) answers
  refine ⟨n, t, hrun, hstop, ?_, drive_lastClaim hrun hstop⟩
  have hstart := draining_start maxLen hfit
  have hwithin := run_withinBudget (p := fun _ => true) hstart.backed hstart.counted
    hmeter hrun
  have hsends := hwithin.sends_le
  rw [inserts_of_drains _ (fun e he => mem_drive_drains he)] at hsends
  rw [budget_eq_total]
  exact hsends

end Bound

/-! ## A counter that wraps -/

/-- The sends of a row whose deliveries all fail, when `max_retries < u32::MAX`. -/
def worstCase (maxRetries attempts : UInt32) : Nat :=
  if attempts.toNat = 4294967295 then maxRetries.toNat + 2
  else sendBudget maxRetries attempts

theorem sendBudget_le_worstCase (m a : UInt32) :
    sendBudget m a ≤ worstCase m a := by
  have hlt := a.toNat_lt
  unfold worstCase sendBudget
  split_ifs with h
  · omega
  · exact le_refl _

/-- A retry takes one send, also when its counter wraps. -/
theorem worstCase_retry {m a : UInt32} (hm : m.toNat < 4294967295)
    (hle : (a + 1).toNat ≤ m.toNat) :
    worstCase m (a + 1) + 1 = worstCase m a := by
  have hval := attempts_succ_toNat a
  have hlt := a.toNat_lt
  unfold worstCase sendBudget
  rw [if_neg (by omega)]
  split_ifs with h
  · have hzero : (a + 1).toNat = 0 := by omega
    omega
  · omega

/-- The failure that is given up on is the last send. -/
theorem worstCase_last {m a : UInt32} (hlast : m.toNat < (a + 1).toNat) :
    worstCase m a = 1 := by
  have hval := attempts_succ_toNat a
  have hlt := a.toNat_lt
  unfold worstCase sendBudget
  rw [if_neg (by omega)]
  omega

/-- The sink always fails, and the clock stands where every row is due. -/
def failAt (big : Int) : Answer where
  now := big
  outcome := .error (.matrix [])
  failedAt := 0

/-- What a drive under `failAt` keeps. -/
structure AllFailing (big : Int) (w : DeliveryWorker) (s : System) : Prop where
  config : s.config = w
  backed : s.worker.Backed s.db
  due : ∀ r ∈ s.db.outbox, r.nextAttemptAt ≤ big
  rescheduling : ∀ id a n, s.worker = .rescheduling id a n →
    a.toNat ≤ w.maxRetries.toNat ∧ n ≤ big
  deadLettering : ∀ id text, s.worker = .deadLettering id text →
    ∀ r ∈ s.db.outbox, r.id = id →
      w.maxRetries.toNat < (asU32 r.attempts + 1).toNat
  failing : ∀ id, s.worker ≠ .marking id
  claimed : ∀ now result, s.worker = .claimed now result → now = big

/-- `i64` addition yields an `i64`. -/
theorem i64Add_le (x y : Int) :
    i64Add x y ≤ 9223372036854775807 := by
  unfold i64Add wrapI64
  omega

section Failing

variable {big : Int} {w : DeliveryWorker} {s t : System} {e : Event}

theorem allFailing_step (h : AllFailing big w s) (hbig : 9223372036854775807 ≤ big)
    (hnext : s.drainEvent (failAt big) = some e) (hstep : step s e = some t) :
    AllFailing big w t := by
  have hbacked := backed_step h.backed hstep
  cases drainsTo_of_drainEvent hnext with
  | claim hpc =>
      obtain ⟨_, rfl⟩ := step_claim.mp hstep
      refine ⟨h.config, hbacked, h.due, by simp, by simp, by simp, ?_⟩
      intro now result hw
      simp only [WorkerPc.claimed.injEq] at hw
      exact hw.1.symm
  | nothingDue now hpc =>
      obtain ⟨_, rfl⟩ := step_nothingDue.mp hstep
      refine ⟨h.config, hbacked, h.due, ?_, ?_, ?_, ?_⟩ <;>
        cases s.shutdown <;> simp
  | deliver stored now hpc =>
      obtain ⟨_, rfl⟩ := step_deliver.mp hstep
      exact ⟨h.config, hbacked, h.due, by simp, by simp, by simp, by simp⟩
  | sinkOk stored now hpc hout => cases hout
  | sinkErr stored now error hpc hout =>
      obtain ⟨_, rfl⟩ := step_sinkErr.mp hstep
      have hback := h.backed
      rw [hpc] at hback
      obtain ⟨r, hr, rfl⟩ := hback
      rcases handleFailure_cases s.config (rowToStored r) now error with
        ⟨hlast, hnext⟩ | ⟨hretry, hnext⟩
      · refine ⟨h.config, hbacked, h.due, by simp [hnext], ?_, by simp [hnext],
          by simp [hnext]⟩
        intro id text hw q hq hid
        simp only [hnext, WorkerPc.deadLettering.injEq] at hw
        have hsame : q = r := s.db.row_unique hq hr (hid.trans hw.1.symm)
        rw [hsame, ← h.config]
        exact UInt32.lt_iff_toNat_lt.mp hlast
      · refine ⟨h.config, hbacked, h.due, ?_, by simp [hnext], by simp [hnext],
          by simp [hnext]⟩
        intro id a n hw
        simp only [hnext, WorkerPc.rescheduling.injEq] at hw
        obtain ⟨_, rfl, rfl⟩ := hw
        rw [← h.config]
        exact ⟨UInt32.le_iff_toNat_le.mp hretry, (i64Add_le _ _).trans hbig⟩
  | markDelivered id hpc => exact absurd hpc (h.failing id)
  | deadLetter id text hpc =>
      obtain ⟨_, rfl⟩ := step_deadLetter.mp hstep
      refine ⟨h.config, hbacked, ?_, by simp, by simp, by simp, by simp⟩
      intro r hr
      exact h.due r (MessageStore.mem_deadLetter.mp hr).1
  | reschedule id a n hpc =>
      obtain ⟨_, rfl⟩ := step_reschedule.mp hstep
      refine ⟨h.config, hbacked, ?_, by simp, by simp, by simp, by simp⟩
      intro r hr
      obtain ⟨q, hq, rfl⟩ := MessageStore.mem_reschedule.mp hr
      by_cases hid : q.id = id
      · simpa [Db.setSchedule, hid] using (h.rescheduling _ _ _ hpc).2
      · simpa [Db.setSchedule, hid] using h.due q hq

/-- The sum over the outbox of the sends when all of them fail. -/
def Db.worstCase (maxRetries : UInt32) (db : Db) : Nat :=
  db.total (fun r => Queue.worstCase maxRetries (asU32 r.attempts))

/-- While every delivery fails, every send is one the worst case counted. -/
theorem worstCase_step (h : AllFailing big w s) (hm : w.maxRetries.toNat < 4294967295)
    (hnext : s.drainEvent (failAt big) = some e) (hstep : step s e = some t) :
    (if e.isSend (fun _ => true) then 1 else 0) + t.db.worstCase w.maxRetries +
        s.worker.inHand (fun _ => true) =
      s.db.worstCase w.maxRetries + t.worker.inHand (fun _ => true) := by
  cases drainsTo_of_drainEvent hnext with
  | claim hpc =>
      obtain ⟨_, rfl⟩ := step_claim.mp hstep
      simp [hpc, Event.isSend, WorkerPc.inHand, WorkerPc.holding]
  | nothingDue now hpc =>
      obtain ⟨_, rfl⟩ := step_nothingDue.mp hstep
      cases s.shutdown <;> simp [hpc, Event.isSend, WorkerPc.inHand, WorkerPc.holding]
  | deliver stored now hpc =>
      obtain ⟨_, rfl⟩ := step_deliver.mp hstep
      simp [hpc, Event.isSend, WorkerPc.inHand, WorkerPc.holding]
      omega
  | sinkOk stored now hpc hout => cases hout
  | sinkErr stored now error hpc hout =>
      obtain ⟨_, rfl⟩ := step_sinkErr.mp hstep
      rcases handleFailure_cases s.config stored now error with
        ⟨_, hnext⟩ | ⟨_, hnext⟩
      · simp [hpc, hnext, Event.isSend, WorkerPc.inHand, WorkerPc.holding]
      · simp [hpc, hnext, Event.isSend, WorkerPc.inHand, WorkerPc.holding]
  | markDelivered id hpc => exact absurd hpc (h.failing id)
  | deadLetter id text hpc =>
      obtain ⟨_, rfl⟩ := step_deadLetter.mp hstep
      have hback := h.backed
      rw [hpc] at hback
      obtain ⟨r, hr, rfl⟩ := hback
      have hone := worstCase_last (h.deadLettering _ _ hpc r hr rfl)
      have htotal := Db.total_deadLetter
        (f := fun r => worstCase w.maxRetries (asU32 r.attempts)) hr text
        (failAt big).failedAt
      simp only [hone] at htotal
      simp only [hpc, Event.isSend, WorkerPc.inHand, WorkerPc.holding, Db.worstCase]
      simp
      omega
  | reschedule id a n hpc =>
      obtain ⟨_, rfl⟩ := step_reschedule.mp hstep
      have hback := h.backed
      rw [hpc] at hback
      obtain ⟨r, hr, rfl, rfl⟩ := hback
      have hretry := worstCase_retry hm (h.rescheduling _ _ _ hpc).1
      have htotal := Db.total_reschedule
        (f := fun r => worstCase w.maxRetries (asU32 r.attempts)) hr
        (asU32 r.attempts + 1) n
      have hrow : (Db.setSchedule r.id (asU32 r.attempts + 1) n r).attempts =
          (asU32 r.attempts + 1).toNat := by
        simp [Db.setSchedule]
      simp only [hrow, asU32_toNat] at htotal
      simp only [hpc, Event.isSend, WorkerPc.inHand, WorkerPc.holding, Db.worstCase]
      simp
      omega

/-- With `max_retries` at `u32::MAX` a message that fails is never given up. -/
theorem outbox_length_step (h : AllFailing big w s)
    (hm : w.maxRetries.toNat = 4294967295)
    (hnext : s.drainEvent (failAt big) = some e) (hstep : step s e = some t) :
    t.db.outbox.length = s.db.outbox.length := by
  rw [step_db hstep]
  have hdrain := drainEvent_drains hnext
  cases e with
  | markDelivered id => exact absurd (step_markDelivered.mp hstep).1 (h.failing id)
  | deadLetter id text failedAt =>
      have hpc := (step_deadLetter.mp hstep).1
      have hback := h.backed
      rw [hpc] at hback
      obtain ⟨r, hr, hid⟩ := hback
      have hlast := h.deadLettering _ _ hpc r hr hid
      have hlt := (asU32 r.attempts + 1).toNat_lt
      omega
  | reschedule id a n =>
      simp [Event.change, Change.apply, MessageStore.reschedule]
  | insert => simp [Event.drains] at hdrain
  | _ => rfl

/-- Some clock finds every row due. -/
theorem exists_due_clock (db : Db) :
    ∃ big : Int, 9223372036854775807 ≤ big ∧
      ∀ r ∈ db.outbox, r.nextAttemptAt ≤ big := by
  induction db.outbox with
  | nil =>
      exact ⟨9223372036854775807, le_refl _, by simp⟩
  | cons r rs ih =>
      obtain ⟨big, hbig, hall⟩ := ih
      refine ⟨max big r.nextAttemptAt, le_trans hbig (le_max_left _ _), ?_⟩
      intro q hq
      rcases List.mem_cons.mp hq with rfl | hq
      · exact le_max_right _ _
      · exact le_trans (hall q hq) (le_max_left _ _)

theorem stepsMeet_failAt (big : Int) (n : Nat) (s : System) :
    Replay.StepsMeet step (fun s e => s.drainEvent (failAt big) = some e) s
      (drive (fun _ => failAt big) n s) := by
  intro pre e post t heq hpre
  obtain ⟨_, hnext⟩ := (drive_run n s (fun _ => failAt big)).2 pre e post t heq hpre
  exact hnext

theorem allFailing_start (maxLen : Nat) {db : Db}
    (hdue : ∀ r ∈ db.outbox, r.nextAttemptAt ≤ big) :
    AllFailing big w (draining w maxLen db) := by
  constructor <;> simp [draining, System.start, WorkerPc.Backed]
  exact hdue

theorem run_allFailing {maxLen : Nat} {db : Db} (hbig : 9223372036854775807 ≤ big)
    (hdue : ∀ r ∈ db.outbox, r.nextAttemptAt ≤ big) {es : List Event}
    (hfail : Replay.StepsMeet step (fun s e => s.drainEvent (failAt big) = some e)
      (draining w maxLen db) es)
    (hrun : run (draining w maxLen db) es = some t) : AllFailing big w t := by
  refine Replay.replay_invariant_of_stepsMeet (I := fun _ s => AllFailing big w s)
    ?_ ?_ hfail hrun
  · exact allFailing_start maxLen hdue
  · intro es s e t _ hI hC hstep
    exact allFailing_step hI hbig hC hstep

/-- When all deliveries fail and the counters can be exhausted, the worst case is
what is sent, less what may still be sent. -/
theorem run_worstCase {maxLen : Nat} {db : Db} (hbig : 9223372036854775807 ≤ big)
    (hdue : ∀ r ∈ db.outbox, r.nextAttemptAt ≤ big)
    (hm : w.maxRetries.toNat < 4294967295) {es : List Event}
    (hfail : Replay.StepsMeet step (fun s e => s.drainEvent (failAt big) = some e)
      (draining w maxLen db) es)
    (hrun : run (draining w maxLen db) es = some t) :
    sends (fun _ => true) es + t.db.worstCase w.maxRetries =
      db.worstCase w.maxRetries + t.worker.inHand (fun _ => true) := by
  have hboth : AllFailing big w t ∧
      sends (fun _ => true) es + t.db.worstCase w.maxRetries =
        db.worstCase w.maxRetries + t.worker.inHand (fun _ => true) := by
    refine Replay.replay_invariant_of_stepsMeet
      (I := fun es s => AllFailing big w s ∧
        sends (fun _ => true) es + s.db.worstCase w.maxRetries =
          db.worstCase w.maxRetries + s.worker.inHand (fun _ => true)) ?_ ?_ hfail hrun
    · refine ⟨allFailing_start maxLen hdue, ?_⟩
      simp [sends, draining, System.start, WorkerPc.inHand, WorkerPc.holding]
    · rintro es s e u _ ⟨hall, hsum⟩ hC hstep
      have hone := worstCase_step hall hm hC hstep
      refine ⟨allFailing_step hall hbig hC hstep, ?_⟩
      rw [sends_concat]
      omega
  exact hboth.2

theorem run_outbox_length {maxLen : Nat} {db : Db} (hbig : 9223372036854775807 ≤ big)
    (hdue : ∀ r ∈ db.outbox, r.nextAttemptAt ≤ big)
    (hm : w.maxRetries.toNat = 4294967295) {es : List Event}
    (hfail : Replay.StepsMeet step (fun s e => s.drainEvent (failAt big) = some e)
      (draining w maxLen db) es)
    (hrun : run (draining w maxLen db) es = some t) :
    t.db.outbox.length = db.outbox.length := by
  have hboth : AllFailing big w t ∧ t.db.outbox.length = db.outbox.length := by
    refine Replay.replay_invariant_of_stepsMeet
      (I := fun _ s => AllFailing big w s ∧ s.db.outbox.length = db.outbox.length)
      ?_ ?_ hfail hrun
    · exact ⟨allFailing_start maxLen hdue, rfl⟩
    · rintro es s e u _ ⟨hall, hlength⟩ hC hstep
      exact ⟨allFailing_step hall hbig hC hstep,
        (outbox_length_step hall hm hC hstep).trans hlength⟩
  exact hboth.2

/-- A drain that always ends within the budget has counters that can count. -/
theorem countersFit_of_drainEnds {db : Db} (h : DrainEnds w db) :
    CountersFit w.maxRetries db := by
  intro r hr
  obtain ⟨big, hbig, hdue⟩ := exists_due_clock db
  obtain ⟨n, t, hrun, hstop, hsends, pre, now, hes, hbeyond⟩ := h 0 (fun _ => failAt big)
  have hfail := stepsMeet_failAt big n (draining w 0 db)
  have hall := run_allFailing hbig hdue hfail hrun
  -- the last claim read the same clock, so it can only have found the outbox empty
  have hnow : now = big := by
    rw [hes] at hrun hfail
    have hsplit : pre ++ [Event.claim now none, .nothingDue now] =
        (pre ++ [.claim now none]) ++ [.nothingDue now] := by
      simp
    rw [hsplit] at hrun hfail
    obtain ⟨u, hpre, hlast⟩ := Replay.replay_concat_eq_some.mp hrun
    have hbefore := run_allFailing hbig hdue hfail.of_append hpre
    exact hbefore.claimed now none (step_nothingDue.mp hlast).1
  have hempty : t.db.outbox = [] := by
    rw [List.eq_nil_iff_forall_not_mem]
    intro q hq
    have hlate := hbeyond q hq
    have hdueq := hall.due q hq
    omega
  have hmax := w.maxRetries.toNat_lt
  by_cases hm : w.maxRetries.toNat < 4294967295
  · refine ⟨hm, ?_⟩
    have hsum := run_worstCase hbig hdue hm hfail hrun
    have hnone : t.db.worstCase w.maxRetries = 0 := by
      apply Db.total_eq_zero
      simp [hempty]
    have hidle : t.worker.inHand (fun _ => true) = 0 := by
      rw [hstop]
      rfl
    by_contra hwrap
    have hlt := (asU32 r.attempts).toNat_lt
    have hmore : db.budget w.maxRetries < db.worstCase w.maxRetries := by
      apply List.sum_lt_sum
      · intro q _
        exact sendBudget_le_worstCase _ _
      · refine ⟨r, hr, ?_⟩
        unfold worstCase sendBudget
        rw [if_pos (by omega)]
        omega
    omega
  · have hlength := run_outbox_length hbig hdue (by omega) hfail hrun
    rw [hempty] at hlength
    have hnil := List.length_eq_zero_iff.mp hlength.symm
    rw [hnil] at hr
    cases hr

end Failing

/-- **When the drain ends**: whatever the clock and the sink answer, it returns
within the budget and leaves nothing due, exactly when `max_retries` and the
counters of the outbox are below `u32::MAX`. -/
theorem drain_ends_iff (w : DeliveryWorker) (db : Db) :
    DrainEnds w db ↔
      ∀ r ∈ db.outbox, w.maxRetries.toNat < 4294967295 ∧
        (asU32 r.attempts).toNat < 4294967295 := by
  constructor
  · intro h
    exact countersFit_of_drainEnds h
  · intro hfit
    exact drainEnds_of_countersFit hfit

/-- An outbox with one row whose counter has reached `u32::MAX`. -/
def counterAtMax : Db where
  outbox :=
    [{ fromAddr := none, toAddrs := ['a'], subject := none, body := ['x'], id := 1
       attempts := 4294967295, nextAttemptAt := 0, createdAt := 0 }]
  deadLetter := []
  outboxSeq := 1
  deadLetterSeq := 0
  outbox_sorted := List.pairwise_singleton _ _
  outbox_le_seq := by simp

theorem counterAtMax_exceeds_budget :
    ¬ DrainEnds ⟨0, 0⟩ counterAtMax := by
  intro h
  have hfit := countersFit_of_drainEnds h _ List.mem_cons_self
  exact absurd hfit.2 (by decide)

end Queue
end ChimneyPost
