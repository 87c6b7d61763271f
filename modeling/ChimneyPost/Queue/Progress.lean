import ChimneyPost.Lib.Progress
import ChimneyPost.Queue.Capacity
import ChimneyPost.Queue.Conservation
import ChimneyPost.Queue.Drain
import ChimneyPost.Queue.Timing

/-!
# Every message gets out

The running worker, not told to stop, on a clock that its sleeps keep to: a claim asks
with a clock value read after the worker's last move, and the idle sleep takes as long as
it should.

Whatever the sink answers and however the sessions move in between, the worker cannot go
on for long without emptying the outbox: every move is paid for by the send budgets of the
rows, by a notification, or by a store error (`outbox_empties`).  By then every message
that was there has been delivered or is in the dead-letter table.
-/

namespace ChimneyPost
namespace Queue

/-- The worker gets from one `await` to the next. -/
def Event.moves : Event → Bool
  | .enqueue _ _ _ => false
  | .insert _ _ _ _ _ => false
  | .refuse _ _ _ _ _ => false
  | .notify _ _ => false
  | .cancel _ => false
  | .setShutdown => false
  | .crash _ _ => false
  | _ => true

/-- A store error, or the wakeup at shutdown. -/
def Event.hitch : Event → Bool
  | .claimError => true
  | .nextWakeupError _ => true
  | .writeError => true
  | .wakeShutdown => true
  | _ => false

def Event.isNotify : Event → Bool
  | .notify _ _ => true
  | _ => false

/-- The system with the clock time of the worker's last move. -/
structure Paced where
  system : System
  moved : Int

/-- The idle sleep is over. -/
def WorkerPc.sleptBy (time : Int) : WorkerPc → Bool
  | .parked now wait => now + wait ≤ time
  | _ => true

/-- The clock goes on from the worker's last move, and the process goes on. -/
def Paced.allows (s : Paced) (tick : Tick) : Bool :=
  match tick.event with
  | .claim now _ => s.moved ≤ now && now ≤ tick.time
  | .wakeSlept => s.moved ≤ tick.time && s.system.worker.sleptBy tick.time
  | .crash _ _ => false
  | _ => s.moved ≤ tick.time

def Paced.step (s : Paced) (tick : Tick) : Option Paced :=
  if s.allows tick then
    (Queue.step s.system tick.event).map fun t =>
      { system := t, moved := if tick.event.moves then tick.time else s.moved }
  else
    none

def Paced.start (config : DeliveryWorker) (maxLen : Nat) (db : Db) (clock : Int) : Paced where
  system := System.start config maxLen db
  moved := clock

/-- No counter wraps and every due time is an `i64`. -/
structure Fits (maxRetries : UInt32) (db : Db) : Prop where
  maxRetries : maxRetries.toNat < 4294967295
  counters : ∀ r ∈ db.outbox, (asU32 r.attempts).toNat < 4294967295
  dueTimes : ∀ r ∈ db.outbox, r.nextAttemptAt ≤ 9223372036854775807

/-! ## The potential -/

/-- Something in the outbox is due. -/
def Db.anyDue (db : Db) (time : Int) : Bool :=
  db.outbox.any fun r => r.nextAttemptAt ≤ time

/-- How far the worker is from its next send, for the worst case. -/
def Paced.phase (s : Paced) : Nat :=
  match s.system.worker with
  | .claimed _ none => 6
  | .idleWaiting _ => 5
  | .parked now wait => if s.system.db.anyDue (now + wait) then 4 else 8
  | .loopTop => if s.system.db.anyDue s.moved then 3 else 7
  | .claimed _ (some _) => 2
  | .delivering _ _ => 1
  | .storageBackoff => 8
  | _ => 0

def Paced.potential (s : Paced) : Nat :=
  8 * s.system.db.budget s.system.config.maxRetries + s.phase +
    if s.system.permit then 4 else 0

/-- What an event of the outside allows the worker. -/
def Event.allowance (maxRetries : UInt32) (e : Event) : Nat :=
  if e.isInsert (fun _ => true) then 8 * (maxRetries.toNat + 1)
  else if e.isNotify then 4
  else if e.hitch then 8
  else 0

def Event.work (e : Event) : Nat :=
  if e.moves then 1 else 0

/-- The worker carries no clock value before 1970, and counts its retries. -/
def WorkerPc.Carries (maxRetries : UInt32) : WorkerPc → Prop
  | .claimed now _ => 0 ≤ now
  | .idleWaiting now => 0 ≤ now
  | .parked now _ => 0 ≤ now
  | .rescheduling _ attempts next => 1 ≤ attempts.toNat ∧
      attempts.toNat ≤ maxRetries.toNat ∧ next ≤ 9223372036854775807
  | _ => True

/-- What every paced run keeps. -/
structure Pacing (config : DeliveryWorker) (s : Paced) : Prop where
  configured : s.system.config = config
  moved : 0 ≤ s.moved
  backed : s.system.worker.Backed s.system.db
  fits : Fits config.maxRetries s.system.db
  carries : s.system.worker.Carries config.maxRetries

section Steps

variable {config : DeliveryWorker} {s t : Paced} {tick : Tick} {db : Db}

theorem pacedStep_eq_some :
    Paced.step s tick = some t ↔ s.allows tick = true ∧
      step s.system tick.event = some t.system ∧
        t.moved = if tick.event.moves then tick.time else s.moved := by
  rw [Paced.step]
  by_cases hallows : s.allows tick
  · rw [if_pos hallows, Option.map_eq_some_iff]
    constructor
    · rintro ⟨u, hu, rfl⟩
      exact ⟨hallows, hu, rfl⟩
    · rintro ⟨_, hstep, hmoved⟩
      refine ⟨t.system, hstep, ?_⟩
      rw [← hmoved]
  · rw [if_neg hallows]
    constructor
    · intro h
      cases h
    · rintro ⟨h, _⟩
      exact absurd h hallows

theorem anyDue_eq_true {time : Int} :
    db.anyDue time = true ↔ ∃ r ∈ db.outbox, r.nextAttemptAt ≤ time := by
  simp [Db.anyDue]

/-- What is due stays due. -/
theorem anyDue_mono {db' : Db} {time time' : Int} (h : db.anyDue time = true)
    (hsub : ∀ r ∈ db.outbox, r ∈ db'.outbox) (hle : time ≤ time') :
    db'.anyDue time' = true := by
  obtain ⟨r, hr, hdue⟩ := anyDue_eq_true.mp h
  exact anyDue_eq_true.mpr ⟨r, hsub r hr, le_trans hdue hle⟩

/-- A claim with a later clock finds what is due. -/
theorem not_anyDue_of_claim {now time : Int}
    (hclaim : MessageStore.claimNextReady now db = none) (hle : time ≤ now) :
    db.anyDue time = false := by
  rw [Bool.eq_false_iff]
  intro hdue
  obtain ⟨r, hr, hrdue⟩ := anyDue_eq_true.mp hdue
  have hlater := MessageStore.claimNextReady_eq_none.mp hclaim r hr
  omega

theorem wrapI64_le (z : Int) : wrapI64 z ≤ 9223372036854775807 := by
  unfold wrapI64
  omega

/-- The idle sleep ends when something is due, whatever has come in since the claim. -/
theorem anyDue_idleWait {now : Int} (hnow : 0 ≤ now)
    (hfits : ∀ r ∈ db.outbox, r.nextAttemptAt ≤ 9223372036854775807)
    (hne : db.outbox ≠ []) :
    db.anyDue (now + (DeliveryWorker.idleWait now (.ok (MessageStore.nextWakeup now db)) : Int)) =
      true := by
  rw [anyDue_eq_true]
  cases hnext : MessageStore.nextWakeup now db with
  | none =>
      obtain ⟨r, hr⟩ := List.exists_mem_of_ne_nil _ hne
      have hdue := MessageStore.nextWakeup_eq_none hnext r hr
      exact ⟨r, hr, by omega⟩
  | some at_ =>
      have hmem := hnext
      rw [MessageStore.nextWakeup, List.min?_eq_some_iff, List.mem_filter, List.mem_map,
        decide_eq_true_eq] at hmem
      obtain ⟨⟨⟨r, hr, rfl⟩, hlater⟩, _⟩ := hmem
      have hle := hfits r hr
      refine ⟨r, hr, ?_⟩
      rw [DeliveryWorker.idleWait, i64Sub, wrapI64]
      omega

/-! ## What every paced run keeps -/

theorem Fits.of_sub {m : UInt32} {db' : Db} (h : Fits m db)
    (hsub : ∀ r ∈ db'.outbox, r ∈ db.outbox) : Fits m db' := by
  exact ⟨h.maxRetries, fun r hr => h.counters r (hsub r hr), fun r hr => h.dueTimes r (hsub r hr)⟩

theorem Fits.insert {m : UInt32} (h : Fits m db) (c : MailColumns) (createdAt : Int) :
    Fits m (db.insertOutbox c createdAt) := by
  refine ⟨h.maxRetries, ?_, ?_⟩
  · intro r hr
    rcases Db.mem_insertOutbox.mp hr with hr | rfl
    · exact h.counters r hr
    · exact Nat.zero_lt_succ _
  · intro r hr
    rcases Db.mem_insertOutbox.mp hr with hr | rfl
    · exact h.dueTimes r hr
    · exact Int.natCast_nonneg 9223372036854775807

/-- A retry that is counted leaves a counter that can count on. -/
theorem Fits.reschedule {m a : UInt32} (h : Fits m db) {id next : Int} (hle : a.toNat ≤ m.toNat)
    (hnext : next ≤ 9223372036854775807) : Fits m (MessageStore.reschedule id a next db) := by
  have hm := h.maxRetries
  refine ⟨hm, ?_, ?_⟩
  · intro r hr
    obtain ⟨q, hq, rfl⟩ := MessageStore.mem_reschedule.mp hr
    rw [Db.setSchedule]
    split_ifs with hid
    · simp only [asU32_toNat]
      omega
    · exact h.counters q hq
  · intro r hr
    obtain ⟨q, hq, rfl⟩ := MessageStore.mem_reschedule.mp hr
    rw [Db.setSchedule]
    split_ifs with hid
    · exact hnext
    · exact h.dueTimes q hq

theorem moved_le_of_allows (h : s.allows tick = true) : s.moved ≤ tick.time := by
  rw [Paced.allows.eq_def] at h
  split at h
  · rw [Bool.and_eq_true, decide_eq_true_eq, decide_eq_true_eq] at h
    exact le_trans h.1 h.2
  · rw [Bool.and_eq_true, decide_eq_true_eq] at h
    exact h.1
  · cases h
  · exact of_decide_eq_true h

/-- The process goes on, with its configuration. -/
theorem step_config {s t : System} {e : Event} (hstep : step s e = some t)
    (hopens : e.opens = false) : t.config = s.config := by
  cases e with
  | crash config maxLen => cases hopens
  | _ =>
      simp at hstep
      simp [hstep]

theorem opens_of_allows (h : s.allows tick = true) : tick.event.opens = false := by
  rw [Paced.allows.eq_def] at h
  cases hevent : tick.event with
  | crash config maxLen =>
      rw [hevent] at h
      cases h
  | _ => rfl

theorem carries_handleFailure {m : UInt32} {w : DeliveryWorker} {stored : StoredMessage}
    {now : Int} {error : ChimneyError} (hm : w.maxRetries = m)
    (hcounter : stored.attempts.toNat < 4294967295) :
    (w.handleFailure stored now error).Carries m := by
  rcases handleFailure_cases w stored now error with ⟨_, hpc⟩ | ⟨hle, hpc⟩
  · rw [hpc]
    trivial
  · rw [hpc]
    have hsucc := attempts_succ_of_lt hcounter
    rw [UInt32.le_iff_toNat_le, hm] at hle
    exact ⟨by omega, hle, wrapI64_le _⟩

theorem carries_step (h : Pacing config s) (hallows : s.allows tick = true)
    {u : System} (hstep : step s.system tick.event = some u) :
    u.worker.Carries config.maxRetries := by
  have hcarries := h.carries
  have hmoved := h.moved
  cases hevent : tick.event with
  | claim now result =>
      rw [hevent] at hstep
      obtain ⟨_, rfl⟩ := step_claim.mp hstep
      rw [Paced.allows.eq_def, hevent, Bool.and_eq_true, decide_eq_true_eq] at hallows
      exact le_trans hmoved hallows.1
  | sinkErr stored now error =>
      rw [hevent] at hstep
      obtain ⟨hpc, rfl⟩ := step_sinkErr.mp hstep
      have hbacked := h.backed
      rw [hpc] at hbacked
      obtain ⟨r, hr, rfl⟩ := hbacked
      exact carries_handleFailure (by rw [h.configured]) (h.fits.counters r hr)
  | nothingDue now =>
      rw [hevent] at hstep
      obtain ⟨hpc, rfl⟩ := step_nothingDue.mp hstep
      rw [hpc] at hcarries
      cases hs : s.system.shutdown with
      | true => simp [WorkerPc.Carries]
      | false => simpa [WorkerPc.Carries] using hcarries
  | nextWakeup now =>
      rw [hevent] at hstep
      obtain ⟨hpc, rfl⟩ := step_nextWakeup.mp hstep
      rw [hpc] at hcarries
      exact hcarries
  | nextWakeupError now =>
      rw [hevent] at hstep
      obtain ⟨hpc, rfl⟩ := step_nextWakeupError.mp hstep
      rw [hpc] at hcarries
      exact hcarries
  | backoffElapsed =>
      rw [hevent] at hstep
      obtain ⟨_, rfl⟩ := step_backoffElapsed.mp hstep
      cases hs : s.system.shutdown <;> simp [WorkerPc.Carries]
  | crash config' maxLen =>
      have hopens := opens_of_allows hallows
      rw [hevent] at hopens
      cases hopens
  | enqueue => rw [hevent] at hstep; simp at hstep; simpa [hstep] using hcarries
  | insert => rw [hevent] at hstep; simp at hstep; simpa [hstep] using hcarries
  | refuse => rw [hevent] at hstep; simp at hstep; simpa [hstep] using hcarries
  | notify => rw [hevent] at hstep; simp at hstep; simpa [hstep] using hcarries
  | cancel => rw [hevent] at hstep; simp at hstep; simpa [hstep] using hcarries
  | setShutdown => rw [hevent] at hstep; simp at hstep; simpa [hstep] using hcarries
  | _ =>
      rw [hevent] at hstep
      simp at hstep
      simp [hstep, WorkerPc.Carries]

theorem fits_step (h : Pacing config s) {e : Event} {u : System}
    (hstep : step s.system e = some u) : Fits config.maxRetries u.db := by
  have hfits := h.fits
  have hcarries := h.carries
  rw [step_db hstep]
  cases e with
  | insert v message createdAt live id => exact hfits.insert _ _
  | markDelivered id =>
      exact hfits.of_sub (fun r hr => (MessageStore.mem_markDelivered.mp hr).1)
  | deadLetter id text failedAt =>
      exact hfits.of_sub (fun r hr => (MessageStore.mem_deadLetter.mp hr).1)
  | reschedule id a next =>
      obtain ⟨hpc, _⟩ := step_reschedule.mp hstep
      rw [hpc] at hcarries
      exact hfits.reschedule hcarries.2.1 hcarries.2.2
  | _ => exact hfits

/-- **One move** keeps the pacing. -/
theorem pacing_step (h : Pacing config s) (hstep : Paced.step s tick = some t) :
    Pacing config t := by
  obtain ⟨hallows, hsystem, hmoved⟩ := pacedStep_eq_some.mp hstep
  refine ⟨(step_config hsystem (opens_of_allows hallows)).trans h.configured, ?_,
    backed_step h.backed hsystem, fits_step h hsystem, carries_step h hallows hsystem⟩
  have hle := le_trans h.moved (moved_le_of_allows hallows)
  rw [hmoved]
  split_ifs
  · exact hle
  · exact h.moved

theorem pacing_start {clock : Int} (maxLen : Nat) (hfits : Fits config.maxRetries db)
    (hclock : 0 ≤ clock) : Pacing config (Paced.start config maxLen db clock) := by
  exact ⟨rfl, hclock, trivial, hfits, trivial⟩

theorem pacing_run {es : List Tick} (h : Pacing config s)
    (hrun : Replay.replay Paced.step s es = some t) : Pacing config t := by
  refine Replay.replay_invariant (I := fun _ t => Pacing config t) h ?_ hrun
  intro _ u tick v _ hI hstep
  exact pacing_step hI hstep

/-! ## Every move is paid for -/

theorem phase_loopTop_le (h : s.system.worker = .loopTop) : s.phase ≤ 7 := by
  rw [Paced.phase, h]
  dsimp only
  split_ifs <;> omega

theorem phase_loopTop_of_due (h : s.system.worker = .loopTop)
    (hdue : s.system.db.anyDue s.moved = true) : s.phase = 3 := by
  rw [Paced.phase, h]
  exact if_pos hdue

theorem phase_loopTop_of_not_due (h : s.system.worker = .loopTop)
    (hdue : s.system.db.anyDue s.moved = false) : s.phase = 7 := by
  rw [Paced.phase, h]
  exact if_neg (by rw [hdue]; simp)

theorem three_le_phase_loopTop (h : s.system.worker = .loopTop) : 3 ≤ s.phase := by
  rw [Paced.phase, h]
  dsimp only
  split_ifs <;> omega

theorem phase_parked {now : Int} {wait : Nat} (h : s.system.worker = .parked now wait) :
    s.phase = if s.system.db.anyDue (now + wait) then 4 else 8 := by
  rw [Paced.phase, h]

theorem four_le_phase_parked (h : s.system.worker.isParked = true) : 4 ≤ s.phase := by
  cases hpc : s.system.worker with
  | parked now wait =>
      rw [phase_parked hpc]
      split_ifs <;> omega
  | _ =>
      rw [hpc] at h
      cases h

/-- More rows in the outbox do not take the worker further from its next send. -/
theorem phase_le_of_sub (hworker : t.system.worker = s.system.worker) (hmoved : t.moved = s.moved)
    (hsub : ∀ r ∈ s.system.db.outbox, r ∈ t.system.db.outbox) : t.phase ≤ s.phase := by
  have hmono : ∀ time : Int, (if t.system.db.anyDue time then 4 else 8) ≤
      if s.system.db.anyDue time then 4 else 8 := by
    intro time
    by_cases hdue : s.system.db.anyDue time = true
    · rw [if_pos hdue, if_pos (anyDue_mono hdue hsub (le_refl time))]
    · rw [if_neg hdue]
      split_ifs <;> omega
  cases hpc : s.system.worker with
  | loopTop =>
      by_cases hdue : s.system.db.anyDue s.moved = true
      · rw [phase_loopTop_of_due hpc hdue, phase_loopTop_of_due (hworker.trans hpc)]
        rw [hmoved]
        exact anyDue_mono hdue hsub (le_refl _)
      · rw [Bool.not_eq_true] at hdue
        rw [phase_loopTop_of_not_due hpc hdue]
        exact phase_loopTop_le (hworker.trans hpc)
  | parked now wait =>
      rw [phase_parked hpc, phase_parked (hworker.trans hpc)]
      exact hmono _
  | claimed now result =>
      rw [Paced.phase, Paced.phase, hworker, hpc]
      cases result <;> exact le_refl _
  | _ =>
      rw [Paced.phase, Paced.phase, hworker, hpc]

/-- A step that changes neither the tables nor the permit is paid for by the phases. -/
theorem pays_quiet {w a : Nat} (hdb : t.system.db = s.system.db)
    (hconfig : t.system.config = s.system.config) (hpermit : t.system.permit = s.system.permit)
    (hphase : t.phase + w ≤ s.phase + a) : t.potential + w ≤ s.potential + a := by
  rw [Paced.potential, Paced.potential, hdb, hconfig, hpermit]
  omega

/-- A write that takes from the budget pays for the way to the next claim. -/
theorem pays_write {m : UInt32} (hworker : t.system.worker = .loopTop)
    (hconfig : t.system.config.maxRetries = m ∧ s.system.config.maxRetries = m)
    (hpermit : t.system.permit = s.system.permit)
    (hbudget : t.system.db.budget m < s.system.db.budget m) :
    t.potential + 1 ≤ s.potential := by
  have hphase := phase_loopTop_le hworker
  rw [Paced.potential, Paced.potential, hconfig.1, hconfig.2, hpermit]
  omega

/-- The parked worker sleeps until something is due, or finds nothing for certain. -/
theorem phase_wakeSlept (hpark : s.system.worker.isParked = true)
    (hslept : s.system.worker.sleptBy tick.time = true)
    (hworker : t.system.worker = .loopTop) (hdb : t.system.db = s.system.db)
    (hmoved : t.moved = tick.time) : t.phase + 1 ≤ s.phase := by
  cases hpc : s.system.worker with
  | parked now wait =>
      rw [hpc, WorkerPc.sleptBy, decide_eq_true_eq] at hslept
      rw [phase_parked hpc]
      by_cases hdue : s.system.db.anyDue (now + wait) = true
      · rw [if_pos hdue, phase_loopTop_of_due hworker]
        rw [hdb, hmoved]
        exact anyDue_mono hdue (fun _ hr => hr) hslept
      · rw [if_neg hdue]
        have hle := phase_loopTop_le hworker
        omega
  | _ =>
      rw [hpc] at hpark
      cases hpark

/-- What the sessions do is paid for by their rows and notifications. -/
theorem pays_session (h : Pacing config s) (hmoves : tick.event.moves = false)
    (hstep : Paced.step s tick = some t) :
    t.potential ≤ s.potential + tick.event.allowance config.maxRetries := by
  obtain ⟨hallows, hsystem, hmoved⟩ := pacedStep_eq_some.mp hstep
  have hconfig := step_config hsystem (opens_of_allows hallows)
  rw [hmoves] at hmoved
  have hsame : ∀ r ∈ s.system.db.outbox, r ∈ s.system.db.outbox := fun _ hr => hr
  obtain ⟨time, e⟩ := tick
  cases e with
  | enqueue v message createdAt =>
      obtain ⟨_, ht⟩ := step_enqueue.mp hsystem
      refine pays_quiet (w := 0) (by rw [ht]) hconfig (by rw [ht]) ?_
      exact phase_le_of_sub (by rw [ht]) hmoved (by rw [ht]; exact hsame)
  | insert v message createdAt live id =>
      obtain ⟨_, _, _, ht⟩ := step_insert.mp hsystem
      have hphase : t.phase ≤ s.phase := by
        refine phase_le_of_sub (by rw [ht]) hmoved ?_
        rw [ht]
        exact fun r hr => Db.mem_insertOutbox.mpr (Or.inl hr)
      have hbudget : t.system.db.budget config.maxRetries =
          s.system.db.budget config.maxRetries + (config.maxRetries.toNat + 1) := by
        rw [ht, budget_eq_total, budget_eq_total, Db.total_insertOutbox, rowBudget_newRow]
        rfl
      have hpermit : t.system.permit = s.system.permit := by
        rw [ht]
      show t.potential ≤ s.potential + 8 * (config.maxRetries.toNat + 1)
      rw [Paced.potential, Paced.potential, hconfig, h.configured, hbudget, hpermit]
      omega
  | refuse v message createdAt live error =>
      obtain ⟨_, ht⟩ := step_refuse.mp hsystem
      refine pays_quiet (w := 0) (by rw [ht]) hconfig (by rw [ht]) ?_
      exact phase_le_of_sub (by rw [ht]) hmoved (by rw [ht]; exact hsame)
  | notify v id =>
      obtain ⟨_, ht⟩ := step_notify.mp hsystem
      have hphase : t.phase ≤ s.phase :=
        phase_le_of_sub (by rw [ht]) hmoved (by rw [ht]; exact hsame)
      have hdb : t.system.db = s.system.db := by
        rw [ht]
      show t.potential ≤ s.potential + 4
      rw [Paced.potential, Paced.potential, hconfig, hdb]
      split_ifs <;> omega
  | cancel v =>
      obtain ⟨_, ht⟩ := step_cancel.mp hsystem
      refine pays_quiet (w := 0) (by rw [ht]) hconfig (by rw [ht]) ?_
      exact phase_le_of_sub (by rw [ht]) hmoved (by rw [ht]; exact hsame)
  | setShutdown =>
      have ht := step_setShutdown.mp hsystem
      refine pays_quiet (w := 0) (by rw [ht]) hconfig (by rw [ht]) ?_
      exact phase_le_of_sub (by rw [ht]) hmoved (by rw [ht]; exact hsame)
  | crash config' maxLen => cases opens_of_allows hallows
  | _ => cases hmoves

/-- A move of the worker, while there is something in the outbox, is paid for. -/
theorem pays_move (h : Pacing config s) (hne : s.system.db.outbox ≠ [])
    (hmoves : tick.event.moves = true) (hstep : Paced.step s tick = some t) :
    t.potential + 1 ≤ s.potential + tick.event.allowance config.maxRetries := by
  obtain ⟨hallows, hsystem, hmoved⟩ := pacedStep_eq_some.mp hstep
  have hconfig := step_config hsystem (opens_of_allows hallows)
  have hmax : t.system.config.maxRetries = config.maxRetries ∧
      s.system.config.maxRetries = config.maxRetries := by
    rw [hconfig, h.configured]
    exact ⟨rfl, rfl⟩
  have hcarries := h.carries
  have hbacked := h.backed
  rw [hmoves] at hmoved
  obtain ⟨time, e⟩ := tick
  cases e with
  | claim now result =>
      obtain ⟨⟨hpc, hclaim⟩, ht⟩ := step_claim.mp hsystem
      refine pays_quiet (by rw [ht]) hconfig (by rw [ht]) ?_
      show t.phase + 1 ≤ s.phase
      cases result with
      | none =>
          rw [Paced.allows, Bool.and_eq_true, decide_eq_true_eq] at hallows
          rw [phase_loopTop_of_not_due hpc (not_anyDue_of_claim hclaim hallows.1),
            Paced.phase, ht]
      | some stored =>
          have hthree := three_le_phase_loopTop hpc
          rw [Paced.phase, ht]
          exact hthree
  | claimError =>
      obtain ⟨hpc, ht⟩ := step_claimError.mp hsystem
      refine pays_quiet (by rw [ht]) hconfig (by rw [ht]) ?_
      have hthree := three_le_phase_loopTop hpc
      have hphase : t.phase = 8 := by
        rw [Paced.phase, ht]
      show t.phase + 1 ≤ s.phase + 8
      omega
  | deliver stored now =>
      obtain ⟨hpc, ht⟩ := step_deliver.mp hsystem
      refine pays_quiet (by rw [ht]) hconfig (by rw [ht]) ?_
      rw [Paced.phase, Paced.phase, ht, hpc]
      exact le_refl _
  | sinkOk stored now =>
      obtain ⟨hpc, ht⟩ := step_sinkOk.mp hsystem
      refine pays_quiet (by rw [ht]) hconfig (by rw [ht]) ?_
      rw [Paced.phase, Paced.phase, ht, hpc]
      exact le_refl _
  | sinkErr stored now error =>
      obtain ⟨hpc, ht⟩ := step_sinkErr.mp hsystem
      refine pays_quiet (by rw [ht]) hconfig (by rw [ht]) ?_
      have hphase : t.phase = 0 := by
        rw [Paced.phase, ht]
        rcases handleFailure_cases s.system.config stored now error with
          ⟨_, hnext⟩ | ⟨_, hnext⟩
        · simp only [hnext]
        · simp only [hnext]
      rw [hphase, Paced.phase, hpc]
      exact le_refl _
  | markDelivered id =>
      obtain ⟨hpc, ht⟩ := step_markDelivered.mp hsystem
      obtain ⟨r, hr, rfl⟩ := hbacked.exists_row (by rw [hpc]; rfl)
      refine pays_write (by rw [ht]) hmax (by rw [ht]) ?_
      rw [ht]
      exact budget_removed_lt (Db.total_markDelivered hr)
  | deadLetter id text failedAt =>
      obtain ⟨hpc, ht⟩ := step_deadLetter.mp hsystem
      obtain ⟨r, hr, rfl⟩ := hbacked.exists_row (by rw [hpc]; rfl)
      refine pays_write (by rw [ht]) hmax (by rw [ht]) ?_
      rw [ht]
      exact budget_removed_lt (Db.total_deadLetter hr text failedAt)
  | reschedule id a next =>
      obtain ⟨hpc, ht⟩ := step_reschedule.mp hsystem
      rw [hpc] at hbacked hcarries
      obtain ⟨r, hr, rfl, hsucc⟩ := hbacked
      refine pays_write (by rw [ht]) hmax (by rw [ht]) ?_
      rw [ht]
      exact budget_reschedule_lt next hr hsucc hcarries.1 hcarries.2.1
  | writeError =>
      obtain ⟨_, ht⟩ := step_writeError.mp hsystem
      refine pays_quiet (by rw [ht]) hconfig (by rw [ht]) ?_
      have hphase : t.phase ≤ 7 := phase_loopTop_le (by rw [ht])
      show t.phase + 1 ≤ s.phase + 8
      omega
  | nothingDue now =>
      obtain ⟨hpc, ht⟩ := step_nothingDue.mp hsystem
      refine pays_quiet (by rw [ht]) hconfig (by rw [ht]) ?_
      have hphase : t.phase ≤ 5 := by
        rw [Paced.phase, ht]
        cases s.system.shutdown with
        | true => exact Nat.zero_le 5
        | false => exact le_refl 5
      have hs : s.phase = 6 := by
        rw [Paced.phase, hpc]
      show t.phase + 1 ≤ s.phase
      omega
  | nextWakeup now =>
      obtain ⟨hpc, ht⟩ := step_nextWakeup.mp hsystem
      rw [hpc] at hcarries
      refine pays_quiet (by rw [ht]) hconfig (by rw [ht]) ?_
      have hphase : t.phase = 4 := by
        rw [Paced.phase, ht]
        exact if_pos (anyDue_idleWait hcarries h.fits.dueTimes hne)
      rw [hphase, Paced.phase, hpc]
      exact le_refl _
  | nextWakeupError now =>
      obtain ⟨hpc, ht⟩ := step_nextWakeupError.mp hsystem
      refine pays_quiet (by rw [ht]) hconfig (by rw [ht]) ?_
      have hphase : t.phase ≤ 8 := by
        rw [Paced.phase, ht]
        dsimp only
        split_ifs <;> omega
      have hs : s.phase = 5 := by
        rw [Paced.phase, hpc]
      show t.phase + 1 ≤ s.phase + 8
      omega
  | wakeNotified =>
      obtain ⟨⟨hpark, hpermit⟩, ht⟩ := step_wakeNotified.mp hsystem
      have hphase : t.phase ≤ 7 := phase_loopTop_le (by rw [ht])
      have hfour := four_le_phase_parked hpark
      have hdb : t.system.db = s.system.db := by
        rw [ht]
      have hspent : t.system.permit = false := by
        rw [ht]
      show t.potential + 1 ≤ s.potential
      rw [Paced.potential, Paced.potential, hconfig, hdb, hpermit, hspent, if_pos rfl,
        if_neg (by simp)]
      omega
  | wakeSlept =>
      obtain ⟨hpark, ht⟩ := step_wakeSlept.mp hsystem
      rw [Paced.allows, Bool.and_eq_true] at hallows
      refine pays_quiet (by rw [ht]) hconfig (by rw [ht]) ?_
      exact phase_wakeSlept hpark hallows.2 (by rw [ht]) (by rw [ht]) hmoved
  | wakeShutdown =>
      obtain ⟨⟨hpark, _⟩, ht⟩ := step_wakeShutdown.mp hsystem
      refine pays_quiet (by rw [ht]) hconfig (by rw [ht]) ?_
      have hphase : t.phase ≤ 7 := phase_loopTop_le (by rw [ht])
      have hfour := four_le_phase_parked hpark
      show t.phase + 1 ≤ s.phase + 8
      omega
  | backoffElapsed =>
      obtain ⟨hpc, ht⟩ := step_backoffElapsed.mp hsystem
      refine pays_quiet (by rw [ht]) hconfig (by rw [ht]) ?_
      have hs : s.phase = 8 := by
        rw [Paced.phase, hpc]
      have hphase : t.phase ≤ 7 := by
        cases hshutdown : s.system.shutdown with
        | true =>
            rw [Paced.phase, ht]
            simp [hshutdown]
        | false =>
            apply phase_loopTop_le
            rw [ht]
            simp [hshutdown]
      show t.phase + 1 ≤ s.phase
      omega
  | backoffInterrupted =>
      obtain ⟨⟨hpc, _⟩, ht⟩ := step_backoffInterrupted.mp hsystem
      refine pays_quiet (by rw [ht]) hconfig (by rw [ht]) ?_
      rw [Paced.phase, Paced.phase, ht, hpc]
      show 0 + 1 ≤ 8
      omega
  | _ => cases hmoves

/-- The outbox is empty. -/
def Paced.atRest (s : Paced) : Prop :=
  s.system.db.outbox = []

theorem paced_pays (config : DeliveryWorker) :
    Progress.Pays Paced.step (Pacing config) Paced.atRest (fun tick => tick.event.work)
      (fun tick => tick.event.allowance config.maxRetries) Paced.potential := by
  refine ⟨fun _ _ _ h hstep => pacing_step h hstep, ?_⟩
  intro s tick t h hne hstep
  rw [Event.work]
  split_ifs with hmoves
  · exact pays_move h hne hmoves hstep
  · rw [Bool.not_eq_true] at hmoves
    exact pays_session h hmoves hstep

/-- The potential in terms of what is in the outbox. -/
theorem potential_le (h : Pacing config s) :
    s.potential ≤ 8 * s.system.db.budget config.maxRetries + 12 := by
  have hphase : s.phase ≤ 8 := by
    rw [Paced.phase.eq_def]
    split <;> try split_ifs
    all_goals omega
  rw [Paced.potential, h.configured]
  split_ifs <;> omega

/-! ## The worker can always move -/

theorem step_at {e : Event} {u : System} (hallows : s.allows tick = true)
    (hevent : tick.event = e) (hstep : step s.system e = some u) :
    ∃ t, Paced.step s tick = some t := by
  refine ⟨{ system := u, moved := if tick.event.moves then tick.time else s.moved }, ?_⟩
  refine pacedStep_eq_some.mpr ⟨hallows, ?_, rfl⟩
  rw [hevent]
  exact hstep

/-- Nothing keeps the worker where it is: a store call, the sink or the clock moves it. -/
theorem can_move (hgo : s.system.worker ≠ .stopped) :
    ∃ tick t, tick.event.moves = true ∧ tick.event.hitch = false ∧
      Paced.step s tick = some t := by
  have hnow : decide (s.moved ≤ s.moved) = true := decide_eq_true (le_refl _)
  have hmove : ∀ e u, e.moves = true → e.hitch = false →
      s.allows ⟨s.moved, e⟩ = true → step s.system e = some u →
      ∃ tick t, tick.event.moves = true ∧ tick.event.hitch = false ∧
        Paced.step s tick = some t := by
    intro e u hmoves hhitch hallows hstep
    obtain ⟨t, ht⟩ := step_at hallows rfl hstep
    exact ⟨⟨s.moved, e⟩, t, hmoves, hhitch, ht⟩
  cases hpc : s.system.worker with
  | loopTop =>
      refine hmove (.claim s.moved (MessageStore.claimNextReady s.moved s.system.db)) _ rfl rfl
        ?_ (step_claim.mpr ⟨⟨hpc, rfl⟩, rfl⟩)
      show (decide (s.moved ≤ s.moved) && decide (s.moved ≤ s.moved)) = true
      rw [hnow]
      rfl
  | claimed now result =>
      cases result with
      | none => exact hmove (.nothingDue now) _ rfl rfl hnow (step_nothingDue.mpr ⟨hpc, rfl⟩)
      | some stored =>
          exact hmove (.deliver stored now) _ rfl rfl hnow (step_deliver.mpr ⟨hpc, rfl⟩)
  | delivering stored now =>
      exact hmove (.sinkOk stored now) _ rfl rfl hnow (step_sinkOk.mpr ⟨hpc, rfl⟩)
  | marking id =>
      exact hmove (.markDelivered id) _ rfl rfl hnow (step_markDelivered.mpr ⟨hpc, rfl⟩)
  | deadLettering id text =>
      exact hmove (.deadLetter id text s.moved) _ rfl rfl hnow (step_deadLetter.mpr ⟨hpc, rfl⟩)
  | rescheduling id a next =>
      exact hmove (.reschedule id a next) _ rfl rfl hnow (step_reschedule.mpr ⟨hpc, rfl⟩)
  | idleWaiting now =>
      exact hmove (.nextWakeup now) _ rfl rfl hnow (step_nextWakeup.mpr ⟨hpc, rfl⟩)
  | parked now wait =>
      have hallows : s.allows ⟨max s.moved (now + wait), .wakeSlept⟩ = true := by
        rw [Paced.allows, hpc, WorkerPc.sleptBy, Bool.and_eq_true, decide_eq_true_eq,
          decide_eq_true_eq]
        exact ⟨le_max_left _ _, le_max_right _ _⟩
      obtain ⟨t, ht⟩ := step_at hallows rfl (step_wakeSlept.mpr ⟨by rw [hpc]; rfl, rfl⟩)
      exact ⟨_, t, rfl, rfl, ht⟩
  | storageBackoff =>
      exact hmove .backoffElapsed _ rfl rfl hnow (step_backoffElapsed.mpr ⟨hpc, rfl⟩)
  | stopped => exact absurd hpc hgo

/-! ## What becomes of the messages -/

/-- The events of a paced run are a run. -/
theorem run_of_paced {es : List Tick} (hrun : Replay.replay Paced.step s es = some t) :
    run s.system (events es) = some t.system := by
  refine Replay.replay_invariant
    (I := fun es t => run s.system (events es) = some t.system) rfl ?_ hrun
  intro es u tick v _ hI hstep
  rw [events, List.map_append, List.map_singleton]
  exact Replay.replay_concat_eq_some.mpr ⟨u.system, hI, (pacedStep_eq_some.mp hstep).2.1⟩

/-- The sink has answered `Ok` for the message. -/
def Delivered (es : List Event) (id : Int) : Prop :=
  ∃ stored now, Event.sinkOk stored now ∈ es ∧ stored.id = id

/-- The message is in the dead-letter table. -/
def Buried (db : Db) (columns : MailColumns) : Prop :=
  ∃ d ∈ db.deadLetter, d.toMailColumns = columns

/-- A message is in the outbox, delivered or buried. -/
def Kept (x : Int × MailColumns) (es : List Event) (db : Db) : Prop :=
  (∃ r ∈ db.outbox, r.entry = x) ∨ Delivered es x.1 ∨ Buried db x.2

theorem Buried.append {columns : MailColumns} (h : Buried db columns)
    {db' : Db} {rows : List DeadLetterRow} (hdb : db'.deadLetter = db.deadLetter ++ rows) :
    Buried db' columns := by
  obtain ⟨d, hd, hcolumns⟩ := h
  exact ⟨d, by rw [hdb]; exact List.mem_append_left _ hd, hcolumns⟩

/-- A row that is moved to the dead-letter table is there. -/
theorem buried_deadLetter {r : OutboxRow} (hr : r ∈ db.outbox) (text : Str) (failedAt : Int) :
    Buried (MessageStore.deadLetter r.id text failedAt db) r.toMailColumns := by
  have hcolumns := deadLetterRows_columns db r.id text failedAt
  have hmem : r.toMailColumns ∈
      ((db.outbox.filter (fun q => q.id = r.id)).map OutboxRow.entry).map Prod.snd := by
    rw [db.filter_id_eq hr]
    exact List.mem_singleton_self _
  rw [← hcolumns] at hmem
  obtain ⟨d, hd, hdcolumns⟩ := List.mem_map.mp hmem
  exact ⟨d, List.mem_append_right _ hd, hdcolumns⟩

theorem Delivered.mono {es fs : List Event} {id : Int} (h : Delivered es id) :
    Delivered (es ++ fs) id := by
  obtain ⟨stored, now, hmem, hid⟩ := h
  exact ⟨stored, now, List.mem_append_left _ hmem, hid⟩

theorem kept_step {x : Int × MailColumns} {es : List Event} {u v : System} {e : Event}
    (h : Kept x es u.db) (hjustified : Justified es u) (hstep : step u e = some v) :
    Kept x (es ++ [e]) v.db := by
  have hdelivered : Delivered es x.1 → Kept x (es ++ [e]) v.db :=
    fun hdelivered => Or.inr (Or.inl hdelivered.mono)
  rw [step_db hstep] at hdelivered ⊢
  rcases h with ⟨r, hr, rfl⟩ | h | h
  · cases e with
    | insert w message createdAt live id =>
        exact Or.inl ⟨r, Db.mem_insertOutbox.mpr (Or.inl hr), rfl⟩
    | markDelivered id =>
        by_cases hid : r.id = id
        · have hmarking := hjustified.marking id (step_markDelivered.mp hstep).1
          rw [← hid] at hmarking
          exact hdelivered hmarking
        · exact Or.inl ⟨r, MessageStore.mem_markDelivered.mpr ⟨hr, hid⟩, rfl⟩
    | deadLetter id text failedAt =>
        by_cases hid : r.id = id
        · rw [← hid]
          exact Or.inr (Or.inr (buried_deadLetter hr text failedAt))
        · exact Or.inl ⟨r, MessageStore.mem_deadLetter.mpr ⟨hr, hid⟩, rfl⟩
    | reschedule id a next =>
        refine Or.inl ⟨_, MessageStore.mem_reschedule.mpr ⟨r, hr, rfl⟩, ?_⟩
        rw [OutboxRow.entry, OutboxRow.entry, Db.setSchedule_id, Db.setSchedule_columns]
    | _ => exact Or.inl ⟨r, hr, rfl⟩
  · exact hdelivered h
  · refine Or.inr (Or.inr ?_)
    cases e with
    | deadLetter id text failedAt => exact h.append rfl
    | _ => exact h

theorem kept_run {x : Int × MailColumns} {before es : List Event} {u v : System}
    (hjustified : Justified before u) (h : Kept x before u.db) (hrun : run u es = some v) :
    Kept x (before ++ es) v.db := by
  refine (Replay.replay_invariant
    (I := fun es v => Justified (before ++ es) v ∧ Kept x (before ++ es) v.db) ?_ ?_ hrun).2
  · rw [List.append_nil]
    exact ⟨hjustified, h⟩
  · rintro es w e w' _ ⟨hj, hk⟩ hstep
    rw [← List.append_assoc]
    exact ⟨justified_step hj hstep, kept_step hk hj hstep⟩

/-! ## The outbox empties -/

/-- The moves of the worker. -/
def worked (es : List Tick) : Nat :=
  (es.map fun tick => tick.event.work).sum

/-- What the events of the outside allow the worker. -/
def granted (maxRetries : UInt32) (es : List Tick) : Nat :=
  (es.map fun tick => tick.event.allowance maxRetries).sum

/-- **The outbox empties**, from every state of every run: the worker can move unless it has
stopped, and among a bounded number of moves there is a point at which nothing is left of
what was there, all of it delivered or in the dead-letter table. -/
theorem outbox_empties (config : DeliveryWorker) (maxLen : Nat) (db : Db) (clock : Int)
    (before : List Tick) (s : Paced) (hfits : Fits config.maxRetries db) (hclock : 0 ≤ clock)
    (hbefore : Replay.replay Paced.step (Paced.start config maxLen db clock) before = some s) :
    (s.system.worker = .stopped ∨ ∃ tick t, tick.event.moves = true ∧
      tick.event.hitch = false ∧ Paced.step s tick = some t) ∧
    ∀ es t, Replay.replay Paced.step s es = some t →
      8 * s.system.db.budget config.maxRetries + 12 + granted config.maxRetries es < worked es →
      ∃ mid post u, es = mid ++ post ∧ Replay.replay Paced.step s mid = some u ∧
        u.system.db.outbox = [] ∧ ∀ r ∈ s.system.db.outbox,
          Delivered (events (before ++ mid)) r.id ∨ Buried u.system.db r.toMailColumns := by
  have hpacing := pacing_run (pacing_start maxLen hfits hclock) hbefore
  have hjustified := run_justified (run_of_paced hbefore)
  constructor
  · by_cases hgo : s.system.worker = .stopped
    · exact Or.inl hgo
    · exact Or.inr (can_move hgo)
  · intro es t hrun hlong
    have hpotential := potential_le hpacing
    obtain ⟨mid, post, u, heq, hmid, hrest⟩ :=
      (paced_pays config).rests hpacing hrun (by rw [worked, granted] at hlong; omega)
    refine ⟨mid, post, u, heq, hmid, hrest, ?_⟩
    intro r hr
    have hkept := kept_run (x := r.entry) hjustified (Or.inl ⟨r, hr, rfl⟩) (run_of_paced hmid)
    rw [events, List.map_append]
    rcases hkept with ⟨q, hq, _⟩ | hdelivered | hburied
    · rw [Paced.atRest.eq_1] at hrest
      rw [hrest] at hq
      cases hq
    · exact Or.inl hdelivered
    · exact Or.inr hburied

/-- Nothing due, and an hour of sleep. -/
def idleRound (t : Int) : List Tick :=
  [⟨t, .claim t none⟩, ⟨t, .nothingDue t⟩, ⟨t, .nextWakeup t⟩, ⟨t + 3600, .wakeSlept⟩]

/-- A message arrives while the worker is parked. -/
def lateArrival : List Tick :=
  let m : Message :=
    { fromAddr := none, toAddrs := [['a']], subject := none, body := ['x'] }
  [⟨5, .claim 5 none⟩, ⟨5, .nothingDue 5⟩, ⟨5, .nextWakeup 5⟩, ⟨6, .enqueue 0 m 6⟩,
    ⟨6, .insert 0 m 6 true 1⟩, ⟨6, .notify 0 1⟩]

/-- It is sent, and the worker goes on for hours. -/
def sentAndIdle : List Tick :=
  let m : Message :=
    { fromAddr := none, toAddrs := [['a']], subject := none, body := ['x'] }
  [⟨6, .wakeNotified⟩, ⟨6, .claim 6 (some ⟨1, m, 0⟩)⟩, ⟨6, .deliver ⟨1, m, 0⟩ 6⟩,
    ⟨7, .sinkOk ⟨1, m, 0⟩ 6⟩, ⟨7, .markDelivered 1⟩] ++
    idleRound 8 ++ idleRound 3608 ++ idleRound 7208 ++ idleRound 10808

theorem sentAndIdle_empties :
    ∃ s, Replay.replay Paced.step (Paced.start ⟨0, 60⟩ 10 Db.empty 0) lateArrival = some s ∧
      ∃ mid post u, sentAndIdle = mid ++ post ∧ Replay.replay Paced.step s mid = some u ∧
        u.system.db.outbox = [] ∧ ∀ r ∈ s.system.db.outbox,
          Delivered (events (lateArrival ++ mid)) r.id ∨ Buried u.system.db r.toMailColumns := by
  refine ⟨_, rfl, (outbox_empties ⟨0, 60⟩ 10 Db.empty 0 lateArrival _
    ⟨by decide, by simp [Db.empty], by simp [Db.empty]⟩ (le_refl 0) rfl).2 sentAndIdle _ rfl ?_⟩
  decide

end Steps

end Queue
end ChimneyPost
