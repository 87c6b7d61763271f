import ChimneyPost.Queue.Budget

/-!
# When the backoff elapses

The events of a run with the time of a clock that never goes back.  A claim asks for
what is due at a clock value read some time before it; a delivery takes any time.

`handle_failure` adds the backoff to the clock value of the claim, not to the time of
the failure, so a sink that takes its time to fail uses up the backoff
(`slowSink_retried_early`).  When a failure comes in the second of its claim, and no
earlier failure of the message was lost, the next attempt waits as long as it should
(`backoff_elapses_of_prompt`).
-/

namespace ChimneyPost
namespace Queue

/-- An event and the clock time at which it happens. -/
structure Tick where
  time : Int
  event : Event
deriving DecidableEq

/-- The system and its clock. -/
structure Timed where
  system : System
  clock : Int

/-- The clock value a claim asks with has been read before. -/
def Tick.readsPast (tick : Tick) : Bool :=
  match tick.event with
  | .claim now _ => now ≤ tick.time
  | _ => true

/-- One event at its time. -/
def Timed.step (s : Timed) (tick : Tick) : Option Timed :=
  if s.clock ≤ tick.time ∧ tick.readsPast then
    (Queue.step s.system tick.event).map fun t => { system := t, clock := tick.time }
  else
    none

/-- The events of a timed run. -/
def events (es : List Tick) : List Event :=
  es.map Tick.event

/-- A process that opens the database `db` at a clock time. -/
def Timed.start (config : DeliveryWorker) (maxLen : Nat) (db : Db) (clock : Int) :
    Timed where
  system := System.start config maxLen db
  clock := clock

/-- The event is a `sink.deliver` call for the message with this id. -/
def Tick.attempts (id : Int) (tick : Tick) : Bool :=
  tick.event.isSend (fun i => i = id)

/--
After a failed attempt at time `t`, the `k`-th of its message, that is rescheduled, the
next attempt comes no earlier than the backoff for `k` after `t`.
-/
def BackoffElapses (s₀ : Timed) (es : List Tick) : Prop :=
  ∀ (pre : List Tick) (t : Int) (stored : StoredMessage) (now : Int)
    (error : ChimneyError) (mid : List Tick) (t₁ : Int) (counter : UInt32) (due : Int)
    (later : List Tick) (t' : Int) (stored' : StoredMessage) (now' : Int)
    (post : List Tick) (s : Timed),
    es = pre ++ ⟨t, .sinkErr stored now error⟩ ::
      (mid ++ ⟨t₁, .reschedule stored.id counter due⟩ ::
        (later ++ ⟨t', .deliver stored' now'⟩ :: post)) →
    Replay.replay Timed.step s₀ pre = some s →
    (∀ tick ∈ mid ++ later, tick.attempts stored.id = false) →
    stored'.id = stored.id →
    failures stored.id (events pre) + 1 ≤ s.system.config.maxRetries.toNat →
    t + (backoffSeconds s.system.config.retryBackoff
      (UInt32.ofNat (failures stored.id (events pre) + 1)) maxBackoffSeconds).toNat ≤ t'

/-- How a failed attempt has to be for its backoff to elapse. -/
structure PromptFailure (config : DeliveryWorker) (es : List Tick) (t : Int)
    (stored : StoredMessage) (now : Int) : Prop where
  /-- it fails in the second of its claim, and the counter has kept up -/
  prompt : config.retryBackoff = 0 ∨
    (t = now ∧ stored.attempts.toNat = failures stored.id (events es))
  /-- the due time is an `i64` -/
  fits : -9223372036854775808 ≤ now ∧ now + 900 ≤ 9223372036854775807

/-- All failed attempts with a retry left are prompt. -/
def Prompt (s₀ : Timed) (es : List Tick) : Prop :=
  ∀ (pre : List Tick) (t : Int) (stored : StoredMessage) (now : Int)
    (error : ChimneyError) (post : List Tick) (s : Timed),
    es = pre ++ ⟨t, .sinkErr stored now error⟩ :: post →
    Replay.replay Timed.step s₀ pre = some s →
    failures stored.id (events pre) + 1 ≤ s.system.config.maxRetries.toNat →
    PromptFailure s.system.config pre t stored now

section Steps

variable {s t : Timed} {tick : Tick}

theorem timedStep_eq_some :
    Timed.step s tick = some t ↔
      s.clock ≤ tick.time ∧ tick.readsPast = true ∧
        step s.system tick.event = some t.system ∧ t.clock = tick.time := by
  rw [Timed.step]
  by_cases hguard : s.clock ≤ tick.time ∧ tick.readsPast
  · rw [if_pos hguard, Option.map_eq_some_iff]
    constructor
    · rintro ⟨u, hu, rfl⟩
      exact ⟨hguard.1, hguard.2, hu, rfl⟩
    · rintro ⟨_, _, hstep, hclock⟩
      refine ⟨t.system, hstep, ?_⟩
      rw [← hclock]
  · rw [if_neg hguard]
    constructor
    · intro h
      cases h
    · rintro ⟨hle, hreads, _⟩
      exact absurd ⟨hle, hreads⟩ hguard

/-- The clock never goes back. -/
theorem clock_le_of_run {es : List Tick} (hrun : Replay.replay Timed.step s es = some t) :
    s.clock ≤ t.clock := by
  refine Replay.replay_invariant (I := fun _ t => s.clock ≤ t.clock) (le_refl _) ?_ hrun
  intro es u tick v _ hI hstep
  obtain ⟨hle, _, _, hclock⟩ := timedStep_eq_some.mp hstep
  rw [hclock]
  exact le_trans hI hle

end Steps

/-- The events of a timed run are a run. -/
theorem run_events {s₀ s : Timed} {es : List Tick}
    (hrun : Replay.replay Timed.step s₀ es = some s) :
    run s₀.system (events es) = some s.system := by
  refine Replay.replay_invariant
    (I := fun es s => run s₀.system (events es) = some s.system) rfl ?_ hrun
  intro es u tick v _ hI hstep
  obtain ⟨_, _, hsystem, _⟩ := timedStep_eq_some.mp hstep
  rw [events, List.map_append, List.map_singleton]
  exact Replay.replay_concat_eq_some.mpr ⟨u.system, hI, hsystem⟩

/-! ## The worker between two attempts for one message -/

section Worker

variable {s t : System} {e : Event} {id : Int}

/-- Only a claim brings a claimed message. -/
theorem claimed_of_step {now : Int} {result : Option StoredMessage}
    (hstep : step s e = some t) (h : t.worker = .claimed now result) :
    e = .claim now result ∨ s.worker = .claimed now result := by
  cases e with
  | claim now' result' =>
      obtain ⟨_, rfl⟩ := step_claim.mp hstep
      obtain ⟨rfl, rfl⟩ := WorkerPc.claimed.inj h
      exact Or.inl rfl
  | sinkErr stored now' error =>
      obtain ⟨_, rfl⟩ := step_sinkErr.mp hstep
      rcases handleFailure_cases s.config stored now' error with ⟨_, hpc⟩ | ⟨_, hpc⟩
      · rw [hpc] at h
        cases h
      · rw [hpc] at h
        cases h
  | nothingDue now' =>
      obtain ⟨_, rfl⟩ := step_nothingDue.mp hstep
      cases hs : s.shutdown <;> simp [hs] at h
  | backoffElapsed =>
      obtain ⟨_, rfl⟩ := step_backoffElapsed.mp hstep
      cases hs : s.shutdown <;> simp [hs] at h
  | enqueue => simp at hstep; exact Or.inr (by simpa [hstep] using h)
  | insert => simp at hstep; exact Or.inr (by simpa [hstep] using h)
  | refuse => simp at hstep; exact Or.inr (by simpa [hstep] using h)
  | notify => simp at hstep; exact Or.inr (by simpa [hstep] using h)
  | cancel => simp at hstep; exact Or.inr (by simpa [hstep] using h)
  | setShutdown => simp at hstep; exact Or.inr (by simpa [hstep] using h)
  | _ =>
      simp at hstep
      simp [hstep, System.start] at h

theorem holding_handleFailure (w : DeliveryWorker) (stored : StoredMessage) (now : Int)
    (error : ChimneyError) :
    (w.handleFailure stored now error).holding = some stored.id := by
  rcases handleFailure_cases w stored now error with ⟨_, hpc⟩ | ⟨_, hpc⟩
  · rw [hpc]
    rfl
  · rw [hpc]
    rfl

/-- Without a `sink.deliver` call for a message the worker does not begin to work on it. -/
theorem free_step (hstep : step s e = some t) (hnot : e.isSend (fun i => i = id) = false)
    (hfree : s.worker.holding ≠ some id) : t.worker.holding ≠ some id := by
  by_cases hrow : e.onRow = true
  · cases e with
    | deliver stored now =>
        obtain ⟨_, rfl⟩ := step_deliver.mp hstep
        intro h
        rw [Event.isSend, Option.some.inj h] at hnot
        simp at hnot
    | sinkOk stored now =>
        obtain ⟨hpc, rfl⟩ := step_sinkOk.mp hstep
        rw [hpc] at hfree
        exact hfree
    | sinkErr stored now error =>
        obtain ⟨hpc, rfl⟩ := step_sinkErr.mp hstep
        rw [hpc] at hfree
        show (s.config.handleFailure stored now error).holding ≠ some id
        rw [holding_handleFailure]
        exact hfree
    | markDelivered => simp at hstep; simp [hstep, WorkerPc.holding]
    | deadLetter => simp at hstep; simp [hstep, WorkerPc.holding]
    | reschedule => simp at hstep; simp [hstep, WorkerPc.holding]
    | writeError => simp at hstep; simp [hstep, WorkerPc.holding]
    | crash => simp at hstep; simp [hstep, WorkerPc.holding, System.start]
    | _ => cases hrow
  · rw [Bool.not_eq_true] at hrow
    rcases (step_aside hstep hrow).2 with hsame | ⟨_, hnone⟩
    · rw [hsame]
      exact hfree
    · rw [hnone]
      simp

/-- A pending write is made, or given up, but not changed. -/
theorem rescheduling_step {counter : UInt32} {due : Int} (hstep : step s e = some t)
    (hpc : s.worker = .rescheduling id counter due) :
    t.worker = .rescheduling id counter due ∨ t.worker.holding ≠ some id := by
  by_cases hrow : e.onRow = true
  · right
    cases e with
    | deliver => simp [hpc] at hstep
    | sinkOk => simp [hpc] at hstep
    | sinkErr => simp [hpc] at hstep
    | markDelivered => simp [hpc] at hstep
    | deadLetter => simp [hpc] at hstep
    | reschedule => simp at hstep; simp [hstep, WorkerPc.holding]
    | writeError => simp at hstep; simp [hstep, WorkerPc.holding]
    | crash => simp at hstep; simp [hstep, WorkerPc.holding, System.start]
    | _ => cases hrow
  · rw [Bool.not_eq_true] at hrow
    rcases (step_aside hstep hrow).2 with hsame | ⟨hnone, _⟩
    · exact Or.inl (hsame.trans hpc)
    · rw [hpc] at hnone
      cases hnone

end Worker

/-- Runs without an attempt for a message keep what steps without one keep. -/
theorem keeps_without_attempt {s u : Timed} {es : List Tick} {id : Int}
    {I : Timed → Prop}
    (hkeeps : ∀ v tick w, I v → Timed.step v tick = some w →
      tick.attempts id = false → I w)
    (hinit : I s) (hnone : ∀ tick ∈ es, tick.attempts id = false)
    (hrun : Replay.replay Timed.step s es = some u) : I u := by
  refine Replay.replay_invariant_of_stepsMeet
    (C := fun _ tick => tick.attempts id = false) (I := fun _ v => I v) hinit ?_ ?_ hrun
  · intro _ v tick w _ hI hnot hstep
    exact hkeeps v tick w hI hstep hnot
  · intro pre tick post v heq _
    apply hnone
    rw [heq]
    simp

/-- The reschedule that is made is the one that was pending. -/
theorem pending_kept {s u : Timed} {es : List Tick} {id due due' : Int}
    {counter counter' : UInt32} (hpc : s.system.worker = .rescheduling id counter due)
    (hrun : Replay.replay Timed.step s es = some u)
    (hnone : ∀ tick ∈ es, tick.attempts id = false)
    (hpc' : u.system.worker = .rescheduling id counter' due') : due' = due := by
  have hsame : u.system.worker = .rescheduling id counter due ∨
      u.system.worker.holding ≠ some id := by
    refine keeps_without_attempt
      (I := fun v => v.system.worker = .rescheduling id counter due ∨
        v.system.worker.holding ≠ some id) ?_ (Or.inl hpc) hnone hrun
    intro v tick w hI hstep hnot
    obtain ⟨_, _, hsystem, _⟩ := timedStep_eq_some.mp hstep
    rcases hI with hpending | hfree
    · exact rescheduling_step hsystem hpending
    · exact Or.inr (free_step hsystem hnot hfree)
  rcases hsame with hpending | hfree
  · exact (WorkerPc.rescheduling.inj (hpc'.symm.trans hpending)).2.2
  · rw [hpc'] at hfree
    exact absurd rfl hfree

/-- The message waits: its row is due at `due`, and who asks for it asks no earlier. -/
structure Waits (id due : Int) (s : Timed) : Prop where
  handedOut : id ≤ s.system.db.outboxSeq
  row : ∀ r ∈ s.system.db.outbox, r.id = id → r.nextAttemptAt = due
  free : s.system.worker.holding ≠ some id
  claimed : ∀ now stored, s.system.worker = .claimed now (some stored) → stored.id = id →
    due ≤ now ∧ now ≤ s.clock

/-- A rescheduled message waits. -/
theorem waits_reschedule {s t : Timed} {time id due : Int} {counter : UInt32}
    (hhanded : id ≤ s.system.db.outboxSeq)
    (hstep : Timed.step s ⟨time, .reschedule id counter due⟩ = some t) :
    Waits id due t := by
  obtain ⟨_, _, hsystem, _⟩ := timedStep_eq_some.mp hstep
  obtain ⟨_, hsystem⟩ := step_reschedule.mp hsystem
  constructor
  · rw [hsystem]
    exact hhanded
  · intro r hr hid
    rw [hsystem] at hr
    obtain ⟨q, _, rfl⟩ := MessageStore.mem_reschedule.mp hr
    rw [Db.setSchedule_id] at hid
    rw [Db.setSchedule, if_pos hid]
  · rw [hsystem]
    simp [WorkerPc.holding]
  · intro now stored hpc
    rw [hsystem] at hpc
    cases hpc

/-- It waits until it is sent again. -/
theorem waits_step {s t : Timed} {tick : Tick} {id due : Int} (h : Waits id due s)
    (hstep : Timed.step s tick = some t) (hnot : tick.attempts id = false) :
    Waits id due t := by
  obtain ⟨hle, hreads, hsystem, hclock⟩ := timedStep_eq_some.mp hstep
  have hmono := step_outboxSeq_le hsystem
  constructor
  case handedOut => exact le_trans h.handedOut hmono
  case free => exact free_step hsystem hnot h.free
  case row =>
    rw [step_db hsystem]
    cases hevent : tick.event with
    | insert u message createdAt live id' =>
        intro r hr hid
        rcases Db.mem_insertOutbox.mp hr with hr | rfl
        · exact h.row r hr hid
        · have hhanded := h.handedOut
          rw [Db.newRow_id] at hid
          omega
    | markDelivered id' =>
        intro r hr hid
        exact h.row r (MessageStore.mem_markDelivered.mp hr).1 hid
    | deadLetter id' lastError failedAt =>
        intro r hr hid
        exact h.row r (MessageStore.mem_deadLetter.mp hr).1 hid
    | reschedule id' counter next =>
        -- the worker reschedules the row in its hands, which is another one
        rw [hevent] at hsystem
        have hother : id' ≠ id := by
          rintro rfl
          apply h.free
          rw [(step_reschedule.mp hsystem).1]
          rfl
        intro r hr hid
        obtain ⟨q, hq, rfl⟩ := MessageStore.mem_reschedule.mp hr
        rw [Db.setSchedule_id] at hid
        have hne : q.id ≠ id' := by
          rw [hid]
          exact hother.symm
        rw [Db.setSchedule, if_neg hne]
        exact h.row q hq hid
    | _ => exact h.row
  case claimed =>
    intro now stored hpc hid
    rcases claimed_of_step hsystem hpc with hclaim | hbefore
    · rw [hclaim] at hsystem
      obtain ⟨⟨_, hfound⟩, _⟩ := step_claim.mp hsystem
      obtain ⟨r, hr, hstored, hdue, _⟩ := MessageStore.claimNextReady_eq_some hfound
      have hrid : r.id = id := by
        rw [← hid, ← hstored]
        rfl
      constructor
      · rw [← h.row r hr hrid]
        exact hdue
      · rw [hclock]
        simpa [Tick.readsPast, hclaim] using hreads
    · obtain ⟨hdue, hpast⟩ := h.claimed now stored hbefore hid
      refine ⟨hdue, ?_⟩
      rw [hclock]
      exact le_trans hpast hle

/-- Without a backoff there is nothing to wait for. -/
theorem backoffSeconds_zero_base (attempt : UInt32) (cap : UInt64) :
    (backoffSeconds 0 attempt cap).toNat = 0 := by
  by_cases hzero : attempt = 0
  · subst hzero
    rfl
  · rw [backoffSeconds_toNat hzero]
    simp

/-- A failure that leaves a retry is followed by a reschedule at the backoff after it. -/
theorem handleFailure_of_prompt {config : DeliveryWorker} {stored : StoredMessage}
    {now : Int} (error : ChimneyError) {k : Nat} (hk : k = stored.attempts.toNat + 1)
    (hretry : k ≤ config.maxRetries.toNat)
    (hfits : -9223372036854775808 ≤ now ∧ now + 900 ≤ 9223372036854775807) :
    config.handleFailure stored now error =
      .rescheduling stored.id (stored.attempts + 1)
        (now + (backoffSeconds config.retryBackoff (UInt32.ofNat k)
          maxBackoffSeconds).toNat) := by
  have hmax := config.maxRetries.toNat_lt
  have hcounter : UInt32.ofNat k = stored.attempts + 1 := by
    rw [hk, UInt32.ofNat_add, UInt32.ofNat_toNat]
    rfl
  have hback := backoffSeconds_le config.retryBackoff (stored.attempts + 1)
  have hfitting : config.RetryFits stored now := by
    constructor
    · omega
    · intro _
      rw [DeliveryWorker.retryAt]
      omega
  rcases handleFailure_of_fits hfitting error with ⟨hlast, _⟩ | ⟨_, hpc⟩
  · omega
  · rw [hpc, hcounter]
    rfl

/--
**The backoff elapses after every prompt failure**, over every run with a clock that
never goes back: in a run in which all failures with a retry left are prompt, the next
attempt for a message waits for its backoff, counted from the failure.
-/
theorem backoff_elapses_of_prompt (config : DeliveryWorker) (maxLen : Nat) (clock : Int)
    (es : List Tick) (s : Timed)
    (hrun : Replay.replay Timed.step (Timed.start config maxLen Db.empty clock) es = some s)
    (hprompt : Prompt (Timed.start config maxLen Db.empty clock) es) :
    BackoffElapses (Timed.start config maxLen Db.empty clock) es := by
  intro pre t stored now error mid t₁ counter due later t' stored' now' post s₁ heq hpre
    hnone hid hretry
  have hfailure := hprompt pre t stored now error _ s₁ heq hpre hretry
  subst heq
  obtain ⟨s₁', s₂, hpre', hfail, hrest⟩ := Replay.replay_at hrun
  obtain rfl := Option.some.inj (hpre.symm.trans hpre')
  obtain ⟨s₃, s₄, hmid, hwrite, hrest⟩ := Replay.replay_at hrest
  obtain ⟨s₅, s₆, hlater, hsend, _⟩ := Replay.replay_at hrest
  obtain ⟨_, _, hfail, htime⟩ := timedStep_eq_some.mp hfail
  obtain ⟨hle, _, hsend, _⟩ := timedStep_eq_some.mp hsend
  rcases hfailure.prompt with hbase | ⟨rfl, hcount⟩
  · -- no backoff: the clock has not gone back
    have h₂ := clock_le_of_run hmid
    obtain ⟨h₃, _, _, h₄⟩ := timedStep_eq_some.mp hwrite
    have h₅ := clock_le_of_run hlater
    simp only at h₃ h₄ hle htime
    rw [hbase, backoffSeconds_zero_base]
    omega
  · have hbacked := run_backed (backed_start config maxLen Db.empty) (run_events hpre)
    have hbacked := run_backed (backed_step hbacked hfail) (run_events hmid)
    obtain ⟨_, hfail⟩ := step_sinkErr.mp hfail
    rw [handleFailure_of_prompt error (by rw [hcount]) hretry hfailure.fits] at hfail
    obtain ⟨_, _, hpending, _⟩ := timedStep_eq_some.mp hwrite
    have hpending := (step_reschedule.mp hpending).1
    rw [hpending] at hbacked
    obtain ⟨r, hr, hrid, _⟩ := hbacked
    have hdue := pending_kept (by rw [hfail]) hmid
      (fun tick htick => hnone tick (List.mem_append_left _ htick)) hpending
    have hhanded : stored.id ≤ s₃.system.db.outboxSeq := by
      rw [← hrid]
      exact s₃.system.db.outbox_le_seq r hr
    have hwaits : Waits stored.id due s₅ := by
      have hkeeps : ∀ v tick w, Waits stored.id due v → Timed.step v tick = some w →
          tick.attempts stored.id = false → Waits stored.id due w := by
        intro v tick w hI hstep hnot
        exact waits_step hI hstep hnot
      exact keeps_without_attempt hkeeps (waits_reschedule hhanded hwrite)
        (fun tick htick => hnone tick (List.mem_append_right _ htick)) hlater
    have hclaimed := hwaits.claimed now' stored' (step_deliver.mp hsend).1 hid
    simp only at hle
    omega

/-- A failure in the second of its claim, and the attempt after its backoff. -/
def promptRetry : List Tick :=
  let m : Message :=
    { fromAddr := none, toAddrs := [['a']], subject := none, body := ['x'] }
  [ ⟨5, .enqueue 0 m 5⟩, ⟨5, .insert 0 m 5 true 1⟩, ⟨5, .notify 0 1⟩,
    ⟨7, .claim 7 (some ⟨1, m, 0⟩)⟩, ⟨7, .deliver ⟨1, m, 0⟩ 7⟩,
    ⟨7, .sinkErr ⟨1, m, 0⟩ 7 (.matrix [])⟩, ⟨8, .reschedule 1 1 67⟩,
    ⟨70, .claim 70 (some ⟨1, m, 1⟩)⟩, ⟨70, .deliver ⟨1, m, 1⟩ 70⟩ ]

theorem promptRetry_prompt :
    Prompt (Timed.start ⟨5, 60⟩ 10 Db.empty 0) promptRetry := by
  intro pre t stored now error post s heq hpre _
  simp [promptRetry, List.cons_eq_append_iff] at heq
  obtain ⟨rfl, ⟨rfl, rfl, rfl, rfl⟩, _⟩ := heq
  exact ⟨Or.inr ⟨rfl, rfl⟩, by decide⟩

theorem promptRetry_elapses :
    ∃ s, Replay.replay Timed.step (Timed.start ⟨5, 60⟩ 10 Db.empty 0) promptRetry = some s ∧
      Prompt (Timed.start ⟨5, 60⟩ 10 Db.empty 0) promptRetry ∧
      BackoffElapses (Timed.start ⟨5, 60⟩ 10 Db.empty 0) promptRetry := by
  refine ⟨_, rfl, promptRetry_prompt, ?_⟩
  exact backoff_elapses_of_prompt ⟨5, 60⟩ 10 0 promptRetry _ rfl promptRetry_prompt

/-- A failure after 90 seconds: the backoff of 60 seconds is over when it comes. -/
def slowSink : List Tick :=
  let m : Message :=
    { fromAddr := none, toAddrs := [['a']], subject := none, body := ['x'] }
  [ ⟨5, .enqueue 0 m 5⟩, ⟨5, .insert 0 m 5 true 1⟩, ⟨5, .notify 0 1⟩,
    ⟨7, .claim 7 (some ⟨1, m, 0⟩)⟩, ⟨7, .deliver ⟨1, m, 0⟩ 7⟩,
    ⟨97, .sinkErr ⟨1, m, 0⟩ 7 (.matrix [])⟩, ⟨97, .reschedule 1 1 67⟩,
    ⟨97, .claim 97 (some ⟨1, m, 1⟩)⟩, ⟨97, .deliver ⟨1, m, 1⟩ 97⟩ ]

theorem slowSink_retried_early :
    (∃ s, Replay.replay Timed.step (Timed.start ⟨5, 60⟩ 10 Db.empty 0) slowSink = some s) ∧
      ¬ BackoffElapses (Timed.start ⟨5, 60⟩ 10 Db.empty 0) slowSink := by
  refine ⟨⟨_, rfl⟩, ?_⟩
  intro h
  have hearly := h (slowSink.take 5) 97 _ 7 (.matrix []) [] 97 1 67 [⟨97, .claim 97 _⟩] 97 _
    97 [] _ rfl rfl (by decide) rfl (by decide)
  exact absurd hearly (by decide)

end Queue
end ChimneyPost
