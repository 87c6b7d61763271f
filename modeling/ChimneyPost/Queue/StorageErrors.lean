import ChimneyPost.Queue.Budget

/-!
# Sends and storage errors

`deliver_one` and `handle_failure` log a store write that fails and return, and
`run` claims again at once.  The row is as it was, so it is claimed and sent
again without a pause (`hotLoop`), and as long as the write keeps failing neither
another row nor the `shutdown` flag gets a turn.

`NoHotRetry` says what the worker owes: between two sends of a row its stored
state has been advanced or the worker has waited, a row is sent at most
`max_retries + 1` times, and a bounded number of claims after any moment the
worker has looked at `shutdown`.  It holds on every run in which no write of the
worker fails (`noHotRetry_of_writes_succeed`).
-/

namespace ChimneyPost
namespace Queue

/-- The stored state of the row has been advanced past a send claimed at `now`. -/
def Advanced (w : DeliveryWorker) (db : Db) (stored : StoredMessage) (now : Int) :
    Prop :=
  ∃ r ∈ db.outbox, r.id = stored.id ∧
    r.attempts = stored.attempts.toNat + 1 ∧ r.nextAttemptAt = w.retryAt stored now

/-- A pass of the loop begins: the store is asked for a row. -/
def Event.isClaim : Event → Bool
  | .claim _ _ => true
  | .claimError => true
  | _ => false

/-- The worker has looked at `shutdown`. -/
def Event.isShutdownCheck : Event → Bool
  | .nothingDue _ => true
  | .backoffElapsed => true
  | .backoffInterrupted => true
  | _ => false

def claims (es : List Event) : Nat :=
  es.countP Event.isClaim

def shutdownChecks (es : List Event) : Nat :=
  es.countP Event.isShutdownCheck

/-- No row is sent in a tight loop along the run from `s₀`. -/
structure NoHotRetry (s₀ : System) (es : List Event) : Prop where
  /-- between two consecutive sends of a row it was advanced, or the worker waited -/
  spaced : ∀ pre mid post stored now stored' now',
    es = pre ++ .deliver stored now :: (mid ++ .deliver stored' now' :: post) →
    stored'.id = stored.id → sends (fun i => i = stored.id) mid = 0 →
    .backoffElapsed ∈ mid ∨
      ∃ t, run s₀ (pre ++ .deliver stored now :: mid) = some t ∧
        Advanced s₀.config t.db stored now
  /-- no row takes more than its share of the sends from the others -/
  share : ∀ id, sends (fun i => i = id) es ≤ s₀.config.maxRetries.toNat + 1
  /-- from any moment on, the worker gets to look at `shutdown` -/
  responsive : ∀ pre seg post t, es = pre ++ (seg ++ post) → run s₀ pre = some t →
    claims seg ≤ (s₀.config.maxRetries.toNat + 1) *
      (t.db.outbox.length + inserts (fun _ => true) seg) + shutdownChecks seg + 1

/-- The store writes of the worker succeed and its arithmetic does not overflow. -/
def WritesSucceed (s : System) : Event → Prop
  | .writeError => False
  | .crash _ _ => False
  | .sinkErr stored now _ => s.config.RetryFits stored now
  | _ => True

theorem WritesSucceed.metered {s : System} {e : Event} (h : WritesSucceed s e) :
    Metered s e := by
  cases e with
  | sinkErr stored now error => exact h.counter
  | writeError => exact h
  | crash => exact h
  | _ => trivial

/-! ## Between two sends of a row -/

/-- The worker is still busy with the send of `stored` claimed at `now`. -/
def WorkerPc.SendOf (w : DeliveryWorker) (stored : StoredMessage) (now : Int) :
    WorkerPc → Prop
  | .delivering stored' now' => stored' = stored ∧ now' = now
  | .marking id => id = stored.id
  | .deadLettering id _ => id = stored.id
  | .rescheduling id attempts next =>
      id = stored.id ∧ attempts.toNat = stored.attempts.toNat + 1 ∧
        next = w.retryAt stored now
  | _ => False

/-- What has become of a send: under way, or its row is gone or advanced. -/
def SendOutcome (stored : StoredMessage) (now : Int) (s : System) : Prop :=
  s.worker.SendOf s.config stored now ∨
  (s.worker.holding ≠ some stored.id ∧ stored.id ≤ s.db.outboxSeq ∧
    ((∀ r ∈ s.db.outbox, r.id ≠ stored.id) ∨
      Advanced s.config s.db stored now))

section Outcome

variable {stored : StoredMessage} {now : Int} {s t : System} {e : Event}

/-- A worker busy with a row is busy with the send it last made of it. -/
theorem WorkerPc.SendOf.holding {w : DeliveryWorker} {pc : WorkerPc}
    (h : pc.SendOf w stored now) : pc.holding = some stored.id := by
  cases pc with
  | delivering stored' now' =>
      obtain ⟨rfl, _⟩ := h
      rfl
  | marking id => exact congrArg some h
  | deadLettering id text => exact congrArg some h
  | rescheduling id a n => exact congrArg some h.1
  | _ => exact h.elim

/-- Steps that write nothing and start no send of the row keep the outcome. -/
theorem SendOutcome.quiet (h : SendOutcome stored now s) (hdb : t.db = s.db)
    (hconfig : t.config = s.config)
    (hworker : t.worker = s.worker ∨
      s.worker.holding = none ∧ t.worker.holding ≠ some stored.id) :
    SendOutcome stored now t := by
  unfold SendOutcome at h ⊢
  rw [hdb, hconfig]
  rcases hworker with hw | ⟨hfree, hother⟩
  · rw [hw]
    exact h
  · rcases h with hbusy | ⟨_, hseq, hdone⟩
    · rw [hbusy.holding] at hfree
      cases hfree
    · exact Or.inr ⟨hother, hseq, hdone⟩

/-- Events beside the delivery that do not insert keep the outcome. -/
theorem SendOutcome.aside (h : SendOutcome stored now s)
    (hstep : step s e = some t) (haside : e.onRow = false)
    (hchange : e.change = .nothing) : SendOutcome stored now t := by
  have hdb : t.db = s.db := by
    rw [step_db hstep, hchange]
    rfl
  obtain ⟨hconfig, hworker⟩ := step_aside hstep haside
  refine h.quiet hdb hconfig ?_
  rcases hworker with hw | ⟨hs, ht⟩
  · exact Or.inl hw
  · exact Or.inr ⟨hs, by simp [ht]⟩

/-- A row that was deleted or buried stays away. -/
theorem sendOutcome_of_removed {id : Int} {db' : Db}
    (hout : s.worker.SendOf s.config stored now ∨
      stored.id ≤ s.db.outboxSeq ∧
        ((∀ r ∈ s.db.outbox, r.id ≠ stored.id) ∨
          Advanced s.config s.db stored now))
    (hrow : ∃ r ∈ s.db.outbox, r.id = id) (hhold : s.worker.holding = some id)
    (hseq : db'.outboxSeq = s.db.outboxSeq)
    (hmem : ∀ r, r ∈ db'.outbox ↔ r ∈ s.db.outbox ∧ r.id ≠ id) :
    SendOutcome stored now { s with db := db', worker := .loopTop } := by
  refine Or.inr ⟨by simp [WorkerPc.holding], ?_, ?_⟩
  · show stored.id ≤ db'.outboxSeq
    rw [hseq]
    rcases hout with hbusy | ⟨hle, _⟩
    · obtain ⟨r, hr, rfl⟩ := hrow
      have hid := hbusy.holding
      rw [hhold, Option.some.injEq] at hid
      rw [← hid]
      exact s.db.outbox_le_seq r hr
    · exact hle
  · by_cases hsame : stored.id = id
    · left
      intro r hr
      rw [hsame]
      exact ((hmem r).mp hr).2
    · rcases hout with hbusy | ⟨_, hgone | ⟨r, hr, hid, hrest⟩⟩
      · have hid := hbusy.holding
        rw [hhold, Option.some.injEq] at hid
        exact absurd hid.symm hsame
      · left
        intro r hr
        exact hgone r ((hmem r).mp hr).1
      · right
        refine ⟨r, (hmem r).mpr ⟨hr, ?_⟩, hid, hrest⟩
        rw [hid]
        exact hsame

theorem SendOutcome.weaken (h : SendOutcome stored now s) :
    s.worker.SendOf s.config stored now ∨
      stored.id ≤ s.db.outboxSeq ∧
        ((∀ r ∈ s.db.outbox, r.id ≠ stored.id) ∨
          Advanced s.config s.db stored now) := by
  rcases h with hbusy | ⟨_, hrest⟩
  · exact Or.inl hbusy
  · exact Or.inr hrest

theorem sendOutcome_step (h : SendOutcome stored now s)
    (hbacked : s.worker.Backed s.db) (hok : WritesSucceed s e)
    (hother : e.isSend (fun i => i = stored.id) = false)
    (hstep : step s e = some t) : SendOutcome stored now t := by
  cases e with
  | insert u message createdAt live id =>
      obtain ⟨_, _, rfl, rfl⟩ := step_insert.mp hstep
      rcases h with hbusy | ⟨hhold, hseq, hdone⟩
      · exact Or.inl hbusy
      · refine Or.inr ⟨hhold, ?_, ?_⟩
        · show stored.id ≤ s.db.outboxSeq + 1
          omega
        · rcases hdone with hgone | ⟨r, hr, hrest⟩
          · left
            intro r hr
            rcases Db.mem_insertOutbox.mp hr with hr | rfl
            · exact hgone r hr
            · rw [Db.newRow_id]
              omega
          · exact Or.inr ⟨r, Db.mem_insertOutbox.mpr (Or.inl hr), hrest⟩
  | deliver stored' now' =>
      obtain ⟨hpc, rfl⟩ := step_deliver.mp hstep
      refine h.quiet rfl rfl (Or.inr ⟨by rw [hpc]; rfl, ?_⟩)
      simpa [Event.isSend, WorkerPc.holding] using hother
  | sinkOk stored' now' =>
      obtain ⟨hpc, rfl⟩ := step_sinkOk.mp hstep
      rcases h with hbusy | ⟨hhold, hrest⟩
      · rw [hpc] at hbusy
        obtain ⟨rfl, rfl⟩ := hbusy
        exact Or.inl rfl
      · rw [hpc] at hhold
        exact Or.inr ⟨hhold, hrest⟩
  | sinkErr stored' now' error =>
      obtain ⟨hpc, rfl⟩ := step_sinkErr.mp hstep
      have hfits : s.config.RetryFits stored' now' := hok
      have hsucc := attempts_succ_of_lt hfits.counter
      rcases h with hbusy | ⟨hhold, hrest⟩
      · rw [hpc] at hbusy
        obtain ⟨rfl, rfl⟩ := hbusy
        left
        rcases handleFailure_of_fits hfits error with ⟨_, hnext⟩ | ⟨_, hnext⟩
        · simp [hnext, WorkerPc.SendOf]
        · simp [hnext, WorkerPc.SendOf, hsucc]
      · rw [hpc] at hhold
        refine Or.inr ⟨?_, hrest⟩
        rcases handleFailure_of_fits hfits error with ⟨_, hnext⟩ | ⟨_, hnext⟩
        · simpa [hnext, WorkerPc.holding] using hhold
        · simpa [hnext, WorkerPc.holding] using hhold
  | markDelivered id =>
      obtain ⟨hpc, rfl⟩ := step_markDelivered.mp hstep
      refine sendOutcome_of_removed h.weaken
        (hbacked.exists_row (by rw [hpc]; rfl)) (by rw [hpc]; rfl) rfl ?_
      intro r
      exact MessageStore.mem_markDelivered
  | deadLetter id text failedAt =>
      obtain ⟨hpc, rfl⟩ := step_deadLetter.mp hstep
      refine sendOutcome_of_removed h.weaken
        (hbacked.exists_row (by rw [hpc]; rfl)) (by rw [hpc]; rfl) rfl ?_
      intro r
      exact MessageStore.mem_deadLetter
  | reschedule id attempts next =>
      obtain ⟨hpc, rfl⟩ := step_reschedule.mp hstep
      rw [hpc] at hbacked
      obtain ⟨q, hq, rfl, _⟩ := hbacked
      rcases h with hbusy | ⟨hhold, hseq, hdone⟩
      · rw [hpc] at hbusy
        obtain ⟨hid, hattempts, rfl⟩ := hbusy
        refine Or.inr ⟨by simp [WorkerPc.holding], ?_, Or.inr ?_⟩
        · rw [← hid]
          exact s.db.outbox_le_seq q hq
        · refine ⟨_, MessageStore.mem_reschedule.mpr ⟨q, hq, rfl⟩, ?_, ?_, ?_⟩
          · simpa using hid
          · simp [Db.setSchedule, hattempts]
          · simp [Db.setSchedule]
      · rw [hpc] at hhold
        have hne : q.id ≠ stored.id := by
          simpa [WorkerPc.holding] using hhold
        refine Or.inr ⟨by simp [WorkerPc.holding], hseq, ?_⟩
        rcases hdone with hgone | ⟨r, hr, hid, hrest⟩
        · left
          intro r hr
          obtain ⟨r', hr', rfl⟩ := MessageStore.mem_reschedule.mp hr
          simpa using hgone r' hr'
        · right
          refine ⟨r, MessageStore.mem_reschedule.mpr ⟨r, hr, ?_⟩, hid, hrest⟩
          have hkeep : r.id ≠ q.id := by
            rw [hid]
            exact fun heq => hne heq.symm
          simp [Db.setSchedule, hkeep]
  | writeError => exact hok.elim
  | crash => exact hok.elim
  | _ => exact h.aside hstep rfl rfl

/-- The outcome of a send stands until the row is sent again. -/
theorem run_sendOutcome {es : List Event} {s₀ : System}
    (h₀ : SendOutcome stored now s₀) (hbacked : s₀.worker.Backed s₀.db)
    (hok : Replay.StepsMeet step WritesSucceed s₀ es)
    (hother : sends (fun i => i = stored.id) es = 0)
    (hrun : run s₀ es = some s) : SendOutcome stored now s := by
  induction es generalizing s₀ with
  | nil =>
      obtain rfl := Option.some.inj hrun
      exact h₀
  | cons e es ih =>
      obtain ⟨t, hstep, hrest⟩ := Replay.replay_cons_eq_some.mp hrun
      have hsplit : e.isSend (fun i => i = stored.id) = false ∧
          sends (fun i => i = stored.id) es = 0 := by
        cases he : e.isSend (fun i => i = stored.id) <;> simp [sends, he] at hother ⊢
        exact hother
      refine ih ?_ (backed_step hbacked hstep) ?_ hsplit.2 hrest
      · exact sendOutcome_step h₀ hbacked hok.head hsplit.1 hstep
      · exact hok.tail hstep

end Outcome

/-! ## How often a row is sent -/

section Share

variable {s₀ s : System} {es : List Event}

/-- An id is handed out at most once, and never one handed out before. -/
theorem inserts_le_one (id : Int) (hrun : run s₀ es = some s) :
    s₀.db.outboxSeq ≤ s.db.outboxSeq ∧
      inserts (fun i => i = id) es ≤
        if s₀.db.outboxSeq < id ∧ id ≤ s.db.outboxSeq then 1 else 0 := by
  refine Replay.replay_invariant
    (I := fun es s => s₀.db.outboxSeq ≤ s.db.outboxSeq ∧
      inserts (fun i => i = id) es ≤
        if s₀.db.outboxSeq < id ∧ id ≤ s.db.outboxSeq then 1 else 0) ?_ ?_ hrun
  · simp [inserts]
  · rintro es s e t _ ⟨hle, hcount⟩ hstep
    have hmono := step_outboxSeq_le hstep
    refine ⟨hle.trans hmono, ?_⟩
    rw [inserts_concat]
    by_cases hins : e.isInsert (fun i => i = id) = true
    · cases e with
      | insert u message createdAt live id' =>
          obtain ⟨_, _, rfl, rfl⟩ := step_insert.mp hstep
          simp only [Event.isInsert, decide_eq_true_eq] at hins
          have hseq : (s.db.insertOutbox message.columns createdAt).outboxSeq =
              s.db.outboxSeq + 1 := by
            rfl
          rw [if_neg (by omega)] at hcount
          rw [if_pos (by simp [Event.isInsert, hins]), if_pos (by rw [hseq]; omega)]
          omega
      | _ => simp [Event.isInsert] at hins
    · rw [if_neg hins]
      split_ifs at hcount ⊢ <;> omega

/-- One id weighs at most the budget of a fresh row, and nothing when it is new. -/
theorem total_rowBudget_le (m : UInt32) (db : Db) (id : Int) :
    db.total (rowBudget m (fun i => i = id)) ≤
      if id ≤ db.outboxSeq then m.toNat + 1 else 0 := by
  by_cases hrow : ∃ r ∈ db.outbox, r.id = id
  · obtain ⟨r, hr, rfl⟩ := hrow
    have htotal := Db.total_deleteOutbox (f := rowBudget m (fun i => i = r.id)) hr
    have hothers : (db.deleteOutbox r.id).total (rowBudget m (fun i => i = r.id)) = 0 := by
      apply Db.total_eq_zero
      intro q hq
      have hne := (Db.mem_deleteOutbox.mp hq).2
      simp [rowBudget, hne]
    have hle := rowBudget_le m (fun i => i = r.id) r
    rw [if_pos (db.outbox_le_seq r hr)]
    omega
  · have hzero : db.total (rowBudget m (fun i => i = id)) = 0 := by
      apply Db.total_eq_zero
      intro r hr
      have hne : r.id ≠ id := fun heq => hrow ⟨r, hr, heq⟩
      simp [rowBudget, hne]
    omega

/-- No row is sent more than `max_retries + 1` times. -/
theorem WithinBudget.sends_of_row_le {id : Int}
    (h : WithinBudget (fun i => i = id) s₀ es s) (hrun : run s₀ es = some s) :
    sends (fun i => i = id) es ≤ s₀.config.maxRetries.toNat + 1 := by
  have hsends := h.sends_le
  have htotal := total_rowBudget_le s₀.config.maxRetries s₀.db id
  obtain ⟨_, hinserts⟩ := inserts_le_one id hrun
  by_cases hold : id ≤ s₀.db.outboxSeq
  · rw [if_neg (by omega)] at hinserts
    rw [if_pos hold] at htotal
    have hnone : inserts (fun i => i = id) es = 0 := by omega
    rw [hnone] at hsends
    omega
  · rw [if_neg hold] at htotal
    have hone : inserts (fun i => i = id) es ≤ 1 := by
      split_ifs at hinserts <;> omega
    have hmul := Nat.mul_le_mul_left (s₀.config.maxRetries.toNat + 1) hone
    omega

end Share

/-! ## How soon the worker looks at `shutdown` -/

/-- A claim has been answered and not yet acted on. -/
def WorkerPc.asked : WorkerPc → Nat
  | .claimed _ _ => 1
  | .storageBackoff => 1
  | _ => 0

section Checks

variable {s₀ s : System} {es : List Event}

theorem asked_of_isParked {pc : WorkerPc} (h : pc.isParked = true) :
    pc.asked = 0 := by
  cases pc <;> simp [WorkerPc.isParked, WorkerPc.asked] at h ⊢

theorem asked_handleFailure (w : DeliveryWorker) (stored : StoredMessage) (now : Int)
    (error : ChimneyError) : (w.handleFailure stored now error).asked = 0 := by
  rcases handleFailure_cases w stored now error with ⟨_, hpc⟩ | ⟨_, hpc⟩
  · rw [hpc]
    rfl
  · rw [hpc]
    rfl

theorem asked_step {t : System} {e : Event} (hmeter : Metered s e)
    (hstep : step s e = some t) :
    (if e.isClaim then 1 else 0) + s.worker.asked =
      (if e.isSend (fun _ => true) then 1 else 0) +
        (if e.isShutdownCheck then 1 else 0) + t.worker.asked := by
  cases e with
  | crash => exact hmeter.elim
  | writeError => exact hmeter.elim
  | sinkErr stored now error =>
      obtain ⟨hpc, rfl⟩ := step_sinkErr.mp hstep
      rw [hpc, asked_handleFailure]
      rfl
  | wakeNotified =>
      obtain ⟨⟨hpc, _⟩, rfl⟩ := step_wakeNotified.mp hstep
      rw [asked_of_isParked hpc]
      rfl
  | wakeSlept =>
      obtain ⟨hpc, rfl⟩ := step_wakeSlept.mp hstep
      rw [asked_of_isParked hpc]
      rfl
  | wakeShutdown =>
      obtain ⟨⟨hpc, _⟩, rfl⟩ := step_wakeShutdown.mp hstep
      rw [asked_of_isParked hpc]
      rfl
  | nothingDue now =>
      obtain ⟨hpc, rfl⟩ := step_nothingDue.mp hstep
      rw [hpc]
      cases s.shutdown <;> rfl
  | backoffElapsed =>
      obtain ⟨hpc, rfl⟩ := step_backoffElapsed.mp hstep
      rw [hpc]
      cases s.shutdown <;> rfl
  | _ =>
      simp at hstep
      simp [hstep, WorkerPc.asked, Event.isClaim, Event.isSend, Event.isShutdownCheck]

/-- Every claim ends in a send or in a look at `shutdown`. -/
theorem claims_balance (hmeter : Replay.StepsMeet step Metered s₀ es)
    (hrun : run s₀ es = some s) :
    claims es + s₀.worker.asked =
      sends (fun _ => true) es + shutdownChecks es + s.worker.asked := by
  refine Replay.replay_invariant_of_stepsMeet
    (I := fun es s => claims es + s₀.worker.asked =
      sends (fun _ => true) es + shutdownChecks es + s.worker.asked) ?_ ?_ hmeter hrun
  · simp [claims, sends, shutdownChecks]
  · intro es s e t _ hI hC hstep
    have hbal := asked_step hC hstep
    simp only [claims, shutdownChecks, sends, List.countP_append, List.countP_singleton]
      at hI ⊢
    omega

/-- So many claims, and the worker has looked at `shutdown`. -/
theorem WithinBudget.claims_le (h : WithinBudget (fun _ => true) s₀ es s)
    (hmeter : Replay.StepsMeet step Metered s₀ es) (hrun : run s₀ es = some s) :
    claims es ≤ (s₀.config.maxRetries.toNat + 1) *
      (s₀.db.outbox.length + inserts (fun _ => true) es) + shutdownChecks es + 1 := by
  have hbalance := claims_balance hmeter hrun
  have hsends := h.sends_le
  have htotal : s₀.db.total (rowBudget s₀.config.maxRetries (fun _ => true)) ≤
      (s₀.config.maxRetries.toNat + 1) * s₀.db.outbox.length := by
    apply Db.total_le_mul
    intro r _
    exact rowBudget_le _ _ r
  have hasked : s.worker.asked ≤ 1 := by
    cases s.worker <;> simp [WorkerPc.asked]
  rw [Nat.mul_add]
  omega

end Checks

/-! ## No hot retry -/

theorem stepsMeet_metered {s₀ : System} {es : List Event}
    (hok : Replay.StepsMeet step WritesSucceed s₀ es) :
    Replay.StepsMeet step Metered s₀ es := by
  intro pre e post t heq hpre
  exact (hok pre e post t heq hpre).metered

/-- **No hot retry**: on every run of the worker whose store writes succeed. -/
theorem noHotRetry_of_writes_succeed (config : DeliveryWorker) (maxLen : Nat)
    (db : Db) (es : List Event) (s : System)
    (hrun : run (System.start config maxLen db) es = some s)
    (hok : Replay.StepsMeet step WritesSucceed (System.start config maxLen db) es) :
    NoHotRetry (System.start config maxLen db) es := by
  have hbacked := backed_start config maxLen db
  have hcounted : Counted (System.start config maxLen db) := by
    simp [Counted, System.start]
  refine ⟨?_, ?_, ?_⟩
  · intro pre mid post stored now stored' now' heq hid hmid
    right
    subst heq
    obtain ⟨t, t', hpre, hsend, hrest⟩ := Replay.replay_at hrun
    obtain ⟨u, u', hto, hagain, _⟩ := Replay.replay_at hrest
    have hsofar : run (System.start config maxLen db)
        (pre ++ .deliver stored now :: mid) = some u := by
      rw [Replay.replay_append_eq_some]
      exact ⟨t, hpre, Replay.replay_cons_eq_some.mpr ⟨t', hsend, hto⟩⟩
    have hokmid : Replay.StepsMeet step WritesSucceed t' mid :=
      ((hok.of_append_right hpre).tail hsend).of_append
    have hbusy : SendOutcome stored now t' := by
      obtain ⟨_, rfl⟩ := step_deliver.mp hsend
      exact Or.inl ⟨rfl, rfl⟩
    have hbackedt' := backed_step (run_backed hbacked hpre) hsend
    -- the worker is about to send the row again, so it is there and not in hand
    have hpc := (step_deliver.mp hagain).1
    have hrow := run_backed hbacked hsofar
    rw [hpc] at hrow
    obtain ⟨r, hr, hstored, _⟩ := hrow
    have hrid : r.id = stored.id := by
      rw [← hid, ← hstored]
      rfl
    have hconfig : u.config = config := by
      refine (run_withinBudget (p := fun _ => true) hbacked hcounted ?_ hsofar).config
      apply stepsMeet_metered
      have hsplit : pre ++ .deliver stored now :: (mid ++ .deliver stored' now' :: post) =
          (pre ++ .deliver stored now :: mid) ++ (.deliver stored' now' :: post) := by
        simp
      rw [hsplit] at hok
      exact hok.of_append
    rcases run_sendOutcome hbusy hbackedt' hokmid hmid hto with
      hstill | ⟨_, _, hgone | hadvanced⟩
    · rw [hpc] at hstill
      exact hstill.elim
    · exact absurd hrid (hgone r hr)
    · rw [hconfig] at hadvanced
      exact ⟨u, hsofar, hadvanced⟩
  · intro id
    have hwithin := run_withinBudget (p := fun i => i = id) hbacked hcounted
      (stepsMeet_metered hok) hrun
    exact hwithin.sends_of_row_le hrun
  · intro pre seg post t heq hpre
    subst heq
    obtain ⟨t₂, hpre₂, hrest⟩ := Replay.replay_append_eq_some.mp hrun
    obtain rfl := Option.some.inj (hpre.symm.trans hpre₂)
    obtain ⟨u, hseg, _⟩ := Replay.replay_append_eq_some.mp hrest
    have hmeter := stepsMeet_metered hok
    have hbefore := run_withinBudget (p := fun _ => true) hbacked hcounted
      hmeter.of_append hpre
    have hmeterseg := (hmeter.of_append_right hpre).of_append
    have hwithin := run_withinBudget (p := fun _ => true) hbefore.backed
      hbefore.counted hmeterseg hseg
    have hclaims := hwithin.claims_le hmeterseg hseg
    rw [hbefore.config] at hclaims
    exact hclaims

/-- A message fails once, is rescheduled and sent again when it is due. -/
def retryWhenDue : List Event :=
  let m : Message :=
    { fromAddr := none, toAddrs := [['a']], subject := none, body := ['x'] }
  [ .enqueue 0 m 5, .insert 0 m 5 true 1, .notify 0 1,
    .claim 7 (some ⟨1, m, 0⟩), .deliver ⟨1, m, 0⟩ 7, .sinkErr ⟨1, m, 0⟩ 7 (.matrix []),
    .reschedule 1 1 67, .claim 67 (some ⟨1, m, 1⟩), .deliver ⟨1, m, 1⟩ 67 ]

theorem retryWhenDue_noHotRetry :
    NoHotRetry (System.start ⟨5, 60⟩ 10 Db.empty) retryWhenDue := by
  refine noHotRetry_of_writes_succeed ⟨5, 60⟩ 10 Db.empty retryWhenDue _ rfl ?_
  refine .cons trivial rfl (.cons trivial rfl (.cons trivial rfl (.cons trivial rfl
    (.cons trivial rfl (.cons ?_ rfl (.cons trivial rfl (.cons trivial rfl
      (.cons trivial rfl .nil))))))))
  exact ⟨by decide, fun _ => by decide⟩

/-- The message is sent, cannot be removed, and is sent again at once. -/
def hotLoop : List Event :=
  let m : Message :=
    { fromAddr := none, toAddrs := [['a']], subject := none, body := ['x'] }
  [ .enqueue 0 m 5, .insert 0 m 5 true 1, .notify 0 1, .setShutdown,
    .claim 7 (some ⟨1, m, 0⟩), .deliver ⟨1, m, 0⟩ 7, .sinkOk ⟨1, m, 0⟩ 7, .writeError,
    .claim 7 (some ⟨1, m, 0⟩), .deliver ⟨1, m, 0⟩ 7 ]

theorem hotLoop_sends_again :
    (run (System.start ⟨5, 60⟩ 10 Db.empty) hotLoop).isSome = true ∧
      ¬ NoHotRetry (System.start ⟨5, 60⟩ 10 Db.empty) hotLoop := by
  refine ⟨rfl, ?_⟩
  intro h
  rcases h.spaced (hotLoop.take 5) ((hotLoop.drop 6).take 3) [] _ _ _ _ rfl rfl rfl with
    hwait | ⟨t, ht, hadvanced⟩
  · simp [hotLoop] at hwait
  · obtain rfl := Option.some.inj ht
    obtain ⟨r, hr, _, hattempts, _⟩ := hadvanced
    obtain rfl := List.mem_singleton.mp hr
    exact absurd hattempts (by decide)

end Queue
end ChimneyPost
