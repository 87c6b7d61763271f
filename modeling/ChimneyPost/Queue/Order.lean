import ChimneyPost.Queue.Budget
import ChimneyPost.Queue.Conservation

/-!
# The order of first attempts

A new row is due at `0`; a row that has been attempted is due later than that, at
a positive clock plus a backoff.  As long as this is so (`Ranked`) a claim prefers
the rows that were never attempted, oldest first, to every row that failed.

`now + backoff` is an unguarded `i64` addition.  Within the last fifteen minutes
of the clock it wraps to the far past, and the failed message is claimed again
before the new ones (`overtakenAtClockEnd`).
-/

namespace ChimneyPost
namespace Queue

/-- A delivery of the row has been attempted. -/
def Attempted (es : List Event) (id : Int) : Prop :=
  0 < sends (fun i => i = id) es

/-- First come, first attempted; a failed message does not overtake a new one. -/
structure FirstComeFirstAttempted (s₀ : System) (es : List Event) : Prop where
  /-- when a message is sent, those inserted before it have been sent already -/
  order : ∀ pre stored now post, es = pre ++ .deliver stored now :: post →
    ∀ x ∈ inserted pre, x.1 < stored.id → Attempted pre x.1
  /-- a message that has failed is claimed only when no new one is in the outbox -/
  noOvertaking : ∀ pre now stored post t,
    es = pre ++ .claim now (some stored) :: post → run s₀ pre = some t →
    0 < failures stored.id pre → ∀ r ∈ t.db.outbox, Attempted pre r.id

/-- The clock is positive, the writes succeed, restarts come between deliveries,
and the due time of a retry is an `i64`. -/
def ClockFits (s : System) : Event → Prop
  | .writeError => False
  | .crash _ _ => s.worker.holding = none
  | .claim now _ => 1 ≤ now
  | .sinkErr stored now _ =>
      stored.attempts + 1 ≤ s.config.maxRetries →
        s.config.retryAt stored now ≤ 9223372036854775807
  | _ => True

/-- What the worker's position says about the order. -/
def WorkerPc.Orderly (attempted : Int → Prop) (db : Db) : WorkerPc → Prop
  | .claimed now (some stored) =>
      1 ≤ now ∧ ∀ r ∈ db.outbox, ¬ attempted r.id → stored.id ≤ r.id
  | .delivering stored now => 1 ≤ now ∧ attempted stored.id
  | .marking id => attempted id
  | .deadLettering id _ => attempted id
  | .rescheduling id _ next => attempted id ∧ 1 ≤ next
  | _ => True

/-- New rows are due at `0`, attempted ones later. -/
structure Ranked (es : List Event) (s : System) : Prop where
  fresh : ∀ id, s.db.outboxSeq < id → ¬ Attempted es id
  new : ∀ r ∈ s.db.outbox, ¬ Attempted es r.id → r.nextAttemptAt = 0
  later : ∀ r ∈ s.db.outbox, Attempted es r.id →
    s.worker.holding = some r.id ∨ 1 ≤ r.nextAttemptAt
  failed : ∀ id, 0 < failures id es → Attempted es id
  left : ∀ x ∈ inserted es, Attempted es x.1 ∨ ∃ r ∈ s.db.outbox, r.id = x.1
  worker : s.worker.Orderly (Attempted es) s.db

section Ranks

variable {es : List Event} {s t : System} {e : Event}

theorem attempted_concat (es : List Event) (e : Event) (id : Int) :
    Attempted (es ++ [e]) id ↔
      Attempted es id ∨ e.isSend (fun i => i = id) = true := by
  unfold Attempted
  rw [sends_concat]
  split_ifs with h
  · simp [h]
  · simp [h]

/-- Between deliveries a new row is claimed before every row that failed. -/
theorem Ranked.claim (h : Ranked es s) (hfree : s.worker.holding = none)
    {now : Int} (hnow : 1 ≤ now) {stored : StoredMessage}
    (hclaim : MessageStore.claimNextReady now s.db = some stored) :
    ∀ r ∈ s.db.outbox, ¬ Attempted es r.id →
      ¬ Attempted es stored.id ∧ stored.id ≤ r.id := by
  intro r hr hnew
  obtain ⟨q, hq, rfl, _, hfirst⟩ := MessageStore.claimNextReady_eq_some hclaim
  have hzero := h.new r hr hnew
  have hbefore : q.Before r := hfirst r hr (by omega)
  have hqid : (rowToStored q).id = q.id := rfl
  rw [hqid]
  unfold OutboxRow.Before at hbefore
  by_cases hattempted : Attempted es q.id
  · rcases h.later q hq hattempted with hhold | hlater
    · rw [hfree] at hhold
      cases hhold
    · omega
  · have hqzero := h.new q hq hattempted
    exact ⟨hattempted, by omega⟩

/-- A step that sends nothing attempts nothing. -/
theorem attempted_of_not_send (es : List Event) (hsend : ∀ p, e.isSend p = false) :
    Attempted (es ++ [e]) = Attempted es := by
  funext id
  rw [attempted_concat, hsend]
  simp

/-- Steps that send nothing and leave the tables alone keep the ranks. -/
theorem Ranked.quiet (h : Ranked es s) (hdb : t.db = s.db)
    (hsend : ∀ p, e.isSend p = false)
    (hfailure : ∀ id, 0 < failures id (es ++ [e]) → Attempted es id)
    (hinserted : inserted (es ++ [e]) = inserted es)
    (hholding : t.worker.holding = s.worker.holding)
    (hworker : t.worker.Orderly (Attempted es) s.db) : Ranked (es ++ [e]) t := by
  have hsame := attempted_of_not_send es hsend
  constructor
  · simpa [hsame, hdb] using h.fresh
  · simpa [hsame, hdb] using h.new
  · simpa [hsame, hdb, hholding] using h.later
  · simpa [hsame] using hfailure
  · simpa [hsame, hinserted, hdb] using h.left
  · simpa [hsame, hdb] using hworker

theorem ranked_insert (h : Ranked es s) (hbacked : s.worker.Backed s.db)
    {u : Nat} {message : Message} {createdAt id : Int} {live : Bool}
    (hstep : step s (.insert u message createdAt live id) = some t) :
    Ranked (es ++ [.insert u message createdAt live id]) t := by
  obtain ⟨_, _, rfl, rfl⟩ := step_insert.mp hstep
  have hsame := attempted_of_not_send
    (e := .insert u message createdAt live (s.db.outboxSeq + 1)) es (fun _ => rfl)
  have hunsent : ¬ Attempted es (s.db.outboxSeq + 1) := h.fresh _ (by omega)
  refine ⟨?_, ?_, ?_, ?_, ?_, ?_⟩
  · intro i hi
    have hseq : s.db.outboxSeq + 1 < i := hi
    rw [hsame]
    exact h.fresh i (by omega)
  · intro r hr hnew
    rw [hsame] at hnew
    rcases Db.mem_insertOutbox.mp hr with hr | rfl
    · exact h.new r hr hnew
    · rfl
  · intro r hr hattempted
    rw [hsame] at hattempted
    rcases Db.mem_insertOutbox.mp hr with hr | rfl
    · exact h.later r hr hattempted
    · exact absurd hattempted hunsent
  · intro i hi
    rw [hsame]
    exact h.failed i (by simpa [Event.isFailureOf] using hi)
  · intro x hx
    rw [inserted_concat] at hx
    rw [hsame]
    rcases List.mem_append.mp hx with hx | hx
    · rcases h.left x hx with hattempted | ⟨r, hr, hid⟩
      · exact Or.inl hattempted
      · exact Or.inr ⟨r, Db.mem_insertOutbox.mpr (Or.inl hr), hid⟩
    · have hxid : x = (s.db.outboxSeq + 1, message.columns) := by
        simpa [Event.posting, Ledger.Posting.accepted] using hx
      subst hxid
      exact Or.inr ⟨_, Db.mem_insertOutbox.mpr (Or.inr rfl), rfl⟩
  · rw [hsame]
    have hworker := h.worker
    cases hpc : s.worker with
    | claimed now result =>
        cases result with
        | none => trivial
        | some stored =>
            rw [hpc] at hworker hbacked
            obtain ⟨hnow, hfirst⟩ := hworker
            obtain ⟨q, hq, rfl, _⟩ := hbacked
            refine ⟨hnow, ?_⟩
            intro r hr hnew
            rcases Db.mem_insertOutbox.mp hr with hr | rfl
            · exact hfirst r hr hnew
            · have hle := s.db.outbox_le_seq q hq
              have hqid : (rowToStored q).id = q.id := rfl
              rw [Db.newRow_id, hqid]
              omega
    | _ =>
        rw [hpc] at hworker
        exact hworker

theorem ranked_deliver (h : Ranked es s) (hbacked : s.worker.Backed s.db)
    {stored : StoredMessage} {now : Int}
    (hstep : step s (.deliver stored now) = some t) :
    Ranked (es ++ [.deliver stored now]) t := by
  obtain ⟨hpc, rfl⟩ := step_deliver.mp hstep
  have hworker := h.worker
  rw [hpc] at hbacked hworker
  obtain ⟨q, hq, rfl, _⟩ := hbacked
  have hsends : ∀ id, Attempted (es ++ [.deliver (rowToStored q) now]) id ↔
      Attempted es id ∨ q.id = id := by
    intro id
    rw [attempted_concat, Event.isSend, decide_eq_true_eq]
    exact Iff.rfl
  refine ⟨?_, ?_, ?_, ?_, ?_, ?_⟩
  · intro id hid hattempted
    have hseq : s.db.outboxSeq < id := hid
    have hle := s.db.outbox_le_seq q hq
    rcases (hsends id).mp hattempted with hold | rfl
    · exact h.fresh id hseq hold
    · omega
  · intro r hr hnew
    rw [hsends] at hnew
    exact h.new r hr (fun hold => hnew (Or.inl hold))
  · intro r hr hattempted
    rcases (hsends r.id).mp hattempted with hold | hid
    · rcases h.later r hr hold with hhold | hlater
      · rw [hpc] at hhold
        cases hhold
      · exact Or.inr hlater
    · left
      simp [WorkerPc.holding, rowToStored, hid]
  · intro id hid
    rw [hsends]
    exact Or.inl (h.failed id (by simpa [Event.isFailureOf] using hid))
  · intro x hx
    rw [inserted_concat] at hx
    rw [hsends]
    have hx : x ∈ inserted es := by simpa [Event.posting] using hx
    rcases h.left x hx with hold | hrow
    · exact Or.inl (Or.inl hold)
    · exact Or.inr hrow
  · exact ⟨hworker.1, (hsends _).mpr (Or.inr rfl)⟩

/-- The row of the delivery that ends here has been attempted and goes. -/
theorem Ranked.removed (h : Ranked es s) {id : Int} {db' : Db}
    (hhold : s.worker.holding = some id) (hattempted : Attempted es id)
    (hsend : ∀ p, e.isSend p = false) (hfailure : ∀ i, e.isFailureOf i = false)
    (hinserted : inserted (es ++ [e]) = inserted es)
    (hseq : db'.outboxSeq = s.db.outboxSeq)
    (hmem : ∀ r, r ∈ db'.outbox ↔ r ∈ s.db.outbox ∧ r.id ≠ id) :
    Ranked (es ++ [e]) { s with db := db', worker := .loopTop } := by
  have hsame := attempted_of_not_send es hsend
  refine ⟨?_, ?_, ?_, ?_, ?_, trivial⟩
  · intro i hi
    have hi' : db'.outboxSeq < i := hi
    rw [hsame]
    exact h.fresh i (by omega)
  · intro r hr hnew
    rw [hsame] at hnew
    exact h.new r ((hmem r).mp hr).1 hnew
  · intro r hr hold
    rw [hsame] at hold
    obtain ⟨hr, hne⟩ := (hmem r).mp hr
    rcases h.later r hr hold with hsamerow | hlater
    · rw [hhold, Option.some.injEq] at hsamerow
      exact absurd hsamerow.symm hne
    · exact Or.inr hlater
  · intro i hi
    rw [hsame]
    exact h.failed i (by simpa [hfailure i] using hi)
  · intro x hx
    rw [hinserted] at hx
    rw [hsame]
    rcases h.left x hx with hold | ⟨r, hr, hid⟩
    · exact Or.inl hold
    · by_cases hgone : r.id = id
      · left
        rw [← hid, hgone]
        exact hattempted
      · exact Or.inr ⟨r, (hmem r).mpr ⟨hr, hgone⟩, hid⟩

theorem ranked_reschedule (h : Ranked es s) {id next : Int} {a : UInt32}
    (hstep : step s (.reschedule id a next) = some t) :
    Ranked (es ++ [.reschedule id a next]) t := by
  obtain ⟨hpc, rfl⟩ := step_reschedule.mp hstep
  have hworker := h.worker
  rw [hpc] at hworker
  obtain ⟨hattempted, hnext⟩ := hworker
  have hsame := attempted_of_not_send (e := .reschedule id a next) es (fun _ => rfl)
  refine ⟨?_, ?_, ?_, ?_, ?_, trivial⟩
  · rw [hsame]
    exact h.fresh
  · intro r hr hnew
    rw [hsame] at hnew
    obtain ⟨q, hq, rfl⟩ := MessageStore.mem_reschedule.mp hr
    rw [Db.setSchedule_id] at hnew
    have hne : q.id ≠ id := by
      rintro rfl
      exact hnew hattempted
    simpa [Db.setSchedule, hne] using h.new q hq hnew
  · intro r hr hold
    rw [hsame] at hold
    obtain ⟨q, hq, rfl⟩ := MessageStore.mem_reschedule.mp hr
    rw [Db.setSchedule_id] at hold
    right
    by_cases hid : q.id = id
    · simpa [Db.setSchedule, hid] using hnext
    · rcases h.later q hq hold with hhold | hlater
      · rw [hpc] at hhold
        exact absurd (Option.some.inj hhold).symm hid
      · simpa [Db.setSchedule, hid] using hlater
  · intro i hi
    rw [hsame]
    exact h.failed i (by simpa [Event.isFailureOf] using hi)
  · intro x hx
    rw [inserted_concat] at hx
    rw [hsame]
    have hx : x ∈ inserted es := by simpa [Event.posting] using hx
    rcases h.left x hx with hold | ⟨r, hr, hid⟩
    · exact Or.inl hold
    · refine Or.inr ⟨_, MessageStore.mem_reschedule.mpr ⟨r, hr, rfl⟩, ?_⟩
      rw [Db.setSchedule_id]
      exact hid

/-- A due time that does not overflow is a positive one. -/
theorem one_le_i64Add {now : Int} {backoff : Nat} (hnow : 1 ≤ now)
    (hfits : now + backoff ≤ 9223372036854775807) :
    1 ≤ i64Add now backoff := by
  rw [i64Add_eq (by omega) hfits]
  omega

theorem ranked_sinkErr (h : Ranked es s) {stored : StoredMessage} {now : Int}
    {error : ChimneyError}
    (hfits : stored.attempts + 1 ≤ s.config.maxRetries →
      s.config.retryAt stored now ≤ 9223372036854775807)
    (hstep : step s (.sinkErr stored now error) = some t) :
    Ranked (es ++ [.sinkErr stored now error]) t := by
  obtain ⟨hpc, rfl⟩ := step_sinkErr.mp hstep
  have hworker := h.worker
  rw [hpc] at hworker
  obtain ⟨hnow, hattempted⟩ := hworker
  have hinserted : inserted (es ++ [.sinkErr stored now error]) = inserted es := by
    rw [inserted_concat]
    simp [Event.posting]
  refine h.quiet rfl (fun _ => rfl) ?_ hinserted ?_ ?_
  · intro id hid
    by_cases hsame : stored.id = id
    · rw [← hsame]
      exact hattempted
    · exact h.failed id (by simpa [Event.isFailureOf, hsame] using hid)
  · rw [hpc]
    rcases handleFailure_cases s.config stored now error with ⟨_, hnext⟩ | ⟨_, hnext⟩
    · simp [hnext, WorkerPc.holding]
    · simp [hnext, WorkerPc.holding]
  · rcases handleFailure_cases s.config stored now error with
      ⟨_, hnext⟩ | ⟨hretry, hnext⟩
    · rw [hnext]
      exact hattempted
    · rw [hnext]
      exact ⟨hattempted, one_le_i64Add hnow (hfits hretry)⟩

/-- Session events leave the worker and the tables alone. -/
theorem Ranked.session (h : Ranked es s) (hdb : t.db = s.db)
    (hworker : t.worker = s.worker) (hsend : ∀ p, e.isSend p = false)
    (hfailure : ∀ i, e.isFailureOf i = false) (hposting : e.posting = none) :
    Ranked (es ++ [e]) t := by
  refine h.quiet hdb hsend ?_ ?_ ?_ ?_
  · intro id hid
    exact h.failed id (by simpa [hfailure id] using hid)
  · rw [inserted_concat, hposting]
    simp
  · rw [hworker]
  · rw [hworker]
    exact h.worker

/-- Between deliveries the worker comes to any place where it holds no row. -/
theorem Ranked.between (h : Ranked es s) (hdb : t.db = s.db)
    (hfree : s.worker.holding = none) (hthen : t.worker.holding = none)
    (hsend : ∀ p, e.isSend p = false) (hfailure : ∀ i, e.isFailureOf i = false)
    (hposting : e.posting = none)
    (hworker : t.worker.Orderly (Attempted es) s.db) : Ranked (es ++ [e]) t := by
  refine h.quiet hdb hsend ?_ ?_ ?_ hworker
  · intro id hid
    exact h.failed id (by simpa [hfailure id] using hid)
  · rw [inserted_concat, hposting]
    simp
  · rw [hfree, hthen]

theorem ranked_step (h : Ranked es s) (hbacked : s.worker.Backed s.db)
    (hfits : ClockFits s e) (hstep : step s e = some t) : Ranked (es ++ [e]) t := by
  have hworker := h.worker
  cases e with
  | insert u message createdAt live id => exact ranked_insert h hbacked hstep
  | deliver stored now => exact ranked_deliver h hbacked hstep
  | sinkErr stored now error => exact ranked_sinkErr h hfits hstep
  | reschedule id a next => exact ranked_reschedule h hstep
  | claim now result =>
      obtain ⟨⟨hpc, hclaim⟩, rfl⟩ := step_claim.mp hstep
      have hfree : s.worker.holding = none := by
        rw [hpc]
        rfl
      refine h.between rfl hfree rfl (fun _ => rfl) (fun _ => rfl) rfl ?_
      cases result with
      | none => trivial
      | some stored =>
          refine ⟨hfits, ?_⟩
          intro r hr hnew
          exact (h.claim hfree hfits hclaim r hr hnew).2
  | sinkOk stored now =>
      obtain ⟨hpc, rfl⟩ := step_sinkOk.mp hstep
      rw [hpc] at hworker
      refine h.quiet rfl (fun _ => rfl) ?_ ?_ (by rw [hpc]; rfl) hworker.2
      · intro id hid
        exact h.failed id (by simpa [Event.isFailureOf] using hid)
      · rw [inserted_concat]
        simp [Event.posting]
  | markDelivered id =>
      obtain ⟨hpc, rfl⟩ := step_markDelivered.mp hstep
      rw [hpc] at hworker
      refine h.removed (by rw [hpc]; rfl) hworker (fun _ => rfl) (fun _ => rfl) ?_ rfl
        (fun _ => MessageStore.mem_markDelivered)
      rw [inserted_concat]
      simp [Event.posting, Ledger.Posting.accepted]
  | deadLetter id text failedAt =>
      obtain ⟨hpc, rfl⟩ := step_deadLetter.mp hstep
      rw [hpc] at hworker
      refine h.removed (by rw [hpc]; rfl) hworker (fun _ => rfl) (fun _ => rfl) ?_ rfl
        (fun _ => MessageStore.mem_deadLetter)
      rw [inserted_concat]
      simp [Event.posting, Ledger.Posting.accepted]
  | writeError => exact hfits.elim
  | crash config maxLen =>
      obtain rfl := step_crash.mp hstep
      exact h.between rfl hfits rfl (fun _ => rfl) (fun _ => rfl) rfl trivial
  | enqueue =>
      simp at hstep
      exact h.session (by simp [hstep]) (by simp [hstep]) (fun _ => rfl) (fun _ => rfl) rfl
  | refuse =>
      simp at hstep
      exact h.session (by simp [hstep]) (by simp [hstep]) (fun _ => rfl) (fun _ => rfl) rfl
  | notify =>
      simp at hstep
      exact h.session (by simp [hstep]) (by simp [hstep]) (fun _ => rfl) (fun _ => rfl) rfl
  | cancel =>
      simp at hstep
      exact h.session (by simp [hstep]) (by simp [hstep]) (fun _ => rfl) (fun _ => rfl) rfl
  | setShutdown =>
      simp at hstep
      exact h.session (by simp [hstep]) (by simp [hstep]) (fun _ => rfl) (fun _ => rfl) rfl
  | nothingDue now =>
      obtain ⟨hpc, rfl⟩ := step_nothingDue.mp hstep
      refine h.between rfl (by rw [hpc]; rfl) ?_ (fun _ => rfl) (fun _ => rfl) rfl ?_
      · cases s.shutdown <;> rfl
      · cases s.shutdown <;> trivial
  | backoffElapsed =>
      obtain ⟨hpc, rfl⟩ := step_backoffElapsed.mp hstep
      refine h.between rfl (by rw [hpc]; rfl) ?_ (fun _ => rfl) (fun _ => rfl) rfl ?_
      · cases s.shutdown <;> rfl
      · cases s.shutdown <;> trivial
  | wakeNotified =>
      obtain ⟨⟨hpc, _⟩, rfl⟩ := step_wakeNotified.mp hstep
      exact h.between rfl (holding_of_isParked hpc) rfl (fun _ => rfl) (fun _ => rfl)
        rfl trivial
  | wakeSlept =>
      obtain ⟨hpc, rfl⟩ := step_wakeSlept.mp hstep
      exact h.between rfl (holding_of_isParked hpc) rfl (fun _ => rfl) (fun _ => rfl)
        rfl trivial
  | wakeShutdown =>
      obtain ⟨⟨hpc, _⟩, rfl⟩ := step_wakeShutdown.mp hstep
      exact h.between rfl (holding_of_isParked hpc) rfl (fun _ => rfl) (fun _ => rfl)
        rfl trivial
  | _ =>
      simp at hstep
      exact h.between (by simp [hstep]) (by simp [hstep, WorkerPc.holding])
        (by simp [hstep, WorkerPc.holding]) (fun _ => rfl) (fun _ => rfl) rfl
        (by simp [hstep, WorkerPc.Orderly])

theorem run_ranked {config : DeliveryWorker} {maxLen : Nat}
    (hfits : Replay.StepsMeet step ClockFits (System.start config maxLen Db.empty) es)
    (hrun : run (System.start config maxLen Db.empty) es = some s) :
    Ranked es s := by
  refine Replay.replay_invariant_of_stepsMeet (I := Ranked) ?_ ?_ hfits hrun
  · constructor <;> simp [System.start, Db.empty, Attempted, sends, failures, inserted,
      postings, Ledger.accepted, WorkerPc.Orderly]
  · intro es s e t hpre hI hC hstep
    exact ranked_step hI (run_backed (backed_start _ _ _) hpre) hC hstep

end Ranks

/-- Two messages: the first fails, the second is sent, then the first again. -/
def failedThenNew : List Event :=
  let m : Message :=
    { fromAddr := none, toAddrs := [['a']], subject := none, body := ['x'] }
  [ .enqueue 0 m 5, .insert 0 m 5 true 1, .enqueue 3 m 5, .insert 3 m 5 true 2,
    .claim 7 (some ⟨1, m, 0⟩), .deliver ⟨1, m, 0⟩ 7, .sinkErr ⟨1, m, 0⟩ 7 (.matrix []),
    .reschedule 1 1 8, .crash ⟨5, 1⟩ 10,
    .claim 9 (some ⟨2, m, 0⟩), .deliver ⟨2, m, 0⟩ 9, .sinkOk ⟨2, m, 0⟩ 9,
    .markDelivered 2, .claim 9 (some ⟨1, m, 1⟩), .deliver ⟨1, m, 1⟩ 9 ]

/-- The first message fails in the last seconds of the `i64` clock and, due far in
the past, is claimed again before the second. -/
def overtakenAtClockEnd : List Event :=
  let m : Message :=
    { fromAddr := none, toAddrs := [['a']], subject := none, body := ['x'] }
  let now : Int := 9223372036854775807
  [ .enqueue 0 m 5, .insert 0 m 5 true 1, .enqueue 3 m 5, .insert 3 m 5 true 2,
    .claim now (some ⟨1, m, 0⟩), .deliver ⟨1, m, 0⟩ now,
    .sinkErr ⟨1, m, 0⟩ now (.matrix []), .reschedule 1 1 (-9223372036854775808),
    .claim now (some ⟨1, m, 1⟩) ]

end Queue
end ChimneyPost
