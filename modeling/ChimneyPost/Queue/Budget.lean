import ChimneyPost.Queue.Backed

/-!
# The send budget of the outbox

A row whose stored counter is `attempts` can be sent `max(1, max_retries + 1 -
attempts)` times before it is deleted or buried.  The sum of these budgets over
the outbox is the measure of the delivery loop: a send takes one out of it at the
write that ends it (`WithinBudget.sends_le`), provided the write is not lost and the
counter does not wrap.
-/

namespace ChimneyPost
namespace Queue

/-! ## Weighted sums over the outbox -/

/-- The sum of a weight over the rows of the outbox. -/
def Db.total (db : Db) (weight : OutboxRow → Nat) : Nat :=
  (db.outbox.map weight).sum

section Total

variable {db : Db} {f : OutboxRow → Nat}

@[simp] theorem Db.total_insertOutbox (c : MailColumns) (createdAt : Int) :
    (db.insertOutbox c createdAt).total f =
      db.total f + f (db.newRow c createdAt) := by
  simp [Db.total, Db.insertOutbox]

/-- The rows are one row and all the others. -/
theorem Db.outbox_perm {r : OutboxRow} (hr : r ∈ db.outbox) :
    (r :: db.outbox.filter (fun q => q.id ≠ r.id)).Perm db.outbox := by
  have hsplit := List.filter_append_perm
    (fun q : OutboxRow => decide (q.id = r.id)) db.outbox
  rw [db.filter_id_eq hr] at hsplit
  simpa using hsplit

theorem Db.total_deleteOutbox {r : OutboxRow} (hr : r ∈ db.outbox) :
    (db.deleteOutbox r.id).total f + f r = db.total f := by
  have hperm := ((Db.outbox_perm hr).map f).sum_eq
  rw [List.map_cons, List.sum_cons, Nat.add_comm] at hperm
  exact hperm

theorem Db.total_markDelivered {r : OutboxRow} (hr : r ∈ db.outbox) :
    (MessageStore.markDelivered r.id db).total f + f r =
      db.total f := by
  exact Db.total_deleteOutbox hr

theorem Db.total_deadLetter {r : OutboxRow} (hr : r ∈ db.outbox)
    (lastError : Str) (failedAt : Int) :
    (MessageStore.deadLetter r.id lastError failedAt db).total f + f r =
      db.total f := by
  exact Db.total_deleteOutbox hr

/-- A rescheduled row changes its own weight only. -/
theorem Db.total_reschedule {r : OutboxRow} (hr : r ∈ db.outbox)
    (attempts : UInt32) (next : Int) :
    (MessageStore.reschedule r.id attempts next db).total f + f r =
      db.total f + f (Db.setSchedule r.id attempts next r) := by
  let set := Db.setSchedule r.id attempts next
  have hold := ((Db.outbox_perm hr).map f).sum_eq
  have hnew := ((Db.outbox_perm hr).map (f ∘ set)).sum_eq
  have hothers : (db.outbox.filter (fun q => q.id ≠ r.id)).map (f ∘ set) =
      (db.outbox.filter (fun q => q.id ≠ r.id)).map f := by
    apply List.map_congr_left
    intro q hq
    have hne := (List.mem_filter.mp hq).2
    rw [decide_eq_true_eq] at hne
    simp [set, Db.setSchedule, hne]
  rw [List.map_cons, List.sum_cons] at hold hnew
  rw [hothers] at hnew
  have hmap : (MessageStore.reschedule r.id attempts next db).total f =
      (db.outbox.map (f ∘ set)).sum := by
    simp [Db.total, MessageStore.reschedule, set]
  have hrow : (f ∘ set) r = f (Db.setSchedule r.id attempts next r) := by
    rfl
  unfold Db.total at *
  omega

theorem Db.le_total {r : OutboxRow} (hr : r ∈ db.outbox) :
    f r ≤ db.total f := by
  have hdelete := Db.total_deleteOutbox (f := f) hr
  omega

theorem Db.total_eq_zero (h : ∀ r ∈ db.outbox, f r = 0) :
    db.total f = 0 := by
  apply List.sum_eq_zero
  intro x hx
  obtain ⟨r, hr, rfl⟩ := List.mem_map.mp hx
  exact h r hr

/-- A weight of at most `k` on every row sums to at most `k` for each. -/
theorem Db.total_le_mul {k : Nat} (h : ∀ r ∈ db.outbox, f r ≤ k) :
    db.total f ≤ k * db.outbox.length := by
  have hsum := List.sum_le_card_nsmul (db.outbox.map f) k (by
    intro x hx
    obtain ⟨r, hr, rfl⟩ := List.mem_map.mp hx
    exact h r hr)
  rw [List.length_map, smul_eq_mul, Nat.mul_comm] at hsum
  exact hsum

end Total

/-! ## Budgets -/

/-- `max(1, max_retries + 1 - attempts)`. -/
def sendBudget (maxRetries attempts : UInt32) : Nat :=
  max 1 (maxRetries.toNat + 1 - attempts.toNat)

/-- The budget of a row whose id is in question, and nothing for the others. -/
def rowBudget (maxRetries : UInt32) (p : Int → Bool) (r : OutboxRow) : Nat :=
  if p r.id then sendBudget maxRetries (asU32 r.attempts) else 0

theorem sendBudget_pos (m a : UInt32) :
    1 ≤ sendBudget m a := by
  exact le_max_left _ _

theorem sendBudget_le (m a : UInt32) :
    sendBudget m a ≤ m.toNat + 1 := by
  unfold sendBudget
  omega

/-- A retry that is counted takes one send out of the budget. -/
theorem sendBudget_retry {m a a' : UInt32} (hsucc : a'.toNat = a.toNat + 1)
    (hle : a'.toNat ≤ m.toNat) :
    sendBudget m a' + 1 = sendBudget m a := by
  unfold sendBudget
  omega

theorem rowBudget_le (m : UInt32) (p : Int → Bool) (r : OutboxRow) :
    rowBudget m p r ≤ m.toNat + 1 := by
  unfold rowBudget
  split_ifs
  · exact sendBudget_le _ _
  · exact Nat.zero_le _

theorem rowBudget_newRow (m : UInt32) (p : Int → Bool) (db : Db) (c : MailColumns)
    (createdAt : Int) :
    rowBudget m p (db.newRow c createdAt) =
      if p (db.outboxSeq + 1) then m.toNat + 1 else 0 := by
  simp [rowBudget, Db.newRow, asU32_zero, sendBudget]

/-- The event sends a row whose id is in question. -/
def Event.isSend (p : Int → Bool) : Event → Bool
  | .deliver stored _ => p stored.id
  | _ => false

/-- The event inserts a row whose id is in question. -/
def Event.isInsert (p : Int → Bool) : Event → Bool
  | .insert _ _ _ _ id => p id
  | _ => false

def sends (p : Int → Bool) (es : List Event) : Nat :=
  es.countP (Event.isSend p)

def inserts (p : Int → Bool) (es : List Event) : Nat :=
  es.countP (Event.isInsert p)

/-- The event is a failed delivery of the row. -/
def Event.isFailureOf (id : Int) : Event → Bool
  | .sinkErr stored _ _ => stored.id = id
  | _ => false

/-- How many deliveries of the row have failed. -/
def failures (id : Int) (es : List Event) : Nat :=
  es.countP (Event.isFailureOf id)

/-- One for a send that has not been written yet. -/
def WorkerPc.inHand (p : Int → Bool) (pc : WorkerPc) : Nat :=
  match pc.holding with
  | some id => if p id then 1 else 0
  | none => 0

/-- The step loses no write and wraps no counter. -/
def Metered (_ : System) : Event → Prop
  | .writeError => False
  | .crash _ _ => False
  | .sinkErr stored _ _ => stored.attempts.toNat < 4294967295
  | _ => True

/-- The counter of a pending retry has not wrapped and is one that is retried. -/
def Counted (s : System) : Prop :=
  ∀ id a n, s.worker = .rescheduling id a n →
    1 ≤ a.toNat ∧ a.toNat ≤ s.config.maxRetries.toNat

/-- What every metered run keeps of sends and budgets. -/
structure WithinBudget (p : Int → Bool) (s₀ : System) (es : List Event)
    (s : System) : Prop where
  backed : s.worker.Backed s.db
  config : s.config = s₀.config
  counted : Counted s
  spent : sends p es + s.db.total (rowBudget s₀.config.maxRetries p) +
      s₀.worker.inHand p ≤
    s₀.db.total (rowBudget s₀.config.maxRetries p) +
      (s₀.config.maxRetries.toNat + 1) * inserts p es + s.worker.inHand p


@[simp] theorem sends_concat (p : Int → Bool) (es : List Event) (e : Event) :
    sends p (es ++ [e]) = sends p es + if e.isSend p then 1 else 0 := by
  cases h : e.isSend p <;> simp [sends, h]

@[simp] theorem inserts_concat (p : Int → Bool) (es : List Event) (e : Event) :
    inserts p (es ++ [e]) = inserts p es + if e.isInsert p then 1 else 0 := by
  cases h : e.isInsert p <;> simp [inserts, h]

@[simp] theorem failures_concat (id : Int) (es : List Event) (e : Event) :
    failures id (es ++ [e]) =
      failures id es + if e.isFailureOf id then 1 else 0 := by
  cases h : e.isFailureOf id <;> simp [failures, h]

/-- The row a write ends on has a budget that covers the send in hand. -/
theorem inHand_le_rowBudget {p : Int → Bool} {pc : WorkerPc} {r : OutboxRow}
    (m : UInt32) (hid : pc.holding = some r.id) :
    pc.inHand p ≤ rowBudget m p r := by
  have hpos := sendBudget_pos m (asU32 r.attempts)
  by_cases hp : p r.id
  · simpa [WorkerPc.inHand, rowBudget, hid, hp] using hpos
  · simp [WorkerPc.inHand, rowBudget, hid, hp]

section Runs

variable {p : Int → Bool} {s₀ s t : System} {es : List Event} {e : Event}

/-- A delivered or buried row takes its whole budget with it. -/
theorem WithinBudget.spent_of_removed {r : OutboxRow}
    (h : WithinBudget p s₀ es s)
    (hhold : s.worker.holding = some r.id) {total : Nat}
    (htotal : total + rowBudget s₀.config.maxRetries p r =
      s.db.total (rowBudget s₀.config.maxRetries p)) :
    sends p es + total + s₀.worker.inHand p ≤
      s₀.db.total (rowBudget s₀.config.maxRetries p) +
        (s₀.config.maxRetries.toNat + 1) * inserts p es := by
  have hspent := h.spent
  have hhand := inHand_le_rowBudget (p := p) s₀.config.maxRetries hhold
  omega

/-- A rescheduled row keeps its budget less the send in hand. -/
theorem rowBudget_setSchedule {m a : UInt32} {r : OutboxRow} (p : Int → Bool)
    (next : Int)
    (hsucc : asU32 r.attempts + 1 = a) (hpos : 1 ≤ a.toNat) (hle : a.toNat ≤ m.toNat) :
    rowBudget m p (Db.setSchedule r.id a next r) + (if p r.id then 1 else 0) =
      rowBudget m p r := by
  have hrow : Db.setSchedule r.id a next r =
      { r with attempts := a.toNat, nextAttemptAt := next } := by
    simp [Db.setSchedule]
  rw [hrow]
  unfold rowBudget
  by_cases hp : p r.id
  · simp only [hp, if_true, asU32_toNat]
    have hval := attempts_succ_toNat (asU32 r.attempts)
    have hlt := (asU32 r.attempts).toNat_lt
    rw [hsucc] at hval
    exact sendBudget_retry (by omega) hle
  · simp [hp]

/-- Steps that touch no row and leave the send in hand as it is. -/
theorem WithinBudget.quiet (h : WithinBudget p s₀ es s)
    (hstep : step s e = some t) (hdb : t.db = s.db) (hconfig : t.config = s.config)
    (hsend : e.isSend p = false) (hinsert : e.isInsert p = false)
    (hhand : t.worker.inHand p = s.worker.inHand p) (hcounted : Counted t) :
    WithinBudget p s₀ (es ++ [e]) t := by
  refine ⟨backed_step h.backed hstep, hconfig.trans h.config, hcounted, ?_⟩
  rw [sends_concat, inserts_concat, hsend, hinsert, hdb, hhand]
  simpa using h.spent

/-- Events beside the delivery that do not insert cost nothing. -/
theorem WithinBudget.aside (h : WithinBudget p s₀ es s)
    (hstep : step s e = some t) (haside : e.onRow = false)
    (hchange : e.change = .nothing) : WithinBudget p s₀ (es ++ [e]) t := by
  have hdb : t.db = s.db := by
    rw [step_db hstep, hchange]
    rfl
  obtain ⟨hconfig, hworker⟩ := step_aside hstep haside
  have hsend : e.isSend p = false := by
    cases e <;> first | rfl | simp [Event.onRow] at haside
  have hinsert : e.isInsert p = false := by
    cases e <;> first | rfl | simp [Event.change] at hchange
  refine h.quiet hstep hdb hconfig hsend hinsert ?_ ?_
  · rcases hworker with hw | ⟨hs, ht⟩
    · rw [hw]
    · simp [WorkerPc.inHand, hs, ht]
  · intro id a n hw
    rcases hworker with hsame | ⟨_, ht⟩
    · rw [hconfig]
      exact h.counted id a n (hsame.symm.trans hw)
    · rw [hw] at ht
      cases ht

theorem withinBudget_step (h : WithinBudget p s₀ es s) (hmeter : Metered s e)
    (hstep : step s e = some t) : WithinBudget p s₀ (es ++ [e]) t := by
  have hbacked := backed_step h.backed hstep
  have hspent := h.spent
  have hcopy := hstep
  cases e with
  | insert u message createdAt live id =>
      obtain ⟨_, _, rfl, rfl⟩ := step_insert.mp hstep
      refine ⟨hbacked, h.config, h.counted, ?_⟩
      rw [sends_concat, inserts_concat, Db.total_insertOutbox, rowBudget_newRow]
      simp only [Event.isSend, Event.isInsert]
      by_cases hp : p (s.db.outboxSeq + 1)
      · simp only [hp, if_true, Nat.mul_add]
        simp
        omega
      · simp [hp]
        omega
  | deliver stored now =>
      obtain ⟨hpc, rfl⟩ := step_deliver.mp hstep
      refine ⟨hbacked, h.config, by simp [Counted], ?_⟩
      simp only [hpc, WorkerPc.inHand, WorkerPc.holding] at hspent
      by_cases hp : p stored.id
      · simp [Event.isSend, Event.isInsert, WorkerPc.inHand, WorkerPc.holding, hp]
        omega
      · simp [Event.isSend, Event.isInsert, WorkerPc.inHand, WorkerPc.holding, hp]
        omega
  | sinkOk stored now =>
      obtain ⟨hpc, rfl⟩ := step_sinkOk.mp hstep
      refine h.quiet hcopy rfl rfl rfl rfl ?_ (by simp [Counted])
      simp [hpc, WorkerPc.inHand, WorkerPc.holding]
  | sinkErr stored now error =>
      obtain ⟨hpc, rfl⟩ := step_sinkErr.mp hstep
      have hlt : stored.attempts.toNat < 4294967295 := hmeter
      have hsucc := attempts_succ_of_lt hlt
      rcases handleFailure_cases s.config stored now error with
        ⟨_, hnext⟩ | ⟨hle, hnext⟩
      · refine h.quiet hcopy rfl rfl rfl rfl ?_ (by simp [Counted, hnext])
        simp [hnext, hpc, WorkerPc.inHand, WorkerPc.holding]
      · refine h.quiet hcopy rfl rfl rfl rfl ?_ ?_
        · simp [hnext, hpc, WorkerPc.inHand, WorkerPc.holding]
        · intro id a n hw
          simp only [hnext, WorkerPc.rescheduling.injEq] at hw
          obtain ⟨_, rfl, _⟩ := hw
          rw [UInt32.le_iff_toNat_le] at hle
          exact ⟨by omega, hle⟩
  | markDelivered id =>
      obtain ⟨hpc, rfl⟩ := step_markDelivered.mp hstep
      obtain ⟨r, hr, rfl⟩ := h.backed.exists_row (by rw [hpc]; rfl)
      refine ⟨hbacked, h.config, by simp [Counted], ?_⟩
      have hle := h.spent_of_removed (by rw [hpc]; rfl) (Db.total_markDelivered hr)
      simpa [Event.isSend, Event.isInsert] using Nat.le_add_right_of_le hle
  | deadLetter id text failedAt =>
      obtain ⟨hpc, rfl⟩ := step_deadLetter.mp hstep
      obtain ⟨r, hr, rfl⟩ := h.backed.exists_row (by rw [hpc]; rfl)
      refine ⟨hbacked, h.config, by simp [Counted], ?_⟩
      have hle := h.spent_of_removed (by rw [hpc]; rfl)
        (Db.total_deadLetter hr text failedAt)
      simpa [Event.isSend, Event.isInsert] using Nat.le_add_right_of_le hle
  | reschedule id a next =>
      obtain ⟨hpc, rfl⟩ := step_reschedule.mp hstep
      have hback := h.backed
      rw [hpc] at hback
      obtain ⟨r, hr, rfl, hsucc⟩ := hback
      obtain ⟨hpos, hle⟩ := h.counted _ _ _ hpc
      rw [h.config] at hle
      refine ⟨hbacked, h.config, by simp [Counted], ?_⟩
      have htotal := Db.total_reschedule
        (f := rowBudget s₀.config.maxRetries p) hr a next
      have hrow := rowBudget_setSchedule p next hsucc hpos hle
      simp only [hpc, WorkerPc.inHand, WorkerPc.holding] at hspent
      simp [Event.isSend, Event.isInsert, WorkerPc.inHand, WorkerPc.holding]
      omega
  | writeError => exact hmeter.elim
  | crash config maxLen => exact hmeter.elim
  | _ => exact h.aside hcopy rfl rfl

/-- Along a metered run, what was sent and what may still be sent add up. -/
theorem run_withinBudget (hbacked : s₀.worker.Backed s₀.db) (hcounted : Counted s₀)
    (hmeter : Replay.StepsMeet step Metered s₀ es) (hrun : run s₀ es = some s) :
    WithinBudget p s₀ es s := by
  refine Replay.replay_invariant_of_stepsMeet
    (I := fun es s => WithinBudget p s₀ es s) ?_ ?_ hmeter hrun
  · refine ⟨hbacked, rfl, hcounted, ?_⟩
    simp [sends, inserts]
  · intro es s e t _ hI hC hstep
    exact withinBudget_step hI hC hstep

/-- A send in hand is covered by the budgets of the outbox. -/
theorem WithinBudget.inHand_le_total (h : WithinBudget p s₀ es s) :
    s.worker.inHand p ≤ s.db.total (rowBudget s₀.config.maxRetries p) := by
  cases hhold : s.worker.holding with
  | none =>
      simp [WorkerPc.inHand, hhold]
  | some id =>
      obtain ⟨r, hr, rfl⟩ := h.backed.exists_row hhold
      have hhand := inHand_le_rowBudget (p := p) s₀.config.maxRetries hhold
      exact hhand.trans (Db.le_total hr)

/-- **The send budget**: sends are paid for by the rows there were at the start
and by the rows inserted since. -/
theorem WithinBudget.sends_le (h : WithinBudget p s₀ es s) :
    sends p es ≤ s₀.db.total (rowBudget s₀.config.maxRetries p) +
      (s₀.config.maxRetries.toNat + 1) * inserts p es := by
  have hspent := h.spent
  have hhand := h.inHand_le_total
  omega

end Runs

end Queue
end ChimneyPost
