import ChimneyPost.Queue.Store

/-!
# The delivery worker

`src/queue/worker.rs`.  `DeliveryWorker::run` is a loop with an `await` at every
store call, at the sink and at its sleeps; `WorkerPc` says at which of them the
worker is, with the values it carries across.  The functions below are the code
between two of these points.
-/

namespace ChimneyPost
namespace Queue

/-- `DeliveryWorker`, without the store and the sink it holds. -/
structure DeliveryWorker where
  maxRetries : UInt32
  retryBackoff : UInt64
deriving DecidableEq, Repr

def maxBackoffSeconds : UInt64 := 900

/-- `IDLE_SLEEP`, in seconds. -/
def idleSleep : Nat := 3600

/-- `STORAGE_ERROR_BACKOFF`, in seconds. -/
def storageErrorBackoff : Nat := 5

/-- `u64::saturating_mul`. -/
def saturatingMul (x y : UInt64) : UInt64 :=
  UInt64.ofNat (min (x.toNat * y.toNat) 18446744073709551615)

/-- `u64::saturating_pow`. -/
def saturatingPow (x : UInt64) (n : UInt32) : UInt64 :=
  UInt64.ofNat (min (x.toNat ^ n.toNat) 18446744073709551615)

/-- `backoff_seconds`. -/
def backoffSeconds (base : UInt64) (attempt : UInt32) (cap : UInt64) : UInt64 :=
  if attempt = 0 then
    0
  else
    min (saturatingMul base (saturatingPow 2 (attempt - 1))) cap

/-- The key `deliver_one` passes to the sink. -/
def idempotencyKey (id : Int) : Str :=
  "chimney-post-".toList ++ intToStr id

/-- Where `DeliveryWorker::run` is. -/
inductive WorkerPc where
  /-- at the top of the loop, about to read the clock and to claim -/
  | loopTop
  /-- `claim_next_ready(now)` has answered -/
  | claimed (now : Int) (result : Option StoredMessage)
  /-- `sink.deliver` is running -/
  | delivering (stored : StoredMessage) (now : Int)
  /-- the sink returned `Ok`; `mark_delivered(id)` is pending -/
  | marking (id : Int)
  /-- the sink failed for good; `dead_letter(id, last_error)` is pending -/
  | deadLettering (id : Int) (lastError : Str)
  /-- the sink failed; `reschedule(id, attempts, next_attempt_at)` is pending -/
  | rescheduling (id : Int) (attempts : UInt32) (nextAttemptAt : Int)
  /-- nothing was due at `now`; `next_wakeup(now)` is pending -/
  | idleWaiting (now : Int)
  /-- in the idle `select!`, with the sleep it chose -/
  | parked (now : Int) (wait : Nat)
  /-- in the `select!` after a failed claim -/
  | storageBackoff
  /-- `run` has returned -/
  | stopped
deriving DecidableEq

namespace DeliveryWorker

/-- `DeliveryWorker::handle_failure`, up to the store call it ends in. -/
def handleFailure (w : DeliveryWorker) (stored : StoredMessage) (now : Int)
    (error : ChimneyError) : WorkerPc :=
  let attempts := stored.attempts + 1
  if w.maxRetries < attempts then
    .deadLettering stored.id error.display
  else
    let backoff := backoffSeconds w.retryBackoff attempts maxBackoffSeconds
    .rescheduling stored.id attempts (i64Add now backoff.toNat)

/-- `DeliveryWorker::deliver_one`, once the sink has answered. -/
def deliverOne (w : DeliveryWorker) (stored : StoredMessage) (now : Int) :
    Except ChimneyError Unit → WorkerPc
  | .ok () => .marking stored.id
  | .error error => w.handleFailure stored now error

/-- `DeliveryWorker::idle_wait`, once `next_wakeup` has answered. -/
def idleWait (now : Int) : Except ChimneyError (Option Int) → Nat
  | .ok (some at_) => (max (i64Sub at_ now) 0).toNat
  | .ok none => idleSleep
  | .error _ => storageErrorBackoff

end DeliveryWorker

/-! ## The failure branch -/

/-- `handle_failure` ends in one of two store calls. -/
theorem handleFailure_cases (w : DeliveryWorker) (stored : StoredMessage)
    (now : Int) (error : ChimneyError) :
    (w.maxRetries < stored.attempts + 1 ∧
      w.handleFailure stored now error =
        .deadLettering stored.id error.display) ∨
    (stored.attempts + 1 ≤ w.maxRetries ∧
      w.handleFailure stored now error =
        .rescheduling stored.id (stored.attempts + 1)
          (i64Add now (backoffSeconds w.retryBackoff (stored.attempts + 1)
            maxBackoffSeconds).toNat)) := by
  unfold DeliveryWorker.handleFailure
  by_cases h : w.maxRetries < stored.attempts + 1
  · exact Or.inl ⟨h, by simp [h]⟩
  · refine Or.inr ⟨?_, by simp [h]⟩
    rw [UInt32.le_iff_toNat_le]
    rw [UInt32.lt_iff_toNat_lt] at h
    omega

/-- The counter of a failed attempt wraps only at its maximum. -/
theorem attempts_succ_toNat (a : UInt32) :
    (a + 1).toNat = (a.toNat + 1) % 4294967296 := by
  rw [UInt32.toNat_add]
  rfl

theorem attempts_succ_of_lt {a : UInt32} (h : a.toNat < 4294967295) :
    (a + 1).toNat = a.toNat + 1 := by
  rw [attempts_succ_toNat]
  omega

/-- Past the last retry by the wrapped counter is past it by the true one. -/
theorem lt_succ_toNat_of_lt {m a : UInt32} (h : m < a + 1) :
    m.toNat < a.toNat + 1 := by
  rw [UInt32.lt_iff_toNat_lt, attempts_succ_toNat] at h
  have hle := Nat.mod_le (a.toNat + 1) 4294967296
  omega

/-- The due time a retry is meant to get: the claim time plus the backoff. -/
def DeliveryWorker.retryAt (w : DeliveryWorker) (stored : StoredMessage)
    (now : Int) : Int :=
  now + (backoffSeconds w.retryBackoff (stored.attempts + 1)
    maxBackoffSeconds).toNat

/-- `handle_failure` computes with this message and clock without overflow. -/
structure DeliveryWorker.RetryFits (w : DeliveryWorker) (stored : StoredMessage)
    (now : Int) : Prop where
  counter : stored.attempts.toNat < 4294967295
  dueTime : stored.attempts.toNat + 1 ≤ w.maxRetries.toNat →
    -9223372036854775808 ≤ w.retryAt stored now ∧
      w.retryAt stored now ≤ 9223372036854775807

/-- Without overflow the failure branch compares and adds as written. -/
theorem handleFailure_of_fits {w : DeliveryWorker} {stored : StoredMessage}
    {now : Int} (h : w.RetryFits stored now) (error : ChimneyError) :
    (w.maxRetries.toNat < stored.attempts.toNat + 1 ∧
      w.handleFailure stored now error =
        .deadLettering stored.id error.display) ∨
    (stored.attempts.toNat + 1 ≤ w.maxRetries.toNat ∧
      w.handleFailure stored now error =
        .rescheduling stored.id (stored.attempts + 1) (w.retryAt stored now)) := by
  have hsucc := attempts_succ_of_lt h.counter
  rcases handleFailure_cases w stored now error with ⟨hlt, hpc⟩ | ⟨hle, hpc⟩
  · rw [UInt32.lt_iff_toNat_lt, hsucc] at hlt
    exact Or.inl ⟨hlt, hpc⟩
  · rw [UInt32.le_iff_toNat_le, hsucc] at hle
    refine Or.inr ⟨hle, ?_⟩
    rw [hpc, i64Add_eq (h.dueTime hle).1 (h.dueTime hle).2]
    rfl

/-! ## The backoff -/

theorem uint64_min_toNat (a b : UInt64) :
    (min a b).toNat = min a.toNat b.toNat := by
  show (if a ≤ b then a else b).toNat = min a.toNat b.toNat
  split_ifs with h
  · rw [min_eq_left (UInt64.le_iff_toNat_le.mp h)]
  · rw [UInt64.le_iff_toNat_le] at h
    rw [min_eq_right (by omega)]

@[simp] theorem saturatingMul_toNat (x y : UInt64) :
    (saturatingMul x y).toNat = min (x.toNat * y.toNat) 18446744073709551615 := by
  unfold saturatingMul
  rw [UInt64.toNat_ofNat_of_lt']
  exact lt_of_le_of_lt (min_le_right _ _) (by decide)

@[simp] theorem saturatingPow_toNat (x : UInt64) (n : UInt32) :
    (saturatingPow x n).toNat = min (x.toNat ^ n.toNat) 18446744073709551615 := by
  unfold saturatingPow
  rw [UInt64.toNat_ofNat_of_lt']
  exact lt_of_le_of_lt (min_le_right _ _) (by decide)

/-- Neither saturation loses anything below a 64-bit cap. -/
theorem min_saturated (b p c M : Nat) (hc : c ≤ M) :
    min (min (b * min p M) M) c = min (b * p) c := by
  rcases Nat.le_total p M with hp | hp
  · rw [min_eq_left hp, min_assoc, min_eq_right hc]
  · rw [min_eq_right hp]
    rcases Nat.eq_zero_or_pos b with hb | hb
    · subst hb
      simp
    · have hM : M ≤ b * M := Nat.le_mul_of_pos_left M hb
      have hpM : b * M ≤ b * p := Nat.mul_le_mul_left b hp
      rw [min_eq_right hM, min_eq_right hc, min_eq_right (by omega)]

theorem backoffSeconds_toNat {base : UInt64} {attempt : UInt32} {cap : UInt64}
    (h : attempt ≠ 0) :
    (backoffSeconds base attempt cap).toNat =
      min (base.toNat * 2 ^ (attempt - 1).toNat) cap.toNat := by
  unfold backoffSeconds
  rw [if_neg h, uint64_min_toNat, saturatingMul_toNat, saturatingPow_toNat]
  have hcap : cap.toNat ≤ 18446744073709551615 := by
    have hlt := cap.toNat_lt
    omega
  exact min_saturated base.toNat _ cap.toNat _ hcap

/-- A backoff of the worker is at most fifteen minutes. -/
theorem backoffSeconds_le (base : UInt64) (attempt : UInt32) :
    (backoffSeconds base attempt maxBackoffSeconds).toNat ≤ 900 := by
  by_cases h : attempt = 0
  · subst h
    simp [backoffSeconds]
  · rw [backoffSeconds_toNat h]
    exact min_le_right _ _

/-- With a positive base, every retry waits. -/
theorem backoffSeconds_pos {base : UInt64} {attempt : UInt32}
    (hbase : 1 ≤ base.toNat) (h : attempt ≠ 0) :
    1 ≤ (backoffSeconds base attempt maxBackoffSeconds).toNat := by
  rw [backoffSeconds_toNat h]
  have hpow : 1 ≤ 2 ^ (attempt - 1).toNat := Nat.one_le_two_pow
  have hprod : 1 ≤ base.toNat * 2 ^ (attempt - 1).toNat :=
    Nat.mul_pos hbase hpow
  exact le_min hprod (by decide)

/-- The chosen sleep ends no later than the wakeup it was computed from. -/
theorem idleWait_le {now at_ : Int} (h : now < at_) :
    now + (DeliveryWorker.idleWait now (.ok (some at_)) : Int) ≤ at_ := by
  simp only [DeliveryWorker.idleWait, i64Sub, wrapI64]
  omega

end Queue
end ChimneyPost
