import ChimneyPost.Queue.Worker

/-!
# Backoff arithmetic

`backoff_seconds` saturates twice and is capped at last; nothing is lost on the way
(`backoffSeconds_eq`).  `handle_failure` adds the backoff to the clock and, before that,
one to the counter it read; the second addition is the only one that can wrap.
-/

namespace ChimneyPost
namespace Queue

/-- `base * 2^(attempt - 1)`, capped, in unbounded integers. -/
def exactBackoff (base attempt cap : Nat) : Nat :=
  if attempt = 0 then 0 else min (base * 2 ^ (attempt - 1)) cap

theorem exactBackoff_mono {base base' attempt attempt' cap : Nat} (hbase : base ≤ base')
    (hattempt : attempt ≤ attempt') :
    exactBackoff base attempt cap ≤ exactBackoff base' attempt' cap := by
  rw [exactBackoff, exactBackoff]
  split_ifs with hzero hzero'
  · exact le_refl _
  · exact Nat.zero_le _
  · omega
  · apply min_le_min_right
    exact Nat.mul_le_mul hbase (Nat.pow_le_pow_right (by decide) (by omega))

theorem uint32_eq_zero_iff {a : UInt32} : a = 0 ↔ a.toNat = 0 := by
  constructor
  · rintro rfl
    rfl
  · intro h
    exact UInt32.toNat.inj h

/-- **The saturations lose nothing.** -/
theorem backoffSeconds_eq (base : UInt64) (attempt : UInt32) (cap : UInt64) :
    (backoffSeconds base attempt cap).toNat =
      exactBackoff base.toNat attempt.toNat cap.toNat := by
  by_cases hzero : attempt = 0
  · subst hzero
    rfl
  · have hpos : attempt.toNat ≠ 0 := mt uint32_eq_zero_iff.mpr hzero
    have hone : (1 : UInt32) ≤ attempt := by
      rw [UInt32.le_iff_toNat_le]
      exact Nat.one_le_iff_ne_zero.mpr hpos
    have hprev : (attempt - 1).toNat = attempt.toNat - 1 :=
      UInt32.toNat_sub_of_le attempt 1 hone
    rw [backoffSeconds_toNat hzero, hprev, exactBackoff, if_neg hpos]

/-- What `backoff_seconds` computes, at every magnitude. -/
structure BackoffExact : Prop where
  exact_ : ∀ (base : UInt64) (attempt : UInt32) (cap : UInt64),
    (backoffSeconds base attempt cap).toNat =
      if attempt = 0 then 0
      else min (base.toNat * 2 ^ (attempt.toNat - 1)) cap.toNat
  mono_attempt : ∀ (base : UInt64) {attempt attempt' : UInt32} (cap : UInt64),
    attempt ≤ attempt' → backoffSeconds base attempt cap ≤ backoffSeconds base attempt' cap
  mono_base : ∀ {base base' : UInt64} (attempt : UInt32) (cap : UInt64),
    base ≤ base' → backoffSeconds base attempt cap ≤ backoffSeconds base' attempt cap

theorem backoffExact : BackoffExact := by
  constructor
  · intro base attempt cap
    rw [backoffSeconds_eq, exactBackoff]
    simp only [uint32_eq_zero_iff]
  · intro base attempt attempt' cap hle
    rw [UInt64.le_iff_toNat_le, backoffSeconds_eq, backoffSeconds_eq]
    exact exactBackoff_mono (le_refl _) (UInt32.le_iff_toNat_le.mp hle)
  · intro base base' attempt cap hle
    rw [UInt64.le_iff_toNat_le, backoffSeconds_eq, backoffSeconds_eq]
    exact exactBackoff_mono (UInt64.le_iff_toNat_le.mp hle) (le_refl _)

/-- A retry is due at the clock plus the backoff, in unbounded integers, and not yet. -/
def DueLater (w : DeliveryWorker) (stored : StoredMessage) (now : Int)
    (error : ChimneyError) : Prop :=
  ∀ id attempts next, w.handleFailure stored now error = .rescheduling id attempts next →
    next = now + (backoffSeconds w.retryBackoff attempts maxBackoffSeconds).toNat ∧
      now < next

section Failure

variable {w : DeliveryWorker} {stored : StoredMessage} {now : Int}

theorem dueLater_of_counter_fits (hbase : 1 ≤ w.retryBackoff.toNat)
    (hlow : -9223372036854775808 ≤ now) (hhigh : now ≤ 9223372036854775807 - 900)
    (hcounter : stored.attempts.toNat < 4294967295) (error : ChimneyError) :
    DueLater w stored now error := by
  intro id attempts next hpc
  have hsucc := attempts_succ_of_lt hcounter
  have hne : stored.attempts + 1 ≠ 0 := by
    intro hzero
    rw [uint32_eq_zero_iff, hsucc] at hzero
    omega
  have hpos := backoffSeconds_pos hbase hne
  have hcap := backoffSeconds_le w.retryBackoff (stored.attempts + 1)
  rcases handleFailure_cases w stored now error with ⟨_, hlast⟩ | ⟨_, hretry⟩
  · rw [hlast] at hpc
    cases hpc
  · rw [hretry, i64Add_eq (by omega) (by omega)] at hpc
    obtain ⟨rfl, rfl, rfl⟩ := WorkerPc.rescheduling.inj hpc
    refine ⟨rfl, ?_⟩
    omega

/-- The counter wraps to an attempt that has no backoff. -/
theorem not_dueLater_of_counter_wraps (hcounter : stored.attempts.toNat = 4294967295)
    (error : ChimneyError) : ¬ DueLater w stored now error := by
  intro hlater
  have hwraps : stored.attempts + 1 = 0 := by
    rw [uint32_eq_zero_iff, attempts_succ_toNat, hcounter]
  rcases handleFailure_cases w stored now error with ⟨hlast, _⟩ | ⟨_, hretry⟩
  · rw [hwraps, UInt32.lt_iff_toNat_lt] at hlast
    exact absurd hlast (Nat.not_lt_zero _)
  · obtain ⟨hnext, hlt⟩ := hlater _ _ _ hretry
    rw [hwraps] at hnext hlt
    have hnone : (backoffSeconds w.retryBackoff 0 maxBackoffSeconds).toNat = 0 := by
      rfl
    rw [hnone] at hnext hlt
    omega

/-- **Backoff arithmetic is exact**, and a failed message is due later than it failed, if
and only if its counter of attempts is not at the end of its range. -/
theorem backoff_exact_iff (hbase : 1 ≤ w.retryBackoff.toNat)
    (hlow : -9223372036854775808 ≤ now) (hhigh : now ≤ 9223372036854775807 - 900)
    (error : ChimneyError) :
    (BackoffExact ∧ DueLater w stored now error) ↔ stored.attempts.toNat < 4294967295 := by
  have hlt := stored.attempts.toNat_lt
  constructor
  · rintro ⟨_, hlater⟩
    by_contra hcounter
    exact not_dueLater_of_counter_wraps (by omega) error hlater
  · intro hcounter
    exact ⟨backoffExact, dueLater_of_counter_fits hbase hlow hhigh hcounter error⟩

end Failure

/-- A message that has failed `attempts` times. -/
def failedMessage (attempts : UInt32) : StoredMessage where
  id := 1
  attempts := attempts
  message := { fromAddr := none, toAddrs := [['a']], subject := none, body := ['x'] }

theorem thirdFailure_backoff_exact :
    (BackoffExact ∧ DueLater ⟨5, 60⟩ (failedMessage 2) 1000 .queueFull) ↔
      (failedMessage 2).attempts.toNat < 4294967295 := by
  exact backoff_exact_iff (by decide) (by decide) (by decide) .queueFull

/-- At the end of its range the counter wraps, and the message is due at once. -/
theorem counterWraps_due_now :
    (⟨5, 60⟩ : DeliveryWorker).handleFailure (failedMessage 4294967295) 1000 .queueFull =
        .rescheduling 1 0 1000 ∧
      ¬ DueLater ⟨5, 60⟩ (failedMessage 4294967295) 1000 .queueFull := by
  refine ⟨by decide, ?_⟩
  exact not_dueLater_of_counter_wraps rfl .queueFull

end Queue
end ChimneyPost
