import ChimneyPost.Queue.System

/-!
# Wakeups of the idle worker

From a claim that found nothing to its next claim the worker is idle: it looks at
`shutdown`, asks for the next due time and parks.  A row committed meanwhile is
not covered by the sleep, so somebody has to notify the worker.

`notify_one` is called by the session, after the closure that commits.  A session
dropped in between leaves its row behind and nobody to notify
(`orphanedInsert`).  `NoLostWakeup` holds in every state of every run in which no
session is dropped there while the worker is idle
(`no_lost_wakeup_of_prompt_notify`).
-/

namespace ChimneyPost
namespace Queue

/-- The last answer of `next_wakeup`, if any, was not an error. -/
def wakeupRead (es : List Event) : Bool :=
  es.foldl (fun ok e =>
    match e with
    | .nextWakeup _ => true
    | .nextWakeupError _ => false
    | _ => ok) true

/-- The event is an answer of `next_wakeup`. -/
def Event.isWakeupRead : Event → Bool
  | .nextWakeup _ => true
  | .nextWakeupError _ => true
  | _ => false

/-- Somebody has notified the worker of the row, or is about to. -/
def Announced (s : System) (r : OutboxRow) : Prop :=
  s.permit = true ∨ ∃ t, s.tasks t = .committed r.id

/-- Parked after successful reads, the worker leaves no row to its long sleep. -/
def NoLostWakeup (es : List Event) (s : System) : Prop :=
  ∀ now wait, s.worker = .parked now wait → wakeupRead es = true →
    ∀ r ∈ s.db.outbox, now + (wait : Int) ≤ r.nextAttemptAt ∨ Announced s r

/-- The worker has found nothing due and has not claimed again. -/
def WorkerPc.idle : WorkerPc → Bool
  | .claimed _ none => true
  | .idleWaiting _ => true
  | .parked _ _ => true
  | _ => false

/-- No session is dropped between its commit and its `notify_one` while the
worker is idle and has no permit. -/
def PromptNotify (s : System) : Event → Prop
  | .insert _ _ _ live _ =>
      live = true ∨ s.permit = true ∨ s.worker.idle = false
  | .cancel t =>
      (∀ id, s.tasks t ≠ .committed id) ∨ s.permit = true ∨ s.worker.idle = false
  | _ => True

/-- The worker, where it is, will claim the row no later than it is due. -/
def WorkerPc.Covers (read : Bool) (r : OutboxRow) : WorkerPc → Prop
  | .claimed now none => now < r.nextAttemptAt
  | .idleWaiting now => now < r.nextAttemptAt
  | .parked now wait => read = true → now + (wait : Int) ≤ r.nextAttemptAt
  | _ => True

/-- Every row is covered or announced. -/
def Watched (es : List Event) (s : System) : Prop :=
  ∀ r ∈ s.db.outbox, s.worker.Covers (wakeupRead es) r ∨ Announced s r

@[simp] theorem wakeupRead_concat (es : List Event) (e : Event)
    (h : e.isWakeupRead = false) : wakeupRead (es ++ [e]) = wakeupRead es := by
  cases e <;> simp [wakeupRead, Event.isWakeupRead] at h ⊢

theorem WorkerPc.covers_of_busy {pc : WorkerPc} (h : pc.idle = false)
    (read : Bool) (r : OutboxRow) : pc.Covers read r := by
  cases pc with
  | claimed now result =>
      cases result with
      | none => simp [WorkerPc.idle] at h
      | some stored => trivial
  | idleWaiting => simp [WorkerPc.idle] at h
  | parked => simp [WorkerPc.idle] at h
  | _ => trivial

section Steps

variable {es : List Event} {s t : System} {e : Event}

/-- A busy worker claims before it parks. -/
theorem watched_of_busy (h : s.worker.idle = false) : Watched es s := by
  intro r _
  exact Or.inl (WorkerPc.covers_of_busy h _ r)

/-- Sessions that keep the announced rows announced keep the rows watched. -/
theorem Watched.session (h : Watched es s) (hread : e.isWakeupRead = false)
    (hdb : t.db = s.db) (hworker : t.worker = s.worker)
    (hannounced : ∀ r, Announced s r → Announced t r) :
    Watched (es ++ [e]) t := by
  intro r hr
  rw [hdb] at hr
  rw [hworker, wakeupRead_concat es e hread]
  rcases h r hr with hcovers | hann
  · exact Or.inl hcovers
  · exact Or.inr (hannounced r hann)

/-- A task that was about to notify still is when another task moves on. -/
theorem Announced.update {r : OutboxRow} {u : Nat} {task : EnqueueTask}
    (h : Announced s r) (hperm : s.permit = true → t.permit = true)
    (htasks : t.tasks = Function.update s.tasks u task)
    (hu : (∀ id, s.tasks u ≠ .committed id) ∨ t.permit = true) :
    Announced t r := by
  rcases h with hpermit | ⟨v, hv⟩
  · exact Or.inl (hperm hpermit)
  · rcases hu with hu | hpermit
    · right
      refine ⟨v, ?_⟩
      have hne : v ≠ u := by
        rintro rfl
        exact hu r.id hv
      rw [htasks, Function.update_of_ne hne]
      exact hv
    · exact Or.inl hpermit

/-- The sleep that `idle_wait` chooses ends when the next row is due. -/
theorem idleWait_covers {db : Db} {now : Int} {r : OutboxRow}
    (hr : r ∈ db.outbox) (hlater : now < r.nextAttemptAt) :
    now + (DeliveryWorker.idleWait now (.ok (MessageStore.nextWakeup now db)) : Int) ≤
      r.nextAttemptAt := by
  cases hnext : MessageStore.nextWakeup now db with
  | none =>
      have hdue := MessageStore.nextWakeup_eq_none hnext r hr
      omega
  | some at_ =>
      obtain ⟨hat, hmin⟩ := MessageStore.nextWakeup_eq_some hnext
      exact (idleWait_le hat).trans (hmin r hr hlater)

theorem watched_step (h : Watched es s) (hprompt : PromptNotify s e)
    (hstep : step s e = some t) : Watched (es ++ [e]) t := by
  cases e with
  | enqueue u message createdAt =>
      obtain ⟨hidle, rfl⟩ := step_enqueue.mp hstep
      refine h.session rfl rfl rfl ?_
      intro r hann
      exact hann.update id rfl (Or.inl (by simp [hidle]))
  | insert u message createdAt live id =>
      obtain ⟨htask, _, rfl, rfl⟩ := step_insert.mp hstep
      intro r hr
      rw [wakeupRead_concat _ _ rfl]
      rcases Db.mem_insertOutbox.mp hr with hr | rfl
      · rcases h r hr with hcovers | hann
        · exact Or.inl hcovers
        · exact Or.inr (hann.update id rfl (Or.inl (by simp [htask])))
      · rcases hprompt with hlive | hpermit | hbusy
        · right
          right
          exact ⟨u, by simp [hlive, Db.newRow_id]⟩
        · exact Or.inr (Or.inl hpermit)
        · exact Or.inl (WorkerPc.covers_of_busy hbusy _ _)
  | refuse u message createdAt live error =>
      obtain ⟨⟨htask, _⟩, rfl⟩ := step_refuse.mp hstep
      refine h.session rfl rfl rfl ?_
      intro r hann
      exact hann.update id rfl (Or.inl (by simp [htask]))
  | notify u id =>
      obtain ⟨_, rfl⟩ := step_notify.mp hstep
      refine h.session rfl rfl rfl ?_
      intro r _
      exact Or.inl rfl
  | cancel u =>
      obtain ⟨_, rfl⟩ := step_cancel.mp hstep
      rcases hprompt with hnot | hpermit | hbusy
      · refine h.session rfl rfl rfl ?_
        intro r hann
        exact hann.update id rfl (Or.inl hnot)
      · refine h.session rfl rfl rfl ?_
        intro r _
        exact Or.inl hpermit
      · exact watched_of_busy hbusy
  | setShutdown =>
      obtain rfl := step_setShutdown.mp hstep
      exact h.session rfl rfl rfl (fun r hann => hann)
  | claim now result =>
      obtain ⟨⟨_, hclaim⟩, rfl⟩ := step_claim.mp hstep
      cases result with
      | none =>
          intro r hr
          exact Or.inl (MessageStore.claimNextReady_eq_none.mp hclaim r hr)
      | some stored => exact watched_of_busy rfl
  | nothingDue now =>
      obtain ⟨hpc, rfl⟩ := step_nothingDue.mp hstep
      cases hs : s.shutdown with
      | true => exact watched_of_busy rfl
      | false =>
          intro r hr
          rcases h r hr with hcovers | hann
          · rw [hpc] at hcovers
            exact Or.inl hcovers
          · exact Or.inr hann
  | nextWakeup now =>
      obtain ⟨hpc, rfl⟩ := step_nextWakeup.mp hstep
      intro r hr
      rcases h r hr with hcovers | hann
      · rw [hpc] at hcovers
        exact Or.inl (fun _ => idleWait_covers hr hcovers)
      · exact Or.inr hann
  | nextWakeupError now =>
      obtain ⟨_, rfl⟩ := step_nextWakeupError.mp hstep
      intro r _
      left
      intro hread
      simp [wakeupRead] at hread
  | sinkErr stored now error =>
      obtain ⟨_, rfl⟩ := step_sinkErr.mp hstep
      apply watched_of_busy
      rcases handleFailure_cases s.config stored now error with ⟨_, hpc⟩ | ⟨_, hpc⟩
      · simp [hpc, WorkerPc.idle]
      · simp [hpc, WorkerPc.idle]
  | backoffElapsed =>
      obtain ⟨_, rfl⟩ := step_backoffElapsed.mp hstep
      apply watched_of_busy
      cases s.shutdown <;> rfl
  | _ =>
      simp at hstep
      apply watched_of_busy
      simp [hstep, WorkerPc.idle, System.start]

end Steps

/-- Watched rows do not depend on the long sleep. -/
theorem Watched.noLostWakeup {es : List Event} {s : System} (h : Watched es s) :
    NoLostWakeup es s := by
  intro now wait hpc hread r hr
  rcases h r hr with hcovers | hann
  · rw [hpc] at hcovers
    exact Or.inl (hcovers hread)
  · exact Or.inr hann

/-- **No lost wakeup**: in every state of every run, with any crashes and errors,
whose sessions are not dropped between commit and notification while the worker
is idle. -/
theorem no_lost_wakeup_of_prompt_notify (config : DeliveryWorker) (maxLen : Nat)
    (db : Db) (es : List Event)
    (hprompt : Replay.StepsMeet step PromptNotify (System.start config maxLen db) es) :
    Replay.AtEveryState step NoLostWakeup (System.start config maxLen db) es := by
  refine Replay.atEveryState_of_stepsMeet ?_ hprompt
  intro es s hmeet hrun
  apply Watched.noLostWakeup
  refine Replay.replay_invariant_of_stepsMeet (I := Watched) ?_ ?_ hmeet hrun
  · exact watched_of_busy rfl
  · intro es s e t _ hI hC hstep
    exact watched_step hI hC hstep

/-- A message arrives while the worker is parked, and its session notifies it. -/
def notifiedInsert : List Event :=
  let m : Message :=
    { fromAddr := none, toAddrs := [['a']], subject := none, body := ['x'] }
  [ .claim 5 none, .nothingDue 5, .nextWakeup 5,
    .enqueue 0 m 6, .insert 0 m 6 true 1, .notify 0 1 ]

theorem notifiedInsert_watched :
    Replay.AtEveryState step NoLostWakeup (System.start ⟨5, 60⟩ 10 Db.empty)
      notifiedInsert := by
  refine no_lost_wakeup_of_prompt_notify ⟨5, 60⟩ 10 Db.empty notifiedInsert ?_
  exact .cons trivial rfl (.cons trivial rfl (.cons trivial rfl
    (.cons trivial rfl (.cons (Or.inl rfl) rfl (.cons trivial rfl .nil)))))

/-- The session's deadline strikes while the closure waits for the connection. -/
def orphanedInsert : List Event :=
  let m : Message :=
    { fromAddr := none, toAddrs := [['a']], subject := none, body := ['x'] }
  [ .claim 5 none, .nothingDue 5, .nextWakeup 5,
    .enqueue 0 m 6, .cancel 0, .insert 0 m 6 false 1 ]

theorem orphanedInsert_sleeps :
    (run (System.start ⟨5, 60⟩ 10 Db.empty) orphanedInsert).isSome = true ∧
      ¬ Replay.AtEveryState step NoLostWakeup (System.start ⟨5, 60⟩ 10 Db.empty)
        orphanedInsert := by
  refine ⟨rfl, ?_⟩
  intro h
  have hlost := h orphanedInsert [] _ (by simp) rfl 5 3600 rfl rfl _ List.mem_cons_self
  rcases hlost with hcovered | hpermit | ⟨t, ht⟩
  · exact absurd hcovered (by decide)
  · cases hpermit
  · by_cases hzero : t = 0
    · simp [hzero] at ht
    · simp [Function.update_of_ne hzero, System.start] at ht

end Queue
end ChimneyPost
