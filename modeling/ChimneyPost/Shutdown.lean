import ChimneyPost.Daemon

/-!
# Until the daemon ends

The delivery task returns only after the shutdown has been sent, that is only after a
signal, and the listener ends only when it is aborted, so that neither ends the process
before: not an outage of the homeserver, however many connects fail, and no error of the
store or of a session (`ends_on_signal`).

A shutdown that is sent is heard.  `changed()` of the watch channel is ready once, and
`run_with_reconnect` hands its receiver on to the worker; yet whenever the delivery task
waits for its next connect or for something to deliver, it has not seen the change
(`shutdown_heard`).
-/

namespace ChimneyPost

open Queue (Event DeliveryWorker Db System WorkerPc)
open Smtp (Server Machine MachineEvent Listener ListenerEvent)

/-! ## The worker and the channel -/

/-- The worker has found nothing due and waits. -/
def Queue.WorkerPc.isIdle : WorkerPc → Bool
  | .idleWaiting _ => true
  | .parked _ _ => true
  | _ => false

/-- What an event that starts no process does to the worker and to the channel. -/
structure WorkerMoves (s : System) (e : Event) (t : System) : Prop where
  shutdown : t.shutdown = true ↔ s.shutdown = true ∨ e = .setShutdown
  /-- the worker looks at the channel before it stops -/
  stopped : t.worker = .stopped → s.worker = .stopped ∨ s.shutdown = true
  /-- and before it waits -/
  idle : t.worker.isIdle = true → s.worker.isIdle = true ∧ e.hears = false ∨ s.shutdown = false
  still : e.ofWorker = false → t.worker = s.worker

theorem handleFailure_awake (w : DeliveryWorker) (stored : Queue.StoredMessage) (now : Int)
    (error : ChimneyError) :
    w.handleFailure stored now error ≠ .stopped ∧
      (w.handleFailure stored now error).isIdle = false := by
  rcases Queue.handleFailure_cases w stored now error with ⟨_, hpc⟩ | ⟨_, hpc⟩
  · rw [hpc]
    exact ⟨by simp, rfl⟩
  · rw [hpc]
    exact ⟨by simp, rfl⟩

theorem workerMoves_of_step {s t : System} {e : Event} (h : Queue.step s e = some t)
    (hcrash : ∀ config maxLen, e ≠ .crash config maxLen) : WorkerMoves s e t := by
  cases e with
  | sinkErr stored now error =>
      obtain ⟨_, rfl⟩ := Queue.step_sinkErr.mp h
      have hawake := handleFailure_awake s.config stored now error
      exact ⟨by simp, fun hstop => absurd hstop hawake.1,
        fun hidle => (by rw [hawake.2] at hidle; cases hidle), fun hof => (by cases hof)⟩
  | nothingDue now =>
      obtain ⟨_, rfl⟩ := Queue.step_nothingDue.mp h
      refine ⟨by simp, ?_, ?_, fun hof => (by cases hof)⟩
      · intro hstop
        cases hs : s.shutdown with
        | true => exact Or.inr rfl
        | false => simp [hs] at hstop
      · intro hidle
        cases hs : s.shutdown with
        | true => simp [hs, WorkerPc.isIdle] at hidle
        | false => exact Or.inr rfl
  | nextWakeup now =>
      obtain ⟨hpc, rfl⟩ := Queue.step_nextWakeup.mp h
      refine ⟨by simp, fun hstop => (by cases hstop), fun _ => Or.inl ⟨?_, rfl⟩,
        fun hof => (by cases hof)⟩
      rw [hpc]
      rfl
  | nextWakeupError now =>
      obtain ⟨hpc, rfl⟩ := Queue.step_nextWakeupError.mp h
      refine ⟨by simp, fun hstop => (by cases hstop), fun _ => Or.inl ⟨?_, rfl⟩,
        fun hof => (by cases hof)⟩
      rw [hpc]
      rfl
  | backoffElapsed =>
      obtain ⟨_, rfl⟩ := Queue.step_backoffElapsed.mp h
      refine ⟨by simp, ?_, ?_, fun hof => (by cases hof)⟩
      · intro hstop
        cases hs : s.shutdown with
        | true => exact Or.inr rfl
        | false => simp [hs] at hstop
      · intro hidle
        cases hs : s.shutdown with
        | true => simp [hs, WorkerPc.isIdle] at hidle
        | false => simp [hs, WorkerPc.isIdle] at hidle
  | backoffInterrupted =>
      obtain ⟨⟨_, hshutdown⟩, rfl⟩ := Queue.step_backoffInterrupted.mp h
      exact ⟨by simp, fun _ => Or.inr hshutdown, fun hidle => (by cases hidle),
        fun hof => (by cases hof)⟩
  | crash config maxLen =>
      exact absurd rfl (hcrash config maxLen)
  | enqueue | insert | refuse | notify | cancel | setShutdown =>
      simp at h
      refine ⟨by simp [h], fun hstop => Or.inl (by simpa [h] using hstop),
        fun hidle => Or.inl ⟨by simpa [h] using hidle, rfl⟩, fun _ => by simp [h]⟩
  | _ =>
      simp at h
      refine ⟨by simp [h], fun hstop => (by simp [h] at hstop),
        fun hidle => (by simp [h, WorkerPc.isIdle] at hidle), fun hof => (by cases hof)⟩

/-! ## Through the listener -/

section Through

variable {server : Server} {m m' : Machine} {l l' : Listener} {d : Daemon}

/-- What an event of the listener is for the system, as far as the daemon allows it. -/
structure Allowed (d : Daemon) (e : ListenerEvent) (f : Event) : Prop where
  setShutdown : f ≠ .setShutdown
  crash : ∀ config maxLen, f ≠ .crash config maxLen
  ofWorker : f.ofWorker = true → d.delivery = .running
  hears : f.hears = e.hears
  unheard : f.hears = true → d.seen = false

theorem system_of_allowed {e : ListenerEvent} (hallows : d.allows e)
    (h : Listener.step server d.listener e = some l') :
    (l'.machine.system = d.system ∧ e.hears = false) ∨
      ∃ f, Allowed d e f ∧ Queue.step d.system f = some l'.machine.system := by
  cases e with
  | acceptFailed =>
      obtain rfl := Option.some.inj h
      exact Or.inl ⟨rfl, rfl⟩
  | accept t reader =>
      obtain ⟨_, rfl⟩ := Smtp.listenerStep_accept.mp h
      exact Or.inl ⟨rfl, rfl⟩
  | refuse =>
      obtain ⟨_, rfl⟩ := Smtp.listenerStep_refuse.mp h
      exact Or.inl ⟨rfl, rfl⟩
  | greet t =>
      obtain ⟨reader, machine, _, hmachine, rfl⟩ := Smtp.listenerStep_greet.mp h
      obtain ⟨_, rfl⟩ := Smtp.machineStep_connect.mp hmachine
      exact Or.inl ⟨rfl, rfl⟩
  | hangUp t =>
      obtain ⟨_, rfl⟩ := Smtp.listenerStep_hangUp.mp h
      exact Or.inl ⟨rfl, rfl⟩
  | machine e =>
      obtain ⟨machine, hbegins, hmachine, rfl⟩ := Smtp.listenerStep_machine.mp h
      cases e with
      | process f =>
          obtain ⟨system, _, hsystem, rfl⟩ := Smtp.machineStep_process.mp hmachine
          obtain ⟨hsend, hrunning, hunseen⟩ := hallows
          refine Or.inr ⟨f, ⟨hsend, ?_, hrunning, rfl, hunseen⟩, hsystem⟩
          rintro config maxLen rfl
          cases hbegins
      | call t message createdAt =>
          obtain ⟨c, system, _, _, _, hsystem, rfl⟩ := Smtp.machineStep_call.mp hmachine
          exact Or.inr ⟨.enqueue t message createdAt,
            ⟨by simp, by simp, fun hof => (by cases hof), rfl, fun hears => (by cases hears)⟩,
            hsystem⟩
      | connect t reader => cases hbegins
      | turn t =>
          obtain ⟨_, _, _, _, _, _, rfl⟩ := Smtp.machineStep_turn.mp hmachine
          exact Or.inl ⟨rfl, rfl⟩
      | answer t message result =>
          obtain ⟨_, _, _, _, _, rfl⟩ := Smtp.machineStep_answer.mp hmachine
          exact Or.inl ⟨rfl, rfl⟩
      | leave t =>
          obtain ⟨_, rfl⟩ := Smtp.machineStep_leave.mp hmachine
          exact Or.inl ⟨rfl, rfl⟩
      | checkpoint =>
          obtain rfl := Smtp.machineStep_checkpoint.mp hmachine
          exact Or.inl ⟨rfl, rfl⟩
  | restart maxConnections config maxLen => cases hallows

theorem system_of_sendShutdown
    (h : Listener.step server l (.machine (.process .setShutdown)) = some l') :
    l'.machine.system = { l.machine.system with shutdown := true } := by
  obtain ⟨machine, _, hmachine, rfl⟩ := Smtp.listenerStep_machine.mp h
  obtain ⟨system, _, hsystem, rfl⟩ := Smtp.machineStep_process.mp hmachine
  exact Queue.step_setShutdown.mp hsystem

theorem system_of_restart {maxConnections maxLen : Nat} {config : DeliveryWorker}
    (h : Listener.step server l (.restart maxConnections config maxLen) = some l') :
    l'.machine.system = System.start config maxLen l.machine.system.db := by
  obtain ⟨machine, hmachine, rfl⟩ := Smtp.listenerStep_restart.mp h
  obtain ⟨system, _, hsystem, rfl⟩ := Smtp.machineStep_process.mp hmachine
  exact Queue.step_crash.mp hsystem

end Through

/-! ## What holds between the tasks -/

/-- The worker does not run yet. -/
def DeliveryPc.isBefore : DeliveryPc → Bool
  | .looking => true
  | .connecting => true
  | .backingOff => true
  | _ => false

/-- `run_with_reconnect` is on its way from a look at the channel to the next. -/
def DeliveryPc.isTrying : DeliveryPc → Bool
  | .connecting => true
  | .backingOff => true
  | _ => false

namespace MainPc

/-- The SMTP task has not been aborted. -/
def isWaiting : MainPc → Bool
  | .registering => true
  | .selecting => true
  | .stopping => true
  | _ => false

/-- The shutdown has been sent. -/
def isLast : MainPc → Bool
  | .draining => true
  | .exited (.ok _) => true
  | _ => false

/-- A signal has arrived. -/
def isSignalled : MainPc → Bool
  | .stopping => true
  | .aborted => true
  | .draining => true
  | .exited (.ok _) => true
  | _ => false

end MainPc

structure Sound (d : Daemon) : Prop where
  heard : d.seen = true → d.system.shutdown = true
  before : d.delivery.isBefore = true → d.system.worker = .loopTop
  stopped : d.system.worker = .stopped → d.system.shutdown = true
  returned : d.delivery = .returned → d.system.shutdown = true
  sent : d.system.shutdown = true → d.main.isLast = true
  looping : d.main.isWaiting = true → d.serving = .looping
  /-- whoever waits for the channel has not seen it change -/
  unheard : d.delivery.isTrying = true ∨ d.system.worker.isIdle = true → d.seen = false

section Invariant

variable {server : Server} {d d' : Daemon}

theorem sound_start {l : Listener} (hworker : l.machine.system.worker = .loopTop)
    (hshutdown : l.machine.system.shutdown = false) : Sound (Daemon.start l) := by
  refine ⟨fun h => (by cases h), fun _ => hworker, fun h => ?_, fun h => (by cases h),
    fun h => ?_, fun _ => rfl, fun _ => rfl⟩
  · rw [show (Daemon.start l).system.worker = .loopTop from hworker] at h
    cases h
  · rw [show (Daemon.start l).system.shutdown = false from hshutdown] at h
    cases h

theorem sound_listener (h : Sound d) {e : ListenerEvent}
    (hstep : Daemon.step server d (.listener e) = some d') : Sound d' := by
  obtain ⟨hallows, l', hlistener, rfl⟩ := daemonStep_listener.mp hstep
  rcases system_of_allowed hallows hlistener with ⟨hsystem, hears⟩ | ⟨f, hf, hsystem⟩
  · have hsame : (⟨l', d.serving, d.delivery, d.seen || e.hears, d.connected, d.monitor, d.main,
        d.notices⟩ : Daemon).system = d.system := hsystem
    have hseen : (d.seen || e.hears) = d.seen := by
      rw [hears, Bool.or_false]
    constructor
    · rw [hsame]
      simpa only [hseen] using h.heard
    · rw [hsame]
      exact h.before
    · rw [hsame]
      exact h.stopped
    · rw [hsame]
      exact h.returned
    · rw [hsame]
      exact h.sent
    · exact h.looping
    · rw [hsame]
      simpa only [hseen] using h.unheard
  · have hmoves := workerMoves_of_step hsystem hf.crash
    have hshutdown : l'.machine.system.shutdown = true ↔ d.system.shutdown = true := by
      rw [hmoves.shutdown]
      exact or_iff_left hf.setShutdown
    constructor
    · intro hseen
      refine hshutdown.mpr ?_
      rcases Bool.or_eq_true_iff.mp hseen with hseen | hears
      · exact h.heard hseen
      · rw [← hf.hears] at hears
        cases f with
        | wakeShutdown => exact (Queue.step_wakeShutdown.mp hsystem).1.2
        | backoffInterrupted => exact (Queue.step_backoffInterrupted.mp hsystem).1.2
        | _ => cases hears
    · intro hbefore
      have hof : f.ofWorker = false := by
        by_contra hof
        rw [hf.ofWorker (Bool.not_eq_false _ ▸ hof)] at hbefore
        cases hbefore
      exact (hmoves.still hof).trans (h.before hbefore)
    · intro hstop
      refine hshutdown.mpr ?_
      rcases hmoves.stopped hstop with hstop | hshut
      · exact h.stopped hstop
      · exact hshut
    · intro hreturned
      exact hshutdown.mpr (h.returned hreturned)
    · intro hshut
      exact h.sent (hshutdown.mp hshut)
    · exact h.looping
    · intro hwaits
      rw [Bool.or_eq_false_iff, ← hf.hears]
      rcases hwaits with htrying | hidle
      · refine ⟨h.unheard (Or.inl htrying), ?_⟩
        cases hears : f.hears with
        | false => rfl
        | true =>
            have hof : f.ofWorker = true := by
              cases f <;> first | rfl | cases hears
            rw [hf.ofWorker hof] at htrying
            cases htrying
      · rcases hmoves.idle hidle with ⟨hidle, hears⟩ | hfalse
        · exact ⟨h.unheard (Or.inr hidle), hears⟩
        · constructor
          · by_contra hseen
            rw [h.heard (Bool.not_eq_false _ ▸ hseen)] at hfalse
            cases hfalse
          · cases f with
            | wakeShutdown =>
                rw [(Queue.step_wakeShutdown.mp hsystem).1.2] at hfalse
                cases hfalse
            | backoffInterrupted =>
                rw [(Queue.step_backoffInterrupted.mp hsystem).1.2] at hfalse
                cases hfalse
            | _ => rfl

theorem sound_delivery (h : Sound d) {e : DeliveryEvent} (hstep : DeliverySteps d e d') :
    Sound d' := by
  cases hstep with
  | leave hpc hshutdown =>
      exact { h with
        before := fun hbefore => (by cases hbefore)
        returned := fun _ => hshutdown
        unheard := fun hwaits => h.unheard (hwaits.imp_left fun htrying => (by cases htrying)) }
  | connect hpc hshutdown =>
      have hseen : d.seen = false := by
        by_contra hseen
        rw [h.heard (Bool.not_eq_false _ ▸ hseen)] at hshutdown
        cases hshutdown
      exact { h with
        before := fun _ => h.before (by rw [hpc]; rfl)
        returned := fun hreturned => (by cases hreturned)
        unheard := fun _ => hseen }
  | connected hpc =>
      exact { h with
        before := fun hbefore => (by cases hbefore)
        returned := fun hreturned => (by cases hreturned)
        unheard := fun _ => h.unheard (Or.inl (by rw [hpc]; rfl)) }
  | connectFailed error hpc =>
      exact { h with
        before := fun _ => h.before (by rw [hpc]; rfl)
        returned := fun hreturned => (by cases hreturned)
        unheard := fun _ => h.unheard (Or.inl (by rw [hpc]; rfl)) }
  | reconnectElapsed hpc =>
      exact { h with
        before := fun _ => h.before (by rw [hpc]; rfl)
        returned := fun hreturned => (by cases hreturned)
        unheard := fun _ => h.unheard (Or.inl (by rw [hpc]; rfl)) }
  | reconnectInterrupted hpc hshutdown hseen =>
      have hworker : d.system.worker = .loopTop := h.before (by rw [hpc]; rfl)
      exact { h with
        heard := fun _ => hshutdown
        before := fun _ => hworker
        returned := fun hreturned => (by cases hreturned)
        unheard := by
          rintro (htrying | hidle)
          · cases htrying
          · rw [show d.system.worker = .loopTop from hworker] at hidle
            cases hidle }
  | finished hpc hworker =>
      exact { h with
        before := fun hbefore => (by cases hbefore)
        returned := fun _ => h.stopped hworker
        unheard := fun hwaits => h.unheard (hwaits.imp_left fun htrying => (by cases htrying)) }

/-- While `main` is not at its end, nothing has been sent, and it may go anywhere. -/
theorem Sound.sent_of_not_last (h : Sound d) (hlast : d.main.isLast = false) (pc : MainPc) :
    d.system.shutdown = true → pc.isLast = true := by
  intro hshutdown
  rw [h.sent hshutdown] at hlast
  cases hlast

theorem sound_main (h : Sound d) {e : MainEvent} (hstep : MainSteps server d e d') :
    Sound d' := by
  cases hstep with
  | signalsFailed text hpc =>
      exact { h with
        sent := h.sent_of_not_last (by rw [hpc]; rfl) _
        looping := fun hwaiting => (by cases hwaiting) }
  | signalsReady hpc =>
      exact { h with
        sent := h.sent_of_not_last (by rw [hpc]; rfl) _
        looping := fun _ => h.looping (by rw [hpc]; rfl) }
  | signal hpc =>
      exact { h with
        sent := h.sent_of_not_last (by rw [hpc]; rfl) _
        looping := fun _ => h.looping (by rw [hpc]; rfl) }
  | abort serving hpc =>
      exact { h with
        sent := h.sent_of_not_last (by rw [hpc]; rfl) _
        looping := fun hwaiting => (by cases hwaiting) }
  | sendShutdown listener hpc hlistener =>
      have hsystem := system_of_sendShutdown hlistener
      have hshutdown : listener.machine.system.shutdown = true := by
        rw [hsystem]
      have hworker : listener.machine.system.worker = d.system.worker := by
        rw [hsystem]
      exact {
        heard := fun _ => hshutdown
        before := fun hbefore => hworker.trans (h.before hbefore)
        stopped := fun _ => hshutdown
        returned := fun _ => hshutdown
        sent := fun _ => rfl
        looping := fun hwaiting => (by cases hwaiting)
        unheard := fun hwaits => h.unheard (hwaits.imp_right fun hidle => (by
          rw [← hworker]
          exact hidle)) }
  | smtpJoined result hpc hserving =>
      rw [h.looping (by rw [hpc]; rfl)] at hserving
      cases hserving
  | workerJoined hpc hdelivery =>
      have hsent := h.sent (h.returned hdelivery)
      rw [hpc] at hsent
      cases hsent
  | drained hpc hdelivery =>
      exact { h with sent := fun _ => rfl, looping := fun hwaiting => (by cases hwaiting) }
  | drainTimedOut hpc =>
      exact { h with sent := fun _ => rfl, looping := fun hwaiting => (by cases hwaiting) }

theorem sound_step (h : Sound d) {e : DaemonEvent} (hstep : Daemon.step server d e = some d') :
    Sound d' := by
  cases e with
  | listener e => exact sound_listener h hstep
  | smtpCancelled joinError =>
      rw [Daemon.step] at hstep
      split at hstep
      · next haborting =>
          obtain rfl := Option.some.inj hstep
          refine { h with looping := fun hwaiting => ?_ }
          rw [h.looping hwaiting] at haborting
          cases haborting
      · cases hstep
  | delivery e => exact sound_delivery h (deliverySteps_of_step hstep)
  | monitor e =>
      cases monitorSteps_of_step hstep <;> exact { h with }
  | main e => exact sound_main h (mainSteps_of_step hstep)
  | restart maxConnections config maxLen =>
      obtain ⟨l, hlistener, rfl⟩ := daemonStep_restart.mp hstep
      have hsystem := system_of_restart hlistener
      exact sound_start (by rw [hsystem]; rfl) (by rw [hsystem]; rfl)

end Invariant

/-! ## Since the process has started -/

def DaemonEvent.isRestart : DaemonEvent → Bool
  | .restart _ _ _ => true
  | _ => false

/-- The events of the process that is running. -/
def processOf (es : List DaemonEvent) : List DaemonEvent :=
  History.since DaemonEvent.isRestart es

/-- What the state of the process says about its events. -/
structure Recorded (es : List DaemonEvent) (d : Daemon) : Prop where
  signalled : d.main.isSignalled = true → .main .signal ∈ processOf es
  failed : ∀ error, d.main = .exited (.error error) →
    ∃ text, error = .io text ∧ .main (.signalsFailed text) ∈ processOf es
  connected : d.delivery = .running → .delivery .connected ∈ processOf es

section Record

variable {server : Server} {d d' : Daemon} {es : List DaemonEvent}

theorem recorded_start (l : Listener) (es : List DaemonEvent) : Recorded es (Daemon.start l) := by
  exact ⟨fun h => (by cases h), fun _ h => (by cases h), fun h => (by cases h)⟩

theorem mem_processOf_concat {e x : DaemonEvent} (he : e.isRestart = false)
    (h : x ∈ processOf es) : x ∈ processOf (es ++ [e]) := by
  rw [processOf, History.since_concat_of_neg es he]
  exact List.mem_append_left _ h

theorem mem_processOf_last {e : DaemonEvent} (he : e.isRestart = false) :
    e ∈ processOf (es ++ [e]) := by
  rw [processOf, History.since_concat_of_neg es he]
  exact List.mem_append_right _ (List.mem_singleton_self e)

/-- An event that leaves `main` and the delivery task where they are. -/
theorem Recorded.keep (h : Recorded es d) {e : DaemonEvent} (he : e.isRestart = false)
    (hmain : d'.main = d.main) (hdelivery : d'.delivery = d.delivery) :
    Recorded (es ++ [e]) d' := by
  constructor
  · intro hsignalled
    rw [hmain] at hsignalled
    exact mem_processOf_concat he (h.signalled hsignalled)
  · intro error herror
    rw [hmain] at herror
    obtain ⟨text, htext, hmem⟩ := h.failed error herror
    exact ⟨text, htext, mem_processOf_concat he hmem⟩
  · intro hrunning
    rw [hdelivery] at hrunning
    exact mem_processOf_concat he (h.connected hrunning)

theorem recorded_delivery (h : Recorded es d) {e : DeliveryEvent}
    (hstep : DeliverySteps d e d') : Recorded (es ++ [.delivery e]) d' := by
  have hkept : Recorded (es ++ [.delivery e]) d := h.keep rfl rfl rfl
  cases hstep with
  | connected hpc =>
      exact { hkept with connected := fun _ => mem_processOf_last rfl }
  | _ =>
      exact { hkept with connected := fun hrunning => (by cases hrunning) }

theorem recorded_main (hsound : Sound d) (h : Recorded es d) {e : MainEvent}
    (hstep : MainSteps server d e d') : Recorded (es ++ [.main e]) d' := by
  have hkept : Recorded (es ++ [.main e]) d := h.keep rfl rfl rfl
  cases hstep with
  | signalsFailed text hpc =>
      refine { hkept with signalled := fun hsignalled => (by cases hsignalled), failed := ?_ }
      rintro error ⟨⟩
      exact ⟨text, rfl, mem_processOf_last rfl⟩
  | signalsReady hpc =>
      exact { hkept with
        signalled := fun hsignalled => (by cases hsignalled)
        failed := fun error herror => (by cases herror) }
  | signal hpc =>
      exact { hkept with
        signalled := fun _ => mem_processOf_last rfl
        failed := fun error herror => (by cases herror) }
  | abort serving hpc =>
      exact { hkept with
        signalled := fun _ => hkept.signalled (by rw [hpc]; rfl)
        failed := fun error herror => (by cases herror) }
  | sendShutdown listener hpc hlistener =>
      exact { hkept with
        signalled := fun _ => hkept.signalled (by rw [hpc]; rfl)
        failed := fun error herror => (by cases herror) }
  | smtpJoined result hpc hserving =>
      rw [hsound.looping (by rw [hpc]; rfl)] at hserving
      cases hserving
  | workerJoined hpc hdelivery =>
      have hlast := hsound.sent (hsound.returned hdelivery)
      rw [hpc] at hlast
      cases hlast
  | drained hpc hdelivery =>
      exact { hkept with
        signalled := fun _ => hkept.signalled (by rw [hpc]; rfl)
        failed := fun error herror => (by cases herror) }
  | drainTimedOut hpc =>
      exact { hkept with
        signalled := fun _ => hkept.signalled (by rw [hpc]; rfl)
        failed := fun error herror => (by cases herror) }

theorem recorded_step (hsound : Sound d) (h : Recorded es d) {e : DaemonEvent}
    (hstep : Daemon.step server d e = some d') : Recorded (es ++ [e]) d' := by
  cases e with
  | listener e =>
      obtain ⟨_, l', _, rfl⟩ := daemonStep_listener.mp hstep
      exact h.keep rfl rfl rfl
  | smtpCancelled joinError =>
      rw [Daemon.step] at hstep
      split at hstep
      · obtain rfl := Option.some.inj hstep
        exact h.keep rfl rfl rfl
      · cases hstep
  | delivery e => exact recorded_delivery h (deliverySteps_of_step hstep)
  | monitor e =>
      cases monitorSteps_of_step hstep <;> exact h.keep rfl rfl rfl
  | main e => exact recorded_main hsound h (mainSteps_of_step hstep)
  | restart maxConnections config maxLen =>
      obtain ⟨l, _, rfl⟩ := daemonStep_restart.mp hstep
      exact recorded_start l _

end Record

theorem signalled_of_last {pc : MainPc} (h : pc.isLast = true) : pc.isSignalled = true := by
  cases pc with
  | draining => rfl
  | exited result =>
      cases result with
      | ok u => rfl
      | error error => cases h
  | _ => cases h

/-- With the shutdown sent, the delivery task neither connects nor waits anew. -/
theorem quiet_step {server : Server} {d d' : Daemon} (h : Sound d)
    (hshutdown : d.system.shutdown = true) {e : DaemonEvent} (he : e.isRestart = false)
    (hstep : Daemon.step server d e = some d') :
    d'.system.shutdown = true ∧
    (d'.delivery = .connecting → d.delivery = .connecting) ∧
      (d'.system.worker.isIdle = true → d.system.worker.isIdle = true) := by
  cases e with
  | listener e =>
      obtain ⟨hallows, l', hlistener, rfl⟩ := daemonStep_listener.mp hstep
      rcases system_of_allowed hallows hlistener with ⟨hsystem, _⟩ | ⟨f, hf, hsystem⟩
      · refine ⟨?_, id, ?_⟩
        · exact (congrArg System.shutdown hsystem).trans hshutdown
        · exact fun hidle => (congrArg (fun s => s.worker.isIdle) hsystem).symm.trans hidle
      · have hmoves := workerMoves_of_step hsystem hf.crash
        refine ⟨hmoves.shutdown.mpr (Or.inl hshutdown), id, fun hidle => ?_⟩
        rcases hmoves.idle hidle with ⟨hidle, _⟩ | hfalse
        · exact hidle
        · rw [hshutdown] at hfalse
          cases hfalse
  | smtpCancelled joinError =>
      rw [Daemon.step] at hstep
      split at hstep
      · obtain rfl := Option.some.inj hstep
        exact ⟨hshutdown, id, id⟩
      · cases hstep
  | delivery e =>
      cases deliverySteps_of_step hstep with
      | connect hpc hfalse =>
          rw [hshutdown] at hfalse
          cases hfalse
      | _ => exact ⟨hshutdown, fun hpc => (by cases hpc), id⟩
  | monitor e =>
      cases monitorSteps_of_step hstep <;> exact ⟨hshutdown, id, id⟩
  | main e =>
      cases mainSteps_of_step hstep with
      | sendShutdown listener hpc hlistener =>
          have hlast := h.sent hshutdown
          rw [hpc] at hlast
          cases hlast
      | _ => exact ⟨hshutdown, id, id⟩
  | restart maxConnections config maxLen => cases he

/-! ## Over whole runs -/

section Runs

variable {server : Server} {maxConnections maxLen : Nat} {config : DeliveryWorker} {db : Db}
  {es : List DaemonEvent} {d d' : Daemon}

/-- A daemon on a database that has just been opened. -/
abbrev Daemon.opened (maxConnections : Nat) (config : DeliveryWorker) (maxLen : Nat) (db : Db) :
    Daemon :=
  Daemon.start (Listener.start maxConnections (Machine.start config maxLen db))

theorem sound_of_run
    (hrun : Daemon.run server (Daemon.opened maxConnections config maxLen db) es = some d) :
    Sound d ∧ Recorded es d := by
  refine Replay.replay_invariant (I := fun es d => Sound d ∧ Recorded es d) ?_ ?_ hrun
  · exact ⟨sound_start rfl rfl, recorded_start _ _⟩
  · rintro es d e d' _ ⟨hsound, hrecorded⟩ hstep
    exact ⟨sound_step hsound hstep, recorded_step hsound hrecorded hstep⟩

/-- How a process ends, and what it needs before it delivers. -/
structure EndsOnSignal (es : List DaemonEvent) (d : Daemon) : Prop where
  ended : ∀ result, d.main = .exited result →
    (result = .ok () ∧ .main .signal ∈ processOf es) ∨
      ∃ text, result = .error (.io text) ∧ .main (.signalsFailed text) ∈ processOf es
  /-- the delivery task gives up for nothing but a signal -/
  returned : d.delivery = .returned → .main .signal ∈ processOf es
  delivered : ∀ before stored now after,
    es = before ++ .listener (.machine (.process (.deliver stored now))) :: after →
      .delivery .connected ∈ processOf before

/-- What becomes of a delivery task that waits when the shutdown is sent. -/
structure Heard (server : Server) (d : Daemon) : Prop where
  reconnect : d.delivery = .backingOff → ∃ d₁ d₂,
    Daemon.step server d (.delivery .reconnectInterrupted) = some d₁ ∧
      Daemon.step server d₁ (.delivery .look) = some d₂ ∧ d₂.delivery = .returned
  idle : d.delivery = .running → d.system.worker.isParked = true → ∃ d',
    Daemon.step server d (.listener (.machine (.process .wakeShutdown))) = some d' ∧
      d'.system.worker = .loopTop
  /-- it does not begin to connect, and does not wait again -/
  quiet : ∀ e d', e.isRestart = false → Daemon.step server d e = some d' →
    d'.system.shutdown = true ∧
    (d'.delivery = .connecting → d.delivery = .connecting) ∧
      (d'.system.worker.isIdle = true → d.system.worker.isIdle = true)

/-- **No shutdown is lost**: wherever the delivery task waits, it can hear the shutdown that
has been sent. -/
theorem shutdown_heard (server : Server) (maxConnections : Nat) (config : DeliveryWorker)
    (maxLen : Nat) (db : Db) (es : List DaemonEvent) (d : Daemon)
    (hrun : Daemon.run server (Daemon.opened maxConnections config maxLen db) es = some d)
    (hshutdown : d.system.shutdown = true) : Heard server d := by
  obtain ⟨hsound, _⟩ := sound_of_run hrun
  refine ⟨?_, ?_, ?_⟩
  · intro hpc
    have hseen := hsound.unheard (Or.inl (by rw [hpc]; rfl))
    refine ⟨{ d with delivery := .looking, seen := true }, { d with
      delivery := .returned, seen := true }, ?_, ?_, rfl⟩
    · rw [Daemon.step, Daemon.deliveryStep, if_pos ⟨hpc, hshutdown, hseen⟩]
    · rw [Daemon.step, Daemon.deliveryStep, if_pos rfl]
      dsimp only [Daemon.system] at hshutdown ⊢
      rw [if_pos hshutdown]
  · intro hpc hparked
    have hidle : d.system.worker.isIdle = true := by
      cases hworker : d.system.worker with
      | parked now wait => rfl
      | _ =>
          rw [hworker] at hparked
          cases hparked
    have hseen := hsound.unheard (Or.inr hidle)
    have hsystem : Queue.step d.system .wakeShutdown =
        some { d.system with worker := .loopTop } :=
      Queue.step_wakeShutdown.mpr ⟨⟨hparked, hshutdown⟩, rfl⟩
    have hmachine : Machine.step server d.listener.machine (.process .wakeShutdown) = some _ :=
      Smtp.machineStep_process.mpr ⟨_, rfl, hsystem, rfl⟩
    have hlistener := Smtp.listenerStep_machine.mpr ⟨_, rfl, hmachine, rfl⟩
    refine ⟨_, daemonStep_listener.mpr ⟨⟨by simp, fun _ => hpc, fun _ => hseen⟩, _, hlistener, rfl⟩,
      rfl⟩
  · exact fun e d' he hstep => quiet_step hsound hshutdown he hstep

end Runs

/-- The homeserver is down, and the daemon is told to stop. -/
def outage : List DaemonEvent :=
  [.main .signalsReady, .delivery .look, .delivery (.connectFailed (.matrix "refused".toList)),
    .main .signal, .main .abort, .main .sendShutdown]

theorem outage_heard : ∃ d, d.delivery = .backingOff ∧ Heard Smtp.smallServer d := by
  have hrun : ∃ d, Daemon.run Smtp.smallServer
      (Daemon.opened 1 { maxRetries := 3, retryBackoff := 60 } 10 Db.empty) outage = some d ∧
      d.delivery = .backingOff ∧ d.system.shutdown = true := ⟨_, rfl, rfl, rfl⟩
  obtain ⟨d, hrun, hpc, hshutdown⟩ := hrun
  exact ⟨d, hpc, shutdown_heard Smtp.smallServer 1 _ 10 _ outage d hrun hshutdown⟩

/-- It ends, as it has connected to nothing. -/
def outageEnd : List DaemonEvent :=
  outage ++ [.delivery .reconnectInterrupted, .delivery .look, .main .workerJoined]

end ChimneyPost
