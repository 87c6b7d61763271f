import ChimneyPost.Lib.History
import ChimneyPost.Smtp.Listener

/-!
# The tasks of the daemon

`main` and `run_monitor` of `src/main.rs` and `run_with_reconnect` of
`src/queue/worker.rs`, over the listener of `Smtp/Listener.lean`: from the point where all
tasks have been spawned, in any interleaving, with processes that die and start again.

* The delivery task connects, with retries, and then runs the worker; the worker's events
  can happen only then.
* The value of the watch channel is the `shutdown` of the system.  `seen` says whether the
  receiver of the delivery task has seen it change: `changed()` is ready only once.
* The monitor reads the store and writes notices for systemd and the log.
* `main` waits for a signal or the end of a task, and then for the drain.

When `main` has returned, the runtime stops its tasks one by one; until a new process
starts they may still do what they were about to do.
-/

namespace ChimneyPost

open Queue (Event DeliveryWorker Db System WorkerPc)
open Smtp (Server Machine MachineEvent Listener ListenerEvent)

/-- The task of `serve_smtp`, whose loop has no way out; its handle gives the error of the
join, or the result. -/
inductive Serving where
  | looping
  /-- `abort` has been called; the task stops at its next `await` -/
  | aborting
  | ended (result : Except Str (Except ChimneyError Unit))

def Serving.listens : Serving → Bool
  | .ended _ => false
  | _ => true

/-- Where `run_with_reconnect` is. -/
inductive DeliveryPc where
  /-- at the top of the loop -/
  | looking
  | connecting
  /-- in the `select!` after a connect that failed -/
  | backingOff
  /-- in `DeliveryWorker::run` -/
  | running
  | returned
deriving DecidableEq

/-- Where `run_monitor` is, with the values it carries across. -/
inductive MonitorPc where
  | loopTop (lastDeadLetter : Nat)
  | pinged (lastDeadLetter : Nat)
  | counted (lastDeadLetter queued : Nat)
  | sleeping (lastDeadLetter : Nat)
  | returned
deriving DecidableEq

/-- Where `main` is, after it has spawned its tasks. -/
inductive MainPc where
  /-- about to register the handler of SIGTERM -/
  | registering
  | selecting
  /-- a signal has arrived and systemd has been told -/
  | stopping
  /-- `smtp_handle.abort()` has been called -/
  | aborted
  /-- the shutdown has been sent, and the delivery task is awaited -/
  | draining
  | exited (result : Except ChimneyError Unit)

/-- What is sent to systemd, and the warnings of the monitor. -/
inductive Notice where
  | watchdog
  | status (text : Str)
  | stopping
  | deadLetter (deadLetter : Nat)
  | stalled (queued : Nat)
deriving DecidableEq

structure Daemon where
  listener : Listener
  serving : Serving
  delivery : DeliveryPc
  /-- the delivery task has seen the channel change -/
  seen : Bool
  connected : Bool
  monitor : MonitorPc
  main : MainPc
  notices : List Notice

/-- A process that has spawned its tasks. -/
def Daemon.start (listener : Listener) : Daemon where
  listener := listener
  serving := .looping
  delivery := .looking
  seen := false
  connected := false
  monitor := .loopTop 0
  main := .registering
  notices := []

inductive DeliveryEvent where
  /-- `*shutdown.borrow()` at the top of the loop -/
  | look
  | connected
  | connectFailed (error : ChimneyError)
  | reconnectElapsed
  | reconnectInterrupted
  /-- `DeliveryWorker::run` has returned -/
  | finished

inductive MonitorEvent where
  | ping
  /-- `store.len()` has answered, perhaps with an error -/
  | countQueued (ok : Bool)
  /-- `store.dead_letter_len()` has answered, perhaps with an error -/
  | countDeadLetter (ok : Bool)
  | elapsed
  | stopped
deriving DecidableEq

inductive MainEvent where
  | signalsFailed (text : Str)
  | signalsReady
  | signal
  | abort
  | sendShutdown
  /-- the handle of the SMTP task is ready -/
  | smtpJoined
  /-- the handle of the delivery task is ready -/
  | workerJoined
  | drainTimedOut

inductive DaemonEvent where
  | listener (e : ListenerEvent)
  | smtpCancelled (joinError : Str)
  | delivery (e : DeliveryEvent)
  | monitor (e : MonitorEvent)
  | main (e : MainEvent)
  /-- the process dies, or has ended, and a new one starts -/
  | restart (maxConnections : Nat) (config : DeliveryWorker) (maxLen : Nat)

/-- The events of `DeliveryWorker::run`. -/
def Queue.Event.ofWorker : Event → Bool
  | .enqueue _ _ _ => false
  | .insert _ _ _ _ _ => false
  | .refuse _ _ _ _ _ => false
  | .notify _ _ => false
  | .cancel _ => false
  | .setShutdown => false
  | .crash _ _ => false
  | _ => true

/-- The worker's events in which `shutdown.changed()` is ready. -/
def Queue.Event.hears : Event → Bool
  | .wakeShutdown => true
  | .backoffInterrupted => true
  | _ => false

def Smtp.ListenerEvent.hears : ListenerEvent → Bool
  | .machine (.process e) => e.hears
  | _ => false

/-- The status line. -/
def statusText (connected : Bool) (queued deadLetter : Nat) : Str :=
  (if connected then "connected".toList else "connecting to Matrix".toList) ++
    "; queued=".toList ++ natToStr queued ++ " dead_letter=".toList ++ natToStr deadLetter

/-- The error `main` returns when the SMTP task has ended. -/
def smtpEnded : Except Str (Except ChimneyError Unit) → ChimneyError
  | .error joinError => .smtp ("SMTP task panicked: ".toList ++ joinError)
  | .ok (.error smtpError) => smtpError
  | .ok (.ok ()) => .smtp "SMTP server exited unexpectedly".toList

namespace Daemon

abbrev system (d : Daemon) : System :=
  d.listener.machine.system

/-- Whether the tasks are at a point where this can happen. -/
def allows (d : Daemon) : ListenerEvent → Prop
  | .acceptFailed => d.serving.listens = true
  | .accept _ _ => d.serving.listens = true
  | .refuse => d.serving.listens = true
  | .restart _ _ _ => False
  | .machine (.process e) =>
      e ≠ .setShutdown ∧ (e.ofWorker = true → d.delivery = .running) ∧
        (e.hears = true → d.seen = false)
  | _ => True

instance (d : Daemon) : DecidablePred d.allows := fun e => by
  unfold allows
  split <;> infer_instance

/-- `run_with_reconnect`. -/
def deliveryStep (d : Daemon) : DeliveryEvent → Option Daemon
  | .look =>
      if d.delivery = .looking then
        some { d with delivery := if d.system.shutdown then .returned else .connecting }
      else none
  | .connected =>
      if d.delivery = .connecting then
        some { d with delivery := .running, connected := true }
      else none
  | .connectFailed _ =>
      if d.delivery = .connecting then some { d with delivery := .backingOff } else none
  | .reconnectElapsed =>
      if d.delivery = .backingOff then some { d with delivery := .looking } else none
  | .reconnectInterrupted =>
      if d.delivery = .backingOff ∧ d.system.shutdown = true ∧ d.seen = false then
        some { d with delivery := .looking, seen := true }
      else none
  | .finished =>
      if d.delivery = .running ∧ d.system.worker = .stopped then
        some { d with delivery := .returned }
      else none

/-- What the monitor says about the numbers it has read. -/
def report (connected : Bool) (lastDeadLetter queued deadLetter : Nat) : List Notice :=
  [.status (statusText connected queued deadLetter)] ++
    (if deadLetter > lastDeadLetter then [.deadLetter deadLetter] else []) ++
      if connected = false ∧ queued > 0 then [.stalled queued] else []

/-- `run_monitor`. -/
def monitorStep (d : Daemon) : MonitorEvent → Option Daemon
  | .ping =>
      match d.monitor with
      | .loopTop last =>
          some { d with monitor := .pinged last, notices := d.notices ++ [.watchdog] }
      | _ => none
  | .countQueued ok =>
      match d.monitor with
      | .pinged last =>
          some { d with
            monitor := .counted last (if ok then Queue.MessageStore.len d.system.db else 0) }
      | _ => none
  | .countDeadLetter ok =>
      match d.monitor with
      | .counted last queued =>
          let deadLetter := if ok then Queue.MessageStore.deadLetterLen d.system.db else 0
          some { d with
            monitor := .sleeping deadLetter
            notices := d.notices ++ report d.connected last queued deadLetter }
      | _ => none
  | .elapsed =>
      match d.monitor with
      | .sleeping last => some { d with monitor := .loopTop last }
      | _ => none
  | .stopped =>
      match d.monitor with
      | .sleeping _ =>
          if d.system.shutdown = true then some { d with monitor := .returned } else none
      | _ => none

/-- `main`, after it has spawned its tasks. -/
def mainStep (server : Server) (d : Daemon) : MainEvent → Option Daemon
  | .signalsFailed text =>
      match d.main with
      | .registering => some { d with main := .exited (.error (.io text)) }
      | _ => none
  | .signalsReady =>
      match d.main with
      | .registering => some { d with main := .selecting }
      | _ => none
  | .signal =>
      match d.main with
      | .selecting => some { d with main := .stopping, notices := d.notices ++ [.stopping] }
      | _ => none
  | .abort =>
      match d.main with
      | .stopping =>
          some { d with
            main := .aborted
            serving :=
              match d.serving with
              | .looping => .aborting
              | serving => serving }
      | _ => none
  | .sendShutdown =>
      match d.main with
      | .aborted =>
          (Listener.step server d.listener (.machine (.process .setShutdown))).map
            fun listener => { d with listener := listener, main := .draining }
      | _ => none
  | .smtpJoined =>
      match d.main, d.serving with
      | .selecting, .ended result => some { d with main := .exited (.error (smtpEnded result)) }
      | _, _ => none
  | .workerJoined =>
      if d.delivery = .returned then
        match d.main with
        | .selecting =>
            some { d with
              main := .exited (.error (.matrix "delivery worker exited unexpectedly".toList)) }
        | .draining => some { d with main := .exited (.ok ()) }
        | _ => none
      else none
  | .drainTimedOut =>
      match d.main with
      | .draining => some { d with main := .exited (.ok ()) }
      | _ => none

/-- One event; `none` when it cannot happen. -/
def step (server : Server) (d : Daemon) : DaemonEvent → Option Daemon
  | .listener e =>
      if d.allows e then
        (Listener.step server d.listener e).map fun listener =>
          { d with listener := listener, seen := d.seen || e.hears }
      else none
  | .smtpCancelled joinError =>
      match d.serving with
      | .aborting => some { d with serving := .ended (.error joinError) }
      | _ => none
  | .delivery e => d.deliveryStep e
  | .monitor e => d.monitorStep e
  | .main e => d.mainStep server e
  | .restart maxConnections config maxLen =>
      (Listener.step server d.listener (.restart maxConnections config maxLen)).map Daemon.start

/-- The state a run reaches. -/
abbrev run (server : Server) (d : Daemon) (es : List DaemonEvent) : Option Daemon :=
  Replay.replay (step server) d es

end Daemon

/-! ## What each event does -/

section Steps

variable {server : Server} {d d' : Daemon}

theorem daemonStep_listener {e : ListenerEvent} :
    Daemon.step server d (.listener e) = some d' ↔
      d.allows e ∧ ∃ listener, Listener.step server d.listener e = some listener ∧
        d' = { d with listener := listener, seen := d.seen || e.hears } := by
  rw [Daemon.step]
  constructor
  · intro h
    split_ifs at h with hallows
    obtain ⟨listener, hlistener, rfl⟩ := Option.map_eq_some_iff.mp h
    exact ⟨hallows, listener, hlistener, rfl⟩
  · rintro ⟨hallows, listener, hlistener, rfl⟩
    rw [if_pos hallows, hlistener, Option.map_some]

theorem daemonStep_restart {maxConnections maxLen : Nat} {config : DeliveryWorker} :
    Daemon.step server d (.restart maxConnections config maxLen) = some d' ↔
      ∃ listener, Listener.step server d.listener (.restart maxConnections config maxLen) =
        some listener ∧ d' = Daemon.start listener := by
  rw [Daemon.step, Option.map_eq_some_iff]
  exact exists_congr fun listener => and_congr_right fun _ => eq_comm

/-- What `run_with_reconnect` can do. -/
inductive DeliverySteps (d : Daemon) : DeliveryEvent → Daemon → Prop
  | leave (hpc : d.delivery = .looking) (hshutdown : d.system.shutdown = true) :
      DeliverySteps d .look { d with delivery := .returned }
  | connect (hpc : d.delivery = .looking) (hshutdown : d.system.shutdown = false) :
      DeliverySteps d .look { d with delivery := .connecting }
  | connected (hpc : d.delivery = .connecting) :
      DeliverySteps d .connected { d with delivery := .running, connected := true }
  | connectFailed (error : ChimneyError) (hpc : d.delivery = .connecting) :
      DeliverySteps d (.connectFailed error) { d with delivery := .backingOff }
  | reconnectElapsed (hpc : d.delivery = .backingOff) :
      DeliverySteps d .reconnectElapsed { d with delivery := .looking }
  | reconnectInterrupted (hpc : d.delivery = .backingOff) (hshutdown : d.system.shutdown = true)
      (hseen : d.seen = false) :
      DeliverySteps d .reconnectInterrupted { d with delivery := .looking, seen := true }
  | finished (hpc : d.delivery = .running) (hworker : d.system.worker = .stopped) :
      DeliverySteps d .finished { d with delivery := .returned }

theorem deliverySteps_of_step {e : DeliveryEvent} (h : d.deliveryStep e = some d') :
    DeliverySteps d e d' := by
  cases e with
  | look =>
      obtain ⟨hpc, rfl⟩ := Replay.guarded_eq_some.mp h
      cases hshutdown : d.system.shutdown with
      | true => exact .leave hpc hshutdown
      | false => exact .connect hpc hshutdown
  | connected =>
      obtain ⟨hpc, rfl⟩ := Replay.guarded_eq_some.mp h
      exact .connected hpc
  | connectFailed error =>
      obtain ⟨hpc, rfl⟩ := Replay.guarded_eq_some.mp h
      exact .connectFailed error hpc
  | reconnectElapsed =>
      obtain ⟨hpc, rfl⟩ := Replay.guarded_eq_some.mp h
      exact .reconnectElapsed hpc
  | reconnectInterrupted =>
      obtain ⟨⟨hpc, hshutdown, hseen⟩, rfl⟩ := Replay.guarded_eq_some.mp h
      exact .reconnectInterrupted hpc hshutdown hseen
  | finished =>
      obtain ⟨⟨hpc, hworker⟩, rfl⟩ := Replay.guarded_eq_some.mp h
      exact .finished hpc hworker

/-- What `run_monitor` can do. -/
inductive MonitorSteps (d : Daemon) : MonitorEvent → Daemon → Prop
  | ping (last : Nat) (hpc : d.monitor = .loopTop last) :
      MonitorSteps d .ping { d with monitor := .pinged last, notices := d.notices ++ [.watchdog] }
  | countQueued (ok : Bool) (last : Nat) (hpc : d.monitor = .pinged last) :
      MonitorSteps d (.countQueued ok) { d with
        monitor := .counted last (if ok then Queue.MessageStore.len d.system.db else 0) }
  | countDeadLetter (ok : Bool) (last queued deadLetter : Nat)
      (hpc : d.monitor = .counted last queued)
      (hread : deadLetter = if ok then Queue.MessageStore.deadLetterLen d.system.db else 0) :
      MonitorSteps d (.countDeadLetter ok) { d with
        monitor := .sleeping deadLetter
        notices := d.notices ++ Daemon.report d.connected last queued deadLetter }
  | elapsed (last : Nat) (hpc : d.monitor = .sleeping last) :
      MonitorSteps d .elapsed { d with monitor := .loopTop last }
  | stopped (last : Nat) (hpc : d.monitor = .sleeping last)
      (hshutdown : d.system.shutdown = true) :
      MonitorSteps d .stopped { d with monitor := .returned }

theorem monitorSteps_of_step {e : MonitorEvent} (h : d.monitorStep e = some d') :
    MonitorSteps d e d' := by
  cases hpc : d.monitor with
  | loopTop last =>
      cases e with
      | ping =>
          rw [Daemon.monitorStep, hpc] at h
          obtain rfl := Option.some.inj h
          exact .ping last hpc
      | _ => simp [Daemon.monitorStep, hpc] at h
  | pinged last =>
      cases e with
      | countQueued ok =>
          rw [Daemon.monitorStep, hpc] at h
          obtain rfl := Option.some.inj h
          exact .countQueued ok last hpc
      | _ => simp [Daemon.monitorStep, hpc] at h
  | counted last queued =>
      cases e with
      | countDeadLetter ok =>
          rw [Daemon.monitorStep, hpc] at h
          obtain rfl := Option.some.inj h
          exact .countDeadLetter ok last queued _ hpc rfl
      | _ => simp [Daemon.monitorStep, hpc] at h
  | sleeping last =>
      cases e with
      | elapsed =>
          rw [Daemon.monitorStep, hpc] at h
          obtain rfl := Option.some.inj h
          exact .elapsed last hpc
      | stopped =>
          rw [Daemon.monitorStep, hpc] at h
          obtain ⟨hshutdown, rfl⟩ := Replay.guarded_eq_some.mp h
          exact .stopped last hpc hshutdown
      | _ => simp [Daemon.monitorStep, hpc] at h
  | returned =>
      cases e <;> simp [Daemon.monitorStep, hpc] at h

/-- What `main` can do. -/
inductive MainSteps (server : Server) (d : Daemon) : MainEvent → Daemon → Prop
  | signalsFailed (text : Str) (hpc : d.main = .registering) :
      MainSteps server d (.signalsFailed text) { d with main := .exited (.error (.io text)) }
  | signalsReady (hpc : d.main = .registering) :
      MainSteps server d .signalsReady { d with main := .selecting }
  | signal (hpc : d.main = .selecting) :
      MainSteps server d .signal
        { d with main := .stopping, notices := d.notices ++ [.stopping] }
  | abort (serving : Serving) (hpc : d.main = .stopping) :
      MainSteps server d .abort { d with main := .aborted, serving := serving }
  | sendShutdown (listener : Listener) (hpc : d.main = .aborted)
      (hlistener : Listener.step server d.listener (.machine (.process .setShutdown)) =
        some listener) :
      MainSteps server d .sendShutdown { d with listener := listener, main := .draining }
  | smtpJoined (result : Except Str (Except ChimneyError Unit)) (hpc : d.main = .selecting)
      (hserving : d.serving = .ended result) :
      MainSteps server d .smtpJoined { d with main := .exited (.error (smtpEnded result)) }
  | workerJoined (hpc : d.main = .selecting) (hdelivery : d.delivery = .returned) :
      MainSteps server d .workerJoined { d with
        main := .exited (.error (.matrix "delivery worker exited unexpectedly".toList)) }
  | drained (hpc : d.main = .draining) (hdelivery : d.delivery = .returned) :
      MainSteps server d .workerJoined { d with main := .exited (.ok ()) }
  | drainTimedOut (hpc : d.main = .draining) :
      MainSteps server d .drainTimedOut { d with main := .exited (.ok ()) }

theorem mainSteps_of_step {e : MainEvent} (h : d.mainStep server e = some d') :
    MainSteps server d e d' := by
  cases hpc : d.main with
  | registering =>
      cases e with
      | signalsFailed text =>
          rw [Daemon.mainStep, hpc] at h
          obtain rfl := Option.some.inj h
          exact .signalsFailed text hpc
      | signalsReady =>
          rw [Daemon.mainStep, hpc] at h
          obtain rfl := Option.some.inj h
          exact .signalsReady hpc
      | _ => simp [Daemon.mainStep, hpc] at h
  | selecting =>
      cases e with
      | signal =>
          rw [Daemon.mainStep, hpc] at h
          obtain rfl := Option.some.inj h
          exact .signal hpc
      | smtpJoined =>
          rw [Daemon.mainStep, hpc] at h
          cases hserving : d.serving with
          | ended result =>
              rw [hserving] at h
              obtain rfl := Option.some.inj h
              rw [← hserving]
              exact .smtpJoined result hpc hserving
          | _ =>
              rw [hserving] at h
              cases h
      | workerJoined =>
          rw [Daemon.mainStep, hpc] at h
          obtain ⟨hdelivery, rfl⟩ := Replay.guarded_eq_some.mp h
          exact .workerJoined hpc hdelivery
      | _ => simp [Daemon.mainStep, hpc] at h
  | stopping =>
      cases e with
      | abort =>
          rw [Daemon.mainStep, hpc] at h
          obtain rfl := Option.some.inj h
          exact .abort _ hpc
      | _ => simp [Daemon.mainStep, hpc] at h
  | aborted =>
      cases e with
      | sendShutdown =>
          rw [Daemon.mainStep, hpc] at h
          obtain ⟨listener, hlistener, rfl⟩ := Option.map_eq_some_iff.mp h
          exact .sendShutdown listener hpc hlistener
      | _ => simp [Daemon.mainStep, hpc] at h
  | draining =>
      cases e with
      | workerJoined =>
          rw [Daemon.mainStep, hpc] at h
          obtain ⟨hdelivery, rfl⟩ := Replay.guarded_eq_some.mp h
          exact .drained hpc hdelivery
      | drainTimedOut =>
          rw [Daemon.mainStep, hpc] at h
          obtain rfl := Option.some.inj h
          exact .drainTimedOut hpc
      | _ => simp [Daemon.mainStep, hpc] at h
  | exited result =>
      cases e <;> simp [Daemon.mainStep, hpc] at h

end Steps

/-! ## The listener goes its way -/

/-- What an event of the daemon is for the listener. -/
def DaemonEvent.seen : DaemonEvent → Option ListenerEvent
  | .listener e => some e
  | .main .sendShutdown => some (.machine (.process .setShutdown))
  | .restart maxConnections config maxLen => some (.restart maxConnections config maxLen)
  | _ => none

section Runs

variable {server : Server} {d d' : Daemon}

theorem daemon_seen {e : DaemonEvent} (h : Daemon.step server d e = some d') :
    Listener.run server d.listener e.seen.toList = some d'.listener := by
  cases e with
  | listener e =>
      obtain ⟨_, listener, hlistener, rfl⟩ := daemonStep_listener.mp h
      exact Replay.replay_cons_eq_some.mpr ⟨listener, hlistener, rfl⟩
  | smtpCancelled joinError =>
      rw [Daemon.step] at h
      split at h
      · obtain rfl := Option.some.inj h
        rfl
      · cases h
  | delivery e =>
      cases deliverySteps_of_step h <;> rfl
  | monitor e =>
      cases monitorSteps_of_step h <;> rfl
  | main e =>
      cases mainSteps_of_step h with
      | sendShutdown listener hpc hlistener =>
          exact Replay.replay_cons_eq_some.mpr ⟨listener, hlistener, rfl⟩
      | _ => rfl
  | restart maxConnections config maxLen =>
      obtain ⟨listener, hlistener, rfl⟩ := daemonStep_restart.mp h
      exact Replay.replay_cons_eq_some.mpr ⟨listener, hlistener, rfl⟩

/-- Behind the daemon there is a run of the listener, and so one of the machine. -/
theorem listener_of_daemon {maxConnections maxLen : Nat} {config : DeliveryWorker} {db : Db}
    {es : List DaemonEvent}
    (hrun : Daemon.run server (Daemon.start
      (Listener.start maxConnections (Machine.start config maxLen db))) es = some d) :
    Listener.run server (Listener.start maxConnections (Machine.start config maxLen db))
      (es.filterMap DaemonEvent.seen) = some d.listener := by
  refine Replay.replay_invariant (I := fun es d => Listener.run server
    (Listener.start maxConnections (Machine.start config maxLen db))
      (es.filterMap DaemonEvent.seen) = some d.listener) ?_ ?_ hrun
  · rfl
  · intro es d e d' _ h hstep
    have hseen := daemon_seen hstep
    have hlist : (es ++ [e]).filterMap DaemonEvent.seen =
        es.filterMap DaemonEvent.seen ++ e.seen.toList := by
      rw [List.filterMap_append]
      cases h : e.seen with
      | none => simp [h]
      | some seen => simp [h]
    rw [hlist]
    exact Replay.replay_append_eq_some.mpr ⟨_, h, hseen⟩

end Runs

end ChimneyPost
