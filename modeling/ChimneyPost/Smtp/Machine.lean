import ChimneyPost.Lib.WriteAhead
import ChimneyPost.Queue.Conservation
import ChimneyPost.Smtp.Session

/-!
# The machine

SMTP sessions, the store, the delivery worker and the database file together.  The
sessions are those of `handle_connection`, the process is the system of
`Queue/System.lean`, and the file is a write-ahead log of the changes the process
commits.

A session works through its turns on its own.  A turn that comes to `store.enqueue`
spawns the closure (`call`) and waits; the result of the call is the result of the
turn, which goes on to its reply (`answer`).  A session that is dropped by its deadline
or by a failed write just ends, at whatever point it is.
-/

namespace ChimneyPost
namespace Smtp

open Queue (System Event EnqueueTask Change DeliveryWorker Db Message)
open WriteAhead (Log Synchronous Reopened)

/-- What the `DATA` turn of a session is waiting for. -/
inductive Call where
  | idle
  /-- `store.enqueue` has been called -/
  | pending (message : Message)
  /-- the call has returned -/
  | returned (message : Message) (result : Except ChimneyError Int)
deriving DecidableEq

def Call.message : Call → Option Message
  | .idle => none
  | .pending message => some message
  | .returned message _ => some message

def Call.isPending : Call → Bool
  | .pending _ => true
  | _ => false

def Call.return (result : Except ChimneyError Int) : Call → Call
  | .pending message => .returned message result
  | call => call

structure Machine where
  system : System
  log : Log Db Change
  sessions : Nat → Option Conversation
  calls : Nat → Call

/-- A machine whose one process has just opened the database. -/
def Machine.start (config : DeliveryWorker) (maxLen : Nat) (db : Db) : Machine where
  system := System.start config maxLen db
  log := Log.opened db
  sessions := fun _ => none
  calls := fun _ => .idle

inductive MachineEvent where
  /-- a connection is accepted and greeted -/
  | connect (t : Nat) (reader : Reader)
  /-- a turn that does not come to the store -/
  | turn (t : Nat)
  /-- a turn up to `store.enqueue` -/
  | call (t : Nat) (message : Message) (createdAt : Int)
  /-- the rest of that turn, with the reply to the block -/
  | answer (t : Nat) (message : Message) (result : Except ChimneyError Int)
  /-- session `t` ends outside of `store.enqueue` -/
  | leave (t : Nat)
  /-- an event of the store's closures and their callers or of the worker -/
  | process (e : Event)
  | checkpoint
deriving DecidableEq

/-- The message a session event passes to the store. -/
def SessionEvent.passed : SessionEvent → Option Message
  | .enqueue message _ => some message
  | _ => none

/-- The message the next turn of a conversation passes to the store, if it does. -/
def Server.passes (server : Server) (c : Conversation) : Option Message :=
  c.session.bind fun s =>
    -- no turn looks at the result of the call before the call
    (server.pass (.error .queueFull) s).events.findSome? SessionEvent.passed

/-- What the return of `store.enqueue` and the end of its caller do to the calls. -/
def Event.callsAfter (calls : Nat → Call) : Event → Nat → Call
  | .notify t id => Function.update calls t ((calls t).return (.ok id))
  | .refuse t _ _ live error =>
      if live then Function.update calls t ((calls t).return (.error error)) else calls
  | .cancel t => Function.update calls t .idle
  | .crash _ _ => fun _ => .idle
  | _ => calls

def Event.sessionsAfter (sessions : Nat → Option Conversation) :
    Event → Nat → Option Conversation
  | .cancel t => Function.update sessions t none
  | .crash _ _ => fun _ => none
  | _ => sessions

/-- A call of `store.enqueue`, which is a session's to make. -/
def Event.isCall : Event → Bool
  | .enqueue _ _ _ => true
  | _ => false

namespace Machine

variable (server : Server)

/-- One event; `none` when it cannot happen. -/
def step (m : Machine) : MachineEvent → Option Machine
  | .connect t reader =>
      if m.sessions t = none then
        some { m with sessions := Function.update m.sessions t (some (Server.start reader)) }
      else
        none
  | .turn t =>
      (m.sessions t).bind fun c =>
        if m.calls t = .idle ∧ server.passes c = none then
          (server.step c (.error .queueFull)).map fun c' =>
            { m with sessions := Function.update m.sessions t (some c') }
        else
          none
  | .call t message createdAt =>
      (m.sessions t).bind fun c =>
        if m.calls t = .idle ∧ server.passes c = some message then
          (Queue.step m.system (.enqueue t message createdAt)).map fun system =>
            { m with
              system := system
              calls := Function.update m.calls t (.pending message) }
        else
          none
  | .answer t message result =>
      (m.sessions t).bind fun c =>
        if m.calls t = .returned message result then
          (server.step c result).map fun c' =>
            { m with
              sessions := Function.update m.sessions t (some c')
              calls := Function.update m.calls t .idle }
        else
          none
  | .leave t =>
      if (m.calls t).isPending = false then
        some { m with
          sessions := Function.update m.sessions t none
          calls := Function.update m.calls t .idle }
      else
        none
  | .process e =>
      if Event.isCall e then
        none
      else
        (Queue.step m.system e).map fun system =>
          { system := system
            log := m.log.commit e.change
            sessions := Event.sessionsAfter m.sessions e
            calls := Event.callsAfter m.calls e }
  | .checkpoint =>
      some { m with log := m.log.checkpoint Change.apply }

/-- The state a run of the machine reaches. -/
abbrev run (m : Machine) (es : List MachineEvent) : Option Machine :=
  Replay.replay (step server) m es

end Machine

/-! ## What each event does -/

section Steps

variable {server : Server} {m m' : Machine} {t : Nat}

theorem machineStep_connect {reader : Reader} :
    Machine.step server m (.connect t reader) = some m' ↔
      m.sessions t = none ∧
      m' = { m with sessions := Function.update m.sessions t (some (Server.start reader)) } := by
  exact Replay.guarded_eq_some

theorem machineStep_turn :
    Machine.step server m (.turn t) = some m' ↔
      ∃ c c', m.sessions t = some c ∧ m.calls t = .idle ∧ server.passes c = none ∧
        server.step c (.error .queueFull) = some c' ∧
        m' = { m with sessions := Function.update m.sessions t (some c') } := by
  rw [Machine.step, Option.bind_eq_some_iff]
  constructor
  · rintro ⟨c, hc, hstep⟩
    split_ifs at hstep with hguard
    obtain ⟨c', hc', rfl⟩ := Option.map_eq_some_iff.mp hstep
    exact ⟨c, c', hc, hguard.1, hguard.2, hc', rfl⟩
  · rintro ⟨c, c', hc, hidle, hpasses, hc', rfl⟩
    exact ⟨c, hc, by rw [if_pos ⟨hidle, hpasses⟩, hc', Option.map_some]⟩

theorem machineStep_call {message : Message} {createdAt : Int} :
    Machine.step server m (.call t message createdAt) = some m' ↔
      ∃ c system, m.sessions t = some c ∧ m.calls t = .idle ∧
        server.passes c = some message ∧
        Queue.step m.system (.enqueue t message createdAt) = some system ∧
        m' = { m with
          system := system
          calls := Function.update m.calls t (.pending message) } := by
  rw [Machine.step, Option.bind_eq_some_iff]
  constructor
  · rintro ⟨c, hc, hstep⟩
    split_ifs at hstep with hguard
    obtain ⟨system, hsystem, rfl⟩ := Option.map_eq_some_iff.mp hstep
    exact ⟨c, system, hc, hguard.1, hguard.2, hsystem, rfl⟩
  · rintro ⟨c, system, hc, hidle, hpasses, hsystem, rfl⟩
    exact ⟨c, hc, by rw [if_pos ⟨hidle, hpasses⟩, hsystem, Option.map_some]⟩

theorem machineStep_answer {message : Message} {result : Except ChimneyError Int} :
    Machine.step server m (.answer t message result) = some m' ↔
      ∃ c c', m.sessions t = some c ∧ m.calls t = .returned message result ∧
        server.step c result = some c' ∧
        m' = { m with
          sessions := Function.update m.sessions t (some c')
          calls := Function.update m.calls t .idle } := by
  rw [Machine.step, Option.bind_eq_some_iff]
  constructor
  · rintro ⟨c, hc, hstep⟩
    split_ifs at hstep with hguard
    obtain ⟨c', hc', rfl⟩ := Option.map_eq_some_iff.mp hstep
    exact ⟨c, c', hc, hguard, hc', rfl⟩
  · rintro ⟨c, c', hc, hreturned, hc', rfl⟩
    exact ⟨c, hc, by rw [if_pos hreturned, hc', Option.map_some]⟩

theorem machineStep_leave :
    Machine.step server m (.leave t) = some m' ↔
      (m.calls t).isPending = false ∧
      m' = { m with
        sessions := Function.update m.sessions t none
        calls := Function.update m.calls t .idle } := by
  exact Replay.guarded_eq_some

theorem machineStep_process {e : Event} :
    Machine.step server m (.process e) = some m' ↔
      ∃ system, Event.isCall e = false ∧ Queue.step m.system e = some system ∧
        m' =
          { system := system
            log := m.log.commit e.change
            sessions := Event.sessionsAfter m.sessions e
            calls := Event.callsAfter m.calls e } := by
  rw [Machine.step]
  constructor
  · intro hstep
    split_ifs at hstep with hcall
    obtain ⟨system, hsystem, rfl⟩ := Option.map_eq_some_iff.mp hstep
    exact ⟨system, Bool.eq_false_iff.mpr hcall, hsystem, rfl⟩
  · rintro ⟨system, hcall, hsystem, rfl⟩
    rw [if_neg (Bool.eq_false_iff.mp hcall), hsystem, Option.map_some]

theorem machineStep_checkpoint :
    Machine.step server m .checkpoint = some m' ↔
      m' = { m with log := m.log.checkpoint Change.apply } := by
  rw [Machine.step, Option.some.injEq, eq_comm]

end Steps

/-! ## The process and its file -/

/-- What the process sees of an event of the machine. -/
def MachineEvent.seen : MachineEvent → Option Event
  | .call t message createdAt => some (.enqueue t message createdAt)
  | .process e => some e
  | _ => none

/-- What the process sees of a run. -/
def processEvents (es : List MachineEvent) : List Event :=
  es.filterMap MachineEvent.seen

theorem processEvents_concat (es : List MachineEvent) (e : MachineEvent) :
    processEvents (es ++ [e]) = processEvents es ++ e.seen.toList := by
  rw [processEvents, List.filterMap_append]
  cases h : e.seen with
  | none => simp [processEvents, h]
  | some seen => simp [processEvents, h]

section Runs

variable {server : Server} {config : DeliveryWorker} {maxLen : Nat} {db : Db}
  {es : List MachineEvent} {m m' : Machine}

/-- An event of the machine is an event of its process, or none. -/
theorem seen_step {e : MachineEvent} (h : Machine.step server m e = some m') :
    Queue.run m.system e.seen.toList = some m'.system := by
  cases e with
  | connect t reader =>
      obtain ⟨_, rfl⟩ := machineStep_connect.mp h
      rfl
  | turn t =>
      obtain ⟨c, c', _, _, _, _, rfl⟩ := machineStep_turn.mp h
      rfl
  | call t message createdAt =>
      obtain ⟨c, system, _, _, _, hsystem, rfl⟩ := machineStep_call.mp h
      rw [MachineEvent.seen, Option.toList_some, Queue.run, Replay.replay_cons, hsystem]
      rfl
  | answer t message result =>
      obtain ⟨c, c', _, _, _, rfl⟩ := machineStep_answer.mp h
      rfl
  | leave t =>
      obtain ⟨_, rfl⟩ := machineStep_leave.mp h
      rfl
  | process e =>
      obtain ⟨system, _, hsystem, rfl⟩ := machineStep_process.mp h
      rw [MachineEvent.seen, Option.toList_some, Queue.run, Replay.replay_cons, hsystem]
      rfl
  | checkpoint =>
      obtain rfl := machineStep_checkpoint.mp h
      rfl

/-- The process runs as one that has the machine to itself. -/
theorem process_runs (hrun : Machine.run server (Machine.start config maxLen db) es = some m) :
    Queue.run (System.start config maxLen db) (processEvents es) = some m.system := by
  refine Replay.replay_invariant (I := fun es m =>
    Queue.run (System.start config maxLen db) (processEvents es) = some m.system) ?_ ?_ hrun
  · rfl
  · intro es m e m' _ hI hstep
    rw [processEvents_concat]
    exact Replay.replay_append_eq_some.mpr ⟨_, hI, seen_step hstep⟩

/-- The process sees the contents of its file. -/
theorem log_contents (hrun : Machine.run server (Machine.start config maxLen db) es = some m) :
    m.log.contents Change.apply = m.system.db := by
  refine Replay.replay_invariant (I := fun _ m =>
    m.log.contents Change.apply = m.system.db) ?_ ?_ hrun
  · rfl
  · intro es m e m' _ hI hstep
    cases e with
    | connect t reader =>
        obtain ⟨_, rfl⟩ := machineStep_connect.mp hstep
        exact hI
    | turn t =>
        obtain ⟨c, c', _, _, _, _, rfl⟩ := machineStep_turn.mp hstep
        exact hI
    | call t message createdAt =>
        obtain ⟨c, system, _, _, _, hsystem, rfl⟩ := machineStep_call.mp hstep
        rw [Queue.step_db hsystem]
        exact hI
    | answer t message result =>
        obtain ⟨c, c', _, _, _, rfl⟩ := machineStep_answer.mp hstep
        exact hI
    | leave t =>
        obtain ⟨_, rfl⟩ := machineStep_leave.mp hstep
        exact hI
    | process e =>
        obtain ⟨system, _, hsystem, rfl⟩ := machineStep_process.mp hstep
        rw [Queue.step_db hsystem, WriteAhead.Log.contents_commit, hI]
    | checkpoint =>
        obtain rfl := machineStep_checkpoint.mp hstep
        exact hI

end Runs

/-! ## The sessions and their calls -/

section Sessions

variable {server : Server} {result result' : Except ChimneyError Int} {s : Session}

theorem passed_receive (server : Server) (result result' : Except ChimneyError Int) (line : Str)
    (s : Session) :
    (server.receive result line s).events.findSome? SessionEvent.passed =
      (server.receive result' line s).events.findSome? SessionEvent.passed := by
  unfold Server.receive
  split
  · rfl
  · rfl
  · rfl

/-- Only a `DATA` command with an envelope comes to the store. -/
theorem interpret_result {server : Server} {line : Str}
    (h : ¬ (keyword line = "DATA".toList ∧ s.acceptsData = true)) :
    server.interpret result line s = server.interpret result' line s := by
  rw [Server.interpret, Server.interpret]
  iterate 7 refine ite_congr rfl (fun _ => rfl) fun _ => ?_
  by_cases hdata : keyword line = "DATA".toList
  · have haccepts : ¬ s.acceptsData = true := fun haccepts => h ⟨hdata, haccepts⟩
    rw [if_pos hdata, if_pos hdata, if_neg haccepts, if_neg haccepts]
  · rw [if_neg hdata, if_neg hdata]

/-- The message of a turn is settled before its result. -/
theorem passed_pass (server : Server) (result result' : Except ChimneyError Int) (s : Session) :
    (server.pass result s).events.findSome? SessionEvent.passed =
      (server.pass result' s).events.findSome? SessionEvent.passed := by
  rw [Server.pass.eq_def, Server.pass.eq_def]
  split
  · rfl
  · rfl
  · rfl
  · next bytes buffer reader hread =>
      dsimp only
      split_ifs
      · rfl
      · rfl
      · by_cases hdata : keyword (trimEndMatches ['\r', '\n'] buffer) = "DATA".toList ∧
            ({ s with reader := reader } : Session).acceptsData = true
        · rw [interpret_data hdata.1 hdata.2, interpret_data hdata.1 hdata.2]
          exact passed_receive server result result' _ _
        · rw [interpret_result hdata]

theorem passed_of_isClosing {e : SessionEvent} (h : e.isClosing = true) : e.passed = none := by
  cases e <;> first | rfl | cases h

/-- A turn that passes a message to the store replies to the block by the result. -/
theorem events_of_passed {message : Message}
    (h : (server.pass result s).events.findSome? SessionEvent.passed = some message) :
    ∃ line data reply, (server.pass result s).events =
        [.command line .startData, .block data, .enqueue message result, .answer reply] ∧
      ((reply = .ok ∧ ∃ id, result = .ok id) ∨
        (reply = .localError ∧ ∃ error, result = .error error)) := by
  have hpass := pass_passes server result s
  generalize server.pass result s = c at h hpass
  cases hpass with
  | ended events hclosing =>
      have hnone : events.findSome? SessionEvent.passed = none := by
        rw [List.findSome?_eq_none_iff]
        intro e he
        exact passed_of_isClosing (hclosing e he)
      rw [hnone] at h
      cases h
  | stored line data s' reader reply hreads hkeyword haccepts hdata hreply =>
      obtain rfl := Option.some.inj h
      exact ⟨line, data, reply, rfl, hreply⟩
  | _ => cases h

/-- The call of session `t`, its closure and the session itself belong together. -/
structure CallMatches (server : Server) (es : List MachineEvent) (t : Nat)
    (task : EnqueueTask) (call : Call) (session : Option Conversation) : Prop where
  /-- what has been called for is what the session's turn passes on -/
  passes : ∀ message, call.message = some message →
    ∃ c, session = some c ∧ server.passes c = some message
  awaiting : ∀ message createdAt, task = .awaiting message createdAt true →
    call = .pending message
  committed : ∀ id, task = .committed id →
    ∃ message createdAt, call = .pending message ∧
      .process (.insert t message createdAt true id) ∈ es
  /-- an id that has been returned was handed out for this message -/
  inserted : ∀ message id, call = .returned message (.ok id) →
    ∃ createdAt, .process (.insert t message createdAt true id) ∈ es

def CallsMatch (server : Server) (es : List MachineEvent) (m : Machine) : Prop :=
  ∀ t, CallMatches server es t (m.system.tasks t) (m.calls t) (m.sessions t)

section Calls

variable {es : List MachineEvent} {e : MachineEvent} {m m' : Machine} {t : Nat}
  {task : EnqueueTask} {call : Call} {session : Option Conversation}

theorem CallMatches.concat (h : CallMatches server es t task call session) :
    CallMatches server (es ++ [e]) t task call session := by
  refine ⟨h.passes, h.awaiting, ?_, ?_⟩
  · intro id htask
    obtain ⟨message, createdAt, hcall, hmem⟩ := h.committed id htask
    exact ⟨message, createdAt, hcall, List.mem_append_left _ hmem⟩
  · intro message id hcall
    obtain ⟨createdAt, hmem⟩ := h.inserted message id hcall
    exact ⟨createdAt, List.mem_append_left _ hmem⟩

/-- A session with no call and no live closure has nothing to match. -/
theorem callMatches_idle (hlive : task.live = false) :
    CallMatches server es t task .idle session := by
  constructor
  · intro message hcall
    cases hcall
  · rintro message createdAt rfl
    cases hlive
  · rintro id rfl
    cases hlive
  · intro message id hcall
    cases hcall

/-- A call that is not pending has no live closure. -/
theorem CallMatches.not_live (h : CallMatches server es t task call session)
    (hpending : call.isPending = false) : task.live = false := by
  cases task with
  | idle => rfl
  | awaiting message createdAt live =>
      cases live with
      | false => rfl
      | true =>
          rw [h.awaiting message createdAt rfl] at hpending
          cases hpending
  | committed id =>
      obtain ⟨message, createdAt, rfl, _⟩ := h.committed id rfl
      cases hpending

/-- An event that concerns one session. -/
theorem CallsMatch.update (h : CallsMatch server es m) (t : Nat)
    (hother : ∀ u, u ≠ t → m'.system.tasks u = m.system.tasks u ∧
      m'.calls u = m.calls u ∧ m'.sessions u = m.sessions u)
    (hself : CallMatches server (es ++ [e]) t (m'.system.tasks t) (m'.calls t)
      (m'.sessions t)) :
    CallsMatch server (es ++ [e]) m' := by
  intro u
  by_cases hu : u = t
  · subst hu
    exact hself
  · obtain ⟨htask, hcall, hsession⟩ := hother u hu
    rw [htask, hcall, hsession]
    exact (h u).concat

/-- An event that concerns no session. -/
theorem CallsMatch.keep (h : CallsMatch server es m)
    (htasks : m'.system.tasks = m.system.tasks) (hcalls : m'.calls = m.calls)
    (hsessions : m'.sessions = m.sessions) : CallsMatch server (es ++ [e]) m' := by
  intro u
  rw [htasks, hcalls, hsessions]
  exact (h u).concat

theorem callsMatch_process {e : Event} (h : CallsMatch server es m)
    (hstep : Machine.step server m (.process e) = some m') :
    CallsMatch server (es ++ [.process e]) m' := by
  obtain ⟨system, hcall, hsystem, rfl⟩ := machineStep_process.mp hstep
  cases e with
  | enqueue t message createdAt => cases hcall
  | insert t message createdAt live id =>
      obtain ⟨htask, _, _, rfl⟩ := Queue.step_insert.mp hsystem
      refine h.update t ?_ ?_
      · intro u hu
        exact ⟨Function.update_of_ne hu _ _, rfl, rfl⟩
      · have hself := h t
        rw [htask] at hself
        simp only [Function.update_self, Event.callsAfter, Event.sessionsAfter]
        cases live with
        | false => exact { hself.concat with awaiting := by simp, committed := by simp }
        | true =>
            have hpending := hself.awaiting message createdAt rfl
            refine { hself.concat with awaiting := by simp, committed := ?_ }
            intro id' hid
            obtain rfl := EnqueueTask.committed.inj hid
            exact ⟨message, createdAt, hpending, by simp⟩
  | refuse t message createdAt live error =>
      obtain ⟨⟨htask, _⟩, rfl⟩ := Queue.step_refuse.mp hsystem
      have hself := h t
      rw [htask] at hself
      cases live with
      | false =>
          refine h.update t ?_ ?_
          · intro u hu
            exact ⟨Function.update_of_ne hu _ _, rfl, rfl⟩
          · simp only [Function.update_self, Event.callsAfter, Event.sessionsAfter]
            exact { hself.concat with awaiting := by simp, committed := by simp }
      | true =>
          have hpending := hself.awaiting message createdAt rfl
          refine h.update t ?_ ?_
          · intro u hu
            exact ⟨Function.update_of_ne hu _ _, Function.update_of_ne hu _ _, rfl⟩
          · simp only [Function.update_self, Event.callsAfter, Event.sessionsAfter,
              hpending, if_true, Call.return]
            rw [hpending] at hself
            exact ⟨hself.passes, by simp, by simp, by simp⟩
  | notify t id =>
      obtain ⟨htask, rfl⟩ := Queue.step_notify.mp hsystem
      have hself := h t
      rw [htask] at hself
      obtain ⟨message, createdAt, hpending, hmem⟩ := hself.committed id rfl
      refine h.update t ?_ ?_
      · intro u hu
        exact ⟨Function.update_of_ne hu _ _, Function.update_of_ne hu _ _, rfl⟩
      · simp only [Function.update_self, Event.callsAfter, Event.sessionsAfter,
          hpending, Call.return]
        rw [hpending] at hself
        refine ⟨hself.passes, by simp, by simp, ?_⟩
        intro message' id' hreturned
        simp only [Call.returned.injEq, Except.ok.injEq] at hreturned
        obtain ⟨rfl, rfl⟩ := hreturned
        exact ⟨createdAt, List.mem_append_left _ hmem⟩
  | cancel t =>
      obtain ⟨_, rfl⟩ := Queue.step_cancel.mp hsystem
      refine h.update t ?_ ?_
      · intro u hu
        exact ⟨Function.update_of_ne hu _ _, Function.update_of_ne hu _ _,
          Function.update_of_ne hu _ _⟩
      · simp only [Function.update_self, Event.callsAfter, Event.sessionsAfter]
        apply callMatches_idle
        cases m.system.tasks t <;> rfl
  | crash config maxLen =>
      obtain rfl := Queue.step_crash.mp hsystem
      intro u
      exact callMatches_idle rfl
  | _ =>
      simp at hsystem
      exact h.keep (by simp [hsystem]) rfl rfl

theorem callsMatch_step (h : CallsMatch server es m)
    (hstep : Machine.step server m e = some m') : CallsMatch server (es ++ [e]) m' := by
  cases e with
  | connect t reader =>
      obtain ⟨hfree, rfl⟩ := machineStep_connect.mp hstep
      refine h.update t (by simp +contextual) ?_
      have hself := h t
      rw [hfree] at hself
      refine { hself.concat with passes := ?_ }
      intro message hcall
      obtain ⟨c, hc, _⟩ := hself.passes message hcall
      cases hc
  | turn t =>
      obtain ⟨c, c', hc, hidle, _, _, rfl⟩ := machineStep_turn.mp hstep
      refine h.update t (by simp +contextual) ?_
      have hlive := (h t).not_live (by rw [hidle]; rfl)
      simp only [hidle]
      exact callMatches_idle hlive
  | call t message createdAt =>
      obtain ⟨c, system, hc, hidle, hpasses, hsystem, rfl⟩ := machineStep_call.mp hstep
      obtain ⟨_, rfl⟩ := Queue.step_enqueue.mp hsystem
      refine h.update t (by simp +contextual) ?_
      simp only [Function.update_self]
      refine ⟨?_, ?_, by simp, by simp⟩
      · intro message' hcall
        obtain rfl := Option.some.inj hcall
        exact ⟨c, hc, hpasses⟩
      · intro message' createdAt' htask
        rw [(EnqueueTask.awaiting.inj htask).1]
  | answer t message result =>
      obtain ⟨c, c', hc, hreturned, _, rfl⟩ := machineStep_answer.mp hstep
      refine h.update t (by simp +contextual) ?_
      have hlive := (h t).not_live (by rw [hreturned]; rfl)
      simp only [Function.update_self]
      exact callMatches_idle hlive
  | leave t =>
      obtain ⟨hpending, rfl⟩ := machineStep_leave.mp hstep
      refine h.update t (by simp +contextual) ?_
      have hlive := (h t).not_live hpending
      simp only [Function.update_self]
      exact callMatches_idle hlive
  | process e => exact callsMatch_process h hstep
  | checkpoint =>
      obtain rfl := machineStep_checkpoint.mp hstep
      exact h.keep rfl rfl rfl

end Calls

section Runs

variable {config : DeliveryWorker} {maxLen : Nat} {db : Db} {es : List MachineEvent}
  {m m' : Machine}

theorem callsMatch_of_run
    (hrun : Machine.run server (Machine.start config maxLen db) es = some m) :
    CallsMatch server es m := by
  refine Replay.replay_invariant (I := CallsMatch server) ?_ ?_ hrun
  · intro t
    exact callMatches_idle rfl
  · intro es m e m' _ hI hstep
    exact callsMatch_step hI hstep

theorem update_eq_some {f : Nat → Option Conversation} {t u : Nat}
    {x : Option Conversation} {d : Conversation} (h : Function.update f t x u = some d) :
    x = some d ∨ f u = some d := by
  by_cases hu : u = t
  · subst hu
    rw [Function.update_self] at h
    exact Or.inl h
  · rw [Function.update_of_ne hu] at h
    exact Or.inr h

/-- Every session on the machine is one of `handle_connection`. -/
theorem converse_of_run
    (hrun : Machine.run server (Machine.start config maxLen db) es = some m)
    {t : Nat} {c : Conversation} (hc : m.sessions t = some c) :
    ∃ reader results, server.converse reader results = some c := by
  revert t c
  refine Replay.replay_invariant (I := fun _ m => ∀ {t : Nat} {c : Conversation},
    m.sessions t = some c → ∃ reader results, server.converse reader results = some c)
    ?_ ?_ hrun
  · intro t c hc
    cases hc
  · intro es m e m' _ hI hstep u d hd
    have hturn : ∀ {c c' : Conversation} {result : Except ChimneyError Int} {t : Nat},
        m.sessions t = some c → server.step c result = some c' →
        ∃ reader results, server.converse reader results = some c' := by
      intro c c' result t hc hturn
      obtain ⟨reader, results, hconverse⟩ := hI hc
      refine ⟨reader, results ++ [result], ?_⟩
      exact Replay.replay_concat_eq_some.mpr ⟨c, hconverse, hturn⟩
    cases e with
    | connect t reader =>
        obtain ⟨_, rfl⟩ := machineStep_connect.mp hstep
        rcases update_eq_some hd with hnew | hd
        · exact ⟨reader, [], hnew⟩
        · exact hI hd
    | turn t =>
        obtain ⟨c, c', hc, _, _, hc', rfl⟩ := machineStep_turn.mp hstep
        rcases update_eq_some hd with hnew | hd
        · exact hturn hc (hc'.trans hnew)
        · exact hI hd
    | call t message createdAt =>
        obtain ⟨c, system, _, _, _, _, rfl⟩ := machineStep_call.mp hstep
        exact hI hd
    | answer t message result =>
        obtain ⟨c, c', hc, _, hc', rfl⟩ := machineStep_answer.mp hstep
        rcases update_eq_some hd with hnew | hd
        · exact hturn hc (hc'.trans hnew)
        · exact hI hd
    | leave t =>
        obtain ⟨_, rfl⟩ := machineStep_leave.mp hstep
        rcases update_eq_some hd with hnone | hd
        · cases hnone
        · exact hI hd
    | process e =>
        obtain ⟨system, _, _, rfl⟩ := machineStep_process.mp hstep
        cases e with
        | cancel t =>
            rcases update_eq_some hd with hnone | hd
            · cases hnone
            · exact hI hd
        | crash config maxLen => cases hd
        | _ => exact hI hd
    | checkpoint =>
        obtain rfl := machineStep_checkpoint.mp hstep
        exact hI hd

/-- **A block is answered 250 after its commit**: when a session goes on from a call that
has returned an id, the row of its message has been inserted under this id, and the
reply it writes is the 250. -/
theorem answer_follows_insert {t : Nat} {message : Message} {id : Int}
    (hrun : Machine.run server (Machine.start config maxLen db) es = some m)
    (hstep : Machine.step server m (.answer t message (.ok id)) = some m') :
    (∃ createdAt, .process (.insert t message createdAt true id) ∈ es) ∧
      ∃ c c' line data, m.sessions t = some c ∧ m'.sessions t = some c' ∧
        c'.events = c.events ++ [.command line .startData, .block data,
          .enqueue message (.ok id), .answer .ok] := by
  obtain ⟨c, c', hc, hreturned, hturn, rfl⟩ := machineStep_answer.mp hstep
  have hmatches := callsMatch_of_run hrun t
  refine ⟨hmatches.inserted message id hreturned, ?_⟩
  obtain ⟨c₂, hc₂, hpasses⟩ := hmatches.passes message (by rw [hreturned]; rfl)
  obtain rfl := Option.some.inj (hc.symm.trans hc₂)
  obtain ⟨s, hs, rfl⟩ := step_eq_some.mp hturn
  rw [Server.passes, hs, Option.bind_some, passed_pass server _ (.ok id)] at hpasses
  obtain ⟨line, data, reply, hevents, hreply⟩ := events_of_passed hpasses
  refine ⟨c, _, line, data, hc, Function.update_self .., ?_⟩
  rcases hreply with ⟨rfl, _⟩ | ⟨_, _, hresult⟩
  · rw [hevents]
  · cases hresult

end Runs

end Sessions

end Smtp
end ChimneyPost
