import ChimneyPost.Lib.Receipt
import ChimneyPost.Matrix.Send
import ChimneyPost.Smtp.PowerLoss
import ChimneyPost.Smtp.Provenance

/-!
# From the client of SMTP to the rooms

The machine of `Smtp/Machine.lean` with `MatrixClient` as its sink, the network and the
homeserver.  A call of `sink.deliver` runs `send_message`; what that sends may be lost on
the way, be answered or not, arrive late, in any order and several times, also when the
process that sent it is gone.  The homeserver knows a request again by its session, its
room and its transaction id, and takes it once; it answers `Ok` to what it has.

`clients n` and `sessions n` are the client and the session that the process has after `n`
restarts.

Every message is in the rooms at most once for each session, it is one that was sent for a
row of the outbox, and what has left the outbox as delivered is in its room
(`delivered_exactly_once`).  On a fresh database all of it has come from SMTP clients
(`timeline_received`).
-/

namespace ChimneyPost
namespace Matrix

open Dialogue (Script)
open Queue (Event DeliveryWorker Db StoredMessage idempotencyKey)
open Smtp (Server Machine MachineEvent Received processEvents)

variable {UserId RoomId Client Session : Type}

/-- A send request on its way. -/
structure Sent (RoomId Session : Type) where
  session : Session
  roomId : RoomId
  transactionId : Str
  content : Str
deriving DecidableEq

/-- What the homeserver knows a request by. -/
def Sent.key (sent : Sent RoomId Session) : Session × RoomId × Str :=
  (sent.session, sent.roomId, sent.transactionId)

structure Bridge (RoomId Session : Type) where
  machine : Machine
  /-- the number of restarts -/
  restarts : Nat
  /-- what is left of the running `send_message` -/
  attempt : Option (Script (RoomRequest RoomId) RoomRequest.Answer (Except ChimneyError Unit))
  /-- all requests sent so far; any of them may arrive at any time -/
  network : List (Sent RoomId Session)
  /-- the events in the rooms -/
  timeline : List (Sent RoomId Session)

def Bridge.start (config : DeliveryWorker) (maxLen : Nat) (db : Db) :
    Bridge RoomId Session where
  machine := Machine.start config maxLen db
  restarts := 0
  attempt := none
  network := []
  timeline := []

inductive BridgeEvent (RoomId Session : Type) where
  | machine (e : MachineEvent)
  /-- the running `send_message` sends its event, perhaps not for the first time -/
  | emit
  /-- the running `send_message` asks and is answered -/
  | exchange (x : RoomExchange RoomId)
  | arrive (sent : Sent RoomId Session)

/-- The result of a `send_message` that has returned. -/
def outcome : Option (Script (RoomRequest RoomId) RoomRequest.Answer (Except ChimneyError Unit)) →
    Option (Except ChimneyError Unit)
  | some (.done result) => some result
  | _ => none

section Step

variable [DecidableEq RoomId] [DecidableEq Session] (server : Server) (templates : Templates)
  (clients : Nat → MatrixClient UserId RoomId Client) (sessions : Nat → Session)

namespace Bridge

/-- What an event of the machine does to the running `send_message`; `none` when the event
has to wait for it. -/
def attemptAfter (b : Bridge RoomId Session) : MachineEvent →
    Option (Option (Script (RoomRequest RoomId) RoomRequest.Answer (Except ChimneyError Unit)))
  | .process (.deliver stored _) =>
      some (some ((clients b.restarts).sendMessage templates stored.message
        (idempotencyKey stored.id)).run)
  | .process (.sinkOk _ _) => if outcome b.attempt = some (.ok ()) then some none else none
  | .process (.sinkErr _ _ error) =>
      if outcome b.attempt = some (.error error) then some none else none
  | .process (.crash _ _) => some none
  | _ => some b.attempt

def restartsAfter (b : Bridge RoomId Session) : MachineEvent → Nat
  | .process (.crash _ _) => b.restarts + 1
  | _ => b.restarts

/-- The homeserver answers `Ok` to a send only when it has the event. -/
def Answers (b : Bridge RoomId Session) : RoomExchange RoomId → Prop
  | ⟨.send roomId _ transactionId, .ok _⟩ =>
      (sessions b.restarts, roomId, transactionId) ∈ b.timeline.map Sent.key
  | _ => True

instance (b : Bridge RoomId Session) : DecidablePred (b.Answers sessions) := fun x => by
  obtain ⟨request, answer⟩ := x
  cases request with
  | send roomId content transactionId =>
      cases answer with
      | error error =>
          exact inferInstanceAs (Decidable True)
      | ok u =>
          exact inferInstanceAs (Decidable (_ ∈ b.timeline.map Sent.key))
  | _ =>
      exact inferInstanceAs (Decidable True)

/-- One event; `none` when it cannot happen. -/
def step (b : Bridge RoomId Session) : BridgeEvent RoomId Session → Option (Bridge RoomId Session)
  | .machine e =>
      (Machine.step server b.machine e).bind fun machine =>
        (b.attemptAfter templates clients e).map fun attempt =>
          { b with machine := machine, attempt := attempt, restarts := b.restartsAfter e }
  | .emit =>
      match b.attempt with
      | some (.ask (.send roomId content transactionId) _) =>
          some { b with
            network := b.network ++ [{ session := sessions b.restarts, roomId := roomId,
                                       transactionId := transactionId, content := content }] }
      | _ => none
  | .exchange x =>
      match b.attempt with
      | some (.ask request next) =>
          if h : x.request = request then
            if b.Answers sessions x then some { b with attempt := some (next (h ▸ x.answer)) }
            else none
          else none
      | _ => none
  | .arrive sent =>
      if sent ∈ b.network then
        some { b with timeline := Receipt.receive Sent.key b.timeline sent }
      else none

/-- The state a run reaches. -/
abbrev run (b : Bridge RoomId Session) (es : List (BridgeEvent RoomId Session)) :
    Option (Bridge RoomId Session) :=
  Replay.replay (step server templates clients sessions) b es

end Bridge

end Step

/-! ## What each event does -/

section Steps

variable [DecidableEq RoomId] [DecidableEq Session] {server : Server} {templates : Templates}
  {clients : Nat → MatrixClient UserId RoomId Client} {sessions : Nat → Session}
  {b b' : Bridge RoomId Session}

theorem bridgeStep_machine {e : MachineEvent} :
    Bridge.step server templates clients sessions b (.machine e) = some b' ↔
      ∃ machine attempt, Machine.step server b.machine e = some machine ∧
        b.attemptAfter templates clients e = some attempt ∧
        b' = { b with machine := machine, attempt := attempt, restarts := b.restartsAfter e } := by
  rw [Bridge.step, Option.bind_eq_some_iff]
  constructor
  · rintro ⟨machine, hmachine, hmap⟩
    obtain ⟨attempt, hattempt, rfl⟩ := Option.map_eq_some_iff.mp hmap
    exact ⟨machine, attempt, hmachine, hattempt, rfl⟩
  · rintro ⟨machine, attempt, hmachine, hattempt, rfl⟩
    exact ⟨machine, hmachine, Option.map_eq_some_iff.mpr ⟨attempt, hattempt, rfl⟩⟩

theorem bridgeStep_emit :
    Bridge.step server templates clients sessions b .emit = some b' ↔
      ∃ roomId content transactionId next,
        b.attempt = some (.ask (.send roomId content transactionId) next) ∧
        b' = { b with
          network := b.network ++ [{ session := sessions b.restarts, roomId := roomId,
                                     transactionId := transactionId, content := content }] } := by
  rw [Bridge.step]
  split
  · next roomId content transactionId next hattempt =>
      rw [Option.some.injEq]
      constructor
      · rintro rfl
        exact ⟨roomId, content, transactionId, next, hattempt, rfl⟩
      · rintro ⟨roomId', content', transactionId', next', hattempt', rfl⟩
        rw [hattempt] at hattempt'
        cases hattempt'
        rfl
  · next hnone =>
      constructor
      · intro h
        cases h
      · rintro ⟨roomId, content, transactionId, next, hattempt, _⟩
        exact absurd hattempt (hnone roomId content transactionId next)

theorem bridgeStep_exchange {x : RoomExchange RoomId} :
    Bridge.step server templates clients sessions b (.exchange x) = some b' ↔
      ∃ next, b.attempt = some (.ask x.request next) ∧ b.Answers sessions x ∧
        b' = { b with attempt := some (next x.answer) } := by
  rw [Bridge.step]
  split
  · next request next hattempt =>
      constructor
      · intro h
        split_ifs at h with hrequest hanswers
        subst hrequest
        exact ⟨next, hattempt, hanswers, (Option.some.inj h).symm⟩
      · rintro ⟨next', hattempt', hanswers, rfl⟩
        rw [hattempt] at hattempt'
        cases hattempt'
        rw [dif_pos rfl, if_pos hanswers]
  · next hnone =>
      constructor
      · intro h
        cases h
      · rintro ⟨next, hattempt, _⟩
        exact absurd hattempt (hnone x.request next)

theorem bridgeStep_arrive {sent : Sent RoomId Session} :
    Bridge.step server templates clients sessions b (.arrive sent) = some b' ↔
      sent ∈ b.network ∧
      b' = { b with timeline := Receipt.receive Sent.key b.timeline sent } := by
  exact Replay.guarded_eq_some

end Steps

/-! ## The machine goes its way -/

/-- What the machine sees of a run. -/
def machineEvents (es : List (BridgeEvent RoomId Session)) : List MachineEvent :=
  es.filterMap fun
    | .machine e => some e
    | _ => none

def BridgeEvent.isRestart : BridgeEvent RoomId Session → Bool
  | .machine (.process (.crash _ _)) => true
  | _ => false

@[simp] theorem machineEvents_append (es fs : List (BridgeEvent RoomId Session)) :
    machineEvents (es ++ fs) = machineEvents es ++ machineEvents fs := by
  exact List.filterMap_append

section Machines

open Queue (System WorkerPc)

variable {s t : System} {m m' : Machine} {server : Server}

/-- Only the answer of the sink lets the worker mark a row. -/
theorem marking_step {e : Event} {id : Int} (hstep : Queue.step s e = some t)
    (h : t.worker = .marking id) :
    s.worker = .marking id ∨ ∃ stored now, e = .sinkOk stored now ∧ stored.id = id := by
  cases e with
  | sinkOk stored now =>
      obtain ⟨_, rfl⟩ := Queue.step_sinkOk.mp hstep
      exact Or.inr ⟨stored, now, rfl, WorkerPc.marking.inj h⟩
  | sinkErr stored now error =>
      obtain ⟨_, rfl⟩ := Queue.step_sinkErr.mp hstep
      rcases Queue.handleFailure_cases s.config stored now error with ⟨_, hpc⟩ | ⟨_, hpc⟩
      · rw [show _ = _ from hpc] at h
        cases h
      · rw [show _ = _ from hpc] at h
        cases h
  | deliver | markDelivered | deadLetter | reschedule | writeError | crash =>
      simp at hstep
      simp [hstep, System.start] at h
  | _ =>
      rcases (Queue.step_aside hstep rfl).2 with hworker | ⟨_, hholding⟩
      · rw [hworker] at h
        exact Or.inl h
      · rw [h] at hholding
        cases hholding

/-- While a delivery is under way, the worker waits for the sink or dies. -/
theorem delivering_step {e : Event} {stored : StoredMessage} {now : Int}
    (hstep : Queue.step s e = some t) (h : s.worker = .delivering stored now) :
    t.worker = .delivering stored now ∨ e = .sinkOk stored now ∨
      (∃ error, e = .sinkErr stored now error) ∨ ∃ config maxLen, e = .crash config maxLen := by
  cases e with
  | sinkOk stored' now' =>
      obtain ⟨hpc, _⟩ := Queue.step_sinkOk.mp hstep
      rw [h] at hpc
      obtain ⟨rfl, rfl⟩ := WorkerPc.delivering.inj hpc
      exact Or.inr (Or.inl rfl)
  | sinkErr stored' now' error =>
      obtain ⟨hpc, _⟩ := Queue.step_sinkErr.mp hstep
      rw [h] at hpc
      obtain ⟨rfl, rfl⟩ := WorkerPc.delivering.inj hpc
      exact Or.inr (Or.inr (Or.inl ⟨error, rfl⟩))
  | crash config maxLen =>
      exact Or.inr (Or.inr (Or.inr ⟨config, maxLen, rfl⟩))
  | deliver | markDelivered | deadLetter | reschedule | writeError =>
      simp [h, WorkerPc.writing] at hstep
  | _ =>
      rcases (Queue.step_aside hstep rfl).2 with hworker | ⟨hholding, _⟩
      · exact Or.inl (hworker.trans h)
      · rw [h] at hholding
        cases hholding

/-- The worker is moved by the events of its process only. -/
theorem worker_step {e : MachineEvent} (hstep : Machine.step server m e = some m') :
    (∃ f, e = .process f ∧ Queue.step m.system f = some m'.system) ∨
      ((∀ f, e ≠ .process f) ∧ m'.system.worker = m.system.worker) := by
  cases e with
  | process f =>
      obtain ⟨system, _, hsystem, rfl⟩ := Smtp.machineStep_process.mp hstep
      exact Or.inl ⟨f, rfl, hsystem⟩
  | call t message createdAt =>
      obtain ⟨c, system, _, _, _, hsystem, rfl⟩ := Smtp.machineStep_call.mp hstep
      obtain ⟨_, rfl⟩ := Queue.step_enqueue.mp hsystem
      exact Or.inr ⟨by simp, rfl⟩
  | connect t reader =>
      obtain ⟨_, rfl⟩ := Smtp.machineStep_connect.mp hstep
      exact Or.inr ⟨by simp, rfl⟩
  | turn t =>
      obtain ⟨c, c', _, _, _, _, rfl⟩ := Smtp.machineStep_turn.mp hstep
      exact Or.inr ⟨by simp, rfl⟩
  | answer t message result =>
      obtain ⟨c, c', _, _, _, rfl⟩ := Smtp.machineStep_answer.mp hstep
      exact Or.inr ⟨by simp, rfl⟩
  | leave t =>
      obtain ⟨_, rfl⟩ := Smtp.machineStep_leave.mp hstep
      exact Or.inr ⟨by simp, rfl⟩
  | checkpoint =>
      obtain rfl := Smtp.machineStep_checkpoint.mp hstep
      exact Or.inr ⟨by simp, rfl⟩

end Machines

section Runs

variable [DecidableEq RoomId] [DecidableEq Session] {server : Server} {templates : Templates}
  {clients : Nat → MatrixClient UserId RoomId Client} {sessions : Nat → Session}
  {config : DeliveryWorker} {maxLen : Nat} {db : Db}
  {es : List (BridgeEvent RoomId Session)} {b : Bridge RoomId Session}

/-- The machine runs as one that has no bridge. -/
theorem machine_runs
    (hrun : Bridge.run server templates clients sessions (Bridge.start config maxLen db) es =
      some b) :
    Machine.run server (Machine.start config maxLen db) (machineEvents es) = some b.machine := by
  refine Replay.replay_invariant (I := fun es b =>
    Machine.run server (Machine.start config maxLen db) (machineEvents es) = some b.machine)
    ?_ ?_ hrun
  · rfl
  · intro es b e b' _ hI hstep
    rw [machineEvents_append]
    refine Replay.replay_append_eq_some.mpr ⟨_, hI, ?_⟩
    cases e with
    | machine e =>
        obtain ⟨machine, attempt, hmachine, _, rfl⟩ := bridgeStep_machine.mp hstep
        show Replay.replay _ _ [e] = _
        rw [Replay.replay_cons, hmachine]
        rfl
    | emit =>
        obtain ⟨_, _, _, _, _, rfl⟩ := bridgeStep_emit.mp hstep
        rfl
    | exchange x =>
        obtain ⟨_, _, _, rfl⟩ := bridgeStep_exchange.mp hstep
        rfl
    | arrive sent =>
        obtain ⟨_, rfl⟩ := bridgeStep_arrive.mp hstep
        rfl

theorem restarts_eq
    (hrun : Bridge.run server templates clients sessions (Bridge.start config maxLen db) es =
      some b) :
    b.restarts = es.countP BridgeEvent.isRestart := by
  refine Replay.replay_invariant (I := fun es (b : Bridge RoomId Session) =>
    b.restarts = es.countP BridgeEvent.isRestart) ?_ ?_ hrun
  · rfl
  · intro es b e b' _ hI hstep
    rw [List.countP_append, ← hI]
    cases e with
    | machine e =>
        obtain ⟨machine, attempt, _, _, rfl⟩ := bridgeStep_machine.mp hstep
        cases e with
        | process e =>
            cases e <;> rfl
        | _ =>
            rfl
    | emit =>
        obtain ⟨_, _, _, _, _, rfl⟩ := bridgeStep_emit.mp hstep
        rfl
    | exchange x =>
        obtain ⟨_, _, _, rfl⟩ := bridgeStep_exchange.mp hstep
        rfl
    | arrive sent =>
        obtain ⟨_, rfl⟩ := bridgeStep_arrive.mp hstep
        rfl

end Runs

/-! ## What is in the rooms -/

/-- The request carries the message of a row, from this client in this session. -/
structure Carries (templates : Templates) (client : MatrixClient UserId RoomId Client)
    (session : Session) (stored : StoredMessage) (sent : Sent RoomId Session) : Prop where
  session : sent.session = session
  transactionId : sent.transactionId = idempotencyKey stored.id
  roomId : sent.roomId = client.router.resolve stored.message
  content : formatMessage templates stored.message client.messageTemplate = .ok sent.content

section Rooms

variable (templates : Templates) (clients : Nat → MatrixClient UserId RoomId Client)
  (sessions : Nat → Session)

/-- The request was made by an attempt of the run, with the client of that time. -/
def Genuine (es : List (BridgeEvent RoomId Session)) (sent : Sent RoomId Session) : Prop :=
  ∃ before stored now after, es = before ++ .machine (.process (.deliver stored now)) :: after ∧
    Carries templates (clients (before.countP BridgeEvent.isRestart))
      (sessions (before.countP BridgeEvent.isRestart)) stored sent

/-- A message is in its room, under its key. -/
def Present (timeline : List (Sent RoomId Session)) (session : Session) (id : Int) : Prop :=
  ∃ sent ∈ timeline, sent.session = session ∧ sent.transactionId = idempotencyKey id

/-- Where the running `send_message` is. -/
def Running (es : List (BridgeEvent RoomId Session)) (b : Bridge RoomId Session)
    (rest : Script (RoomRequest RoomId) RoomRequest.Answer (Except ChimneyError Unit)) : Prop :=
  ∃ before stored now after history,
    es = before ++ .machine (.process (.deliver stored now)) :: after ∧
    before.countP BridgeEvent.isRestart = b.restarts ∧
    b.machine.system.worker = .delivering stored now ∧
    ((clients b.restarts).sendMessage templates stored.message
      (idempotencyKey stored.id)).run.Leaves history rest ∧
    ∀ x ∈ history, taken x = true → Present b.timeline (sessions b.restarts) stored.id

/-- What every run keeps. -/
structure Bridged (es : List (BridgeEvent RoomId Session)) (b : Bridge RoomId Session) :
    Prop where
  running : ∀ rest, b.attempt = some rest → Running templates clients sessions es b rest
  network : ∀ sent ∈ b.network, Genuine templates clients sessions es sent
  timeline : b.timeline ⊆ b.network
  once : (b.timeline.map Sent.key).Nodup
  marking : ∀ id, b.machine.system.worker = .marking id →
    Present b.timeline (sessions b.restarts) id
  marked : ∀ before id after, es = before ++ .machine (.process (.markDelivered id)) :: after →
    Present b.timeline (sessions (before.countP BridgeEvent.isRestart)) id

variable {templates clients sessions} {es : List (BridgeEvent RoomId Session)}
  {e : BridgeEvent RoomId Session} {b b' : Bridge RoomId Session}

theorem Genuine.concat {sent : Sent RoomId Session}
    (h : Genuine templates clients sessions es sent) :
    Genuine templates clients sessions (es ++ [e]) sent := by
  obtain ⟨before, stored, now, after, rfl, hcarries⟩ := h
  exact ⟨before, stored, now, after ++ [e], by simp, hcarries⟩

theorem Present.mono {timeline timeline' : List (Sent RoomId Session)} {session : Session}
    {id : Int} (h : Present timeline session id) (hsub : timeline ⊆ timeline') :
    Present timeline' session id := by
  obtain ⟨sent, hmem, hsent⟩ := h
  exact ⟨sent, hsub hmem, hsent⟩

/-- The place of an event in a run that has gone on by one. -/
theorem append_cons_eq_concat {before after : List (BridgeEvent RoomId Session)}
    {x : BridgeEvent RoomId Session} (h : es ++ [e] = before ++ x :: after) :
    (before = es ∧ x = e) ∨ ∃ after', es = before ++ x :: after' := by
  rcases List.eq_nil_or_concat after with rfl | ⟨after', y, rfl⟩
  · obtain ⟨rfl, hx⟩ := List.append_inj' h rfl
    exact Or.inl ⟨rfl, (List.cons.inj hx).1.symm⟩
  · rw [List.concat_eq_append, ← List.cons_append, ← List.append_assoc] at h
    exact Or.inr ⟨after', (List.append_inj' h rfl).1⟩

/-- An attempt that goes on as it was. -/
theorem Running.concat
    {rest : Script (RoomRequest RoomId) RoomRequest.Answer (Except ChimneyError Unit)}
    (h : Running templates clients sessions es b rest)
    (hrestarts : b'.restarts = b.restarts)
    (hworker : ∀ stored now, b.machine.system.worker = .delivering stored now →
      b'.machine.system.worker = .delivering stored now)
    (htimeline : b.timeline ⊆ b'.timeline) :
    Running templates clients sessions (es ++ [e]) b' rest := by
  obtain ⟨before, stored, now, after, history, rfl, hbefore, hpc, hleaves, htaken⟩ := h
  refine ⟨before, stored, now, after ++ [e], history, by simp, ?_, hworker stored now hpc, ?_, ?_⟩
  · rw [hrestarts]
    exact hbefore
  · rw [hrestarts]
    exact hleaves
  · intro x hx hxtaken
    rw [hrestarts]
    exact (htaken x hx hxtaken).mono htimeline

/-- An event of the run that is not the worker's deletion marks nothing. -/
theorem Bridged.marked_concat (h : Bridged templates clients sessions es b)
    (htimeline : b.timeline ⊆ b'.timeline)
    (he : ∀ id, e = .machine (.process (.markDelivered id)) →
      Present b'.timeline (sessions (es.countP BridgeEvent.isRestart)) id) :
    ∀ before id after,
      es ++ [e] = before ++ .machine (.process (.markDelivered id)) :: after →
      Present b'.timeline (sessions (before.countP BridgeEvent.isRestart)) id := by
  intro before id after heq
  rcases append_cons_eq_concat heq with ⟨rfl, hx⟩ | ⟨after', hes⟩
  · exact he id hx.symm
  · exact (h.marked before id after' hes).mono htimeline

theorem bridged_start (config : DeliveryWorker) (maxLen : Nat) (db : Db) :
    Bridged templates clients sessions [] (Bridge.start config maxLen db) := by
  refine ⟨?_, ?_, List.Subset.refl _, List.nodup_nil, ?_, ?_⟩
  · intro rest hrest
    cases hrest
  · intro sent hsent
    cases hsent
  · intro id hmarking
    cases hmarking
  · intro before id after heq
    simp at heq

/-- A `send_message` that has returned. -/
theorem outcome_eq_some
    {attempt : Option (Script (RoomRequest RoomId) RoomRequest.Answer (Except ChimneyError Unit))}
    {result : Except ChimneyError Unit} (h : outcome attempt = some result) :
    attempt = some (.done result) := by
  unfold outcome at h
  split at h
  · next result' =>
      rw [Option.some.inj h]
  · cases h

/-- The events that start or end a call of the sink. -/
def MachineEvent.isCall : MachineEvent → Bool
  | .process (.deliver _ _) => true
  | .process (.sinkOk _ _) => true
  | .process (.sinkErr _ _ _) => true
  | .process (.crash _ _) => true
  | _ => false

theorem attemptAfter_aside (templates : Templates)
    (clients : Nat → MatrixClient UserId RoomId Client) (b : Bridge RoomId Session)
    {e : MachineEvent} (h : MachineEvent.isCall e = false) :
    b.attemptAfter templates clients e = some b.attempt ∧ b.restartsAfter e = b.restarts := by
  cases e with
  | process f =>
      cases f <;> first | exact ⟨rfl, rfl⟩ | cases h
  | _ =>
      exact ⟨rfl, rfl⟩

/-- A `send_message` that has returned `Ok` has its event in the room. -/
theorem Bridged.present_of_ok (h : Bridged templates clients sessions es b)
    (hattempt : outcome b.attempt = some (.ok ())) {stored : StoredMessage} {now : Int}
    (hpc : b.machine.system.worker = .delivering stored now) :
    Present b.timeline (sessions b.restarts) stored.id := by
  obtain ⟨before, stored', now', after, history, _, _, hpc', hleaves, htaken⟩ :=
    h.running _ (outcome_eq_some hattempt)
  rw [hpc] at hpc'
  obtain ⟨rfl, rfl⟩ := Queue.WorkerPc.delivering.inj hpc'
  obtain ⟨x, hx, hxtaken⟩ := (sendMessage_meets.yields hleaves).mp rfl
  exact htaken x hx hxtaken

variable [DecidableEq RoomId] [DecidableEq Session] {server : Server}

/-- Where `send_message` is asked for its event, it is that of the message. -/
theorem bridged_emit (h : Bridged templates clients sessions es b)
    (hstep : Bridge.step server templates clients sessions b .emit = some b') :
    Bridged templates clients sessions (es ++ [.emit]) b' := by
  obtain ⟨roomId, content, transactionId, next, hattempt, rfl⟩ := bridgeStep_emit.mp hstep
  refine ⟨?_, ?_, ?_, h.once, h.marking, ?_⟩
  · intro rest hrest
    exact (h.running rest hrest).concat rfl (fun _ _ hpc => hpc) (List.Subset.refl _)
  · intro sent hsent
    rcases List.mem_append.mp hsent with hsent | hsent
    · exact (h.network sent hsent).concat
    · obtain ⟨before, stored, now, after, history, rfl, hbefore, _, hleaves, _⟩ :=
        h.running _ hattempt
      have hconfined := sendMessage_meets.asks ⟨next, hleaves⟩
      obtain ⟨hcontent, htransaction⟩ := hconfined.content _ _ _ rfl
      refine Genuine.concat ⟨before, stored, now, after, rfl, ?_⟩
      rw [List.mem_singleton.mp hsent, hbefore]
      exact ⟨rfl, htransaction, hconfined.roomId, hcontent⟩
  · exact fun sent hsent => List.mem_append_left _ (h.timeline hsent)
  · exact h.marked_concat (List.Subset.refl _) (by simp)

/-- What the homeserver has answered for is in the room. -/
theorem bridged_exchange {x : RoomExchange RoomId}
    (h : Bridged templates clients sessions es b)
    (hstep : Bridge.step server templates clients sessions b (.exchange x) = some b') :
    Bridged templates clients sessions (es ++ [.exchange x]) b' := by
  obtain ⟨next, hattempt, hanswers, rfl⟩ := bridgeStep_exchange.mp hstep
  refine ⟨?_, fun sent hsent => (h.network sent hsent).concat, h.timeline, h.once, h.marking, ?_⟩
  · intro rest hrest
    obtain rfl := Option.some.inj hrest
    obtain ⟨before, stored, now, after, history, rfl, hbefore, hpc, hleaves, htaken⟩ :=
      h.running _ hattempt
    refine ⟨before, stored, now, after ++ [.exchange x], history ++ [x], by simp, hbefore, hpc,
      hleaves.concat x.answer, ?_⟩
    intro y hy hytaken
    rcases List.mem_append.mp hy with hy | hy
    · exact htaken y hy hytaken
    · obtain rfl := List.mem_singleton.mp hy
      have hconfined := sendMessage_meets.asks ⟨next, hleaves⟩
      obtain ⟨request, answer⟩ := y
      cases request with
      | send roomId content transactionId =>
          cases answer with
          | error error =>
              cases hytaken
          | ok _ =>
              obtain ⟨sent, hsent, hkey⟩ := List.mem_map.mp hanswers
              obtain ⟨hsession, hrest⟩ := Prod.mk.inj hkey
              refine ⟨sent, hsent, hsession, ?_⟩
              rw [(Prod.mk.inj hrest).2]
              exact (hconfined.content _ _ _ rfl).2
      | _ =>
          cases hytaken
  · exact h.marked_concat (List.Subset.refl _) (by simp)

/-- What arrives is taken in once. -/
theorem bridged_arrive {sent : Sent RoomId Session}
    (h : Bridged templates clients sessions es b)
    (hstep : Bridge.step server templates clients sessions b (.arrive sent) = some b') :
    Bridged templates clients sessions (es ++ [.arrive sent]) b' := by
  obtain ⟨hsent, rfl⟩ := bridgeStep_arrive.mp hstep
  refine ⟨?_, fun sent hsent => (h.network sent hsent).concat, ?_, Receipt.nodup_receive h.once,
    fun id hmarking => (h.marking id hmarking).mono Receipt.subset_receive, ?_⟩
  · intro rest hrest
    exact (h.running rest hrest).concat rfl (fun _ _ hpc => hpc) Receipt.subset_receive
  · intro other hother
    rcases Receipt.mem_receive hother with hother | rfl
    · exact h.timeline hother
    · exact hsent
  · exact h.marked_concat Receipt.subset_receive (by simp)

/-- A delivery under way stays so until its call of the sink ends. -/
theorem delivering_aside {m m' : Machine} {e : MachineEvent} {stored : StoredMessage} {now : Int}
    (hstep : Machine.step server m e = some m') (h : MachineEvent.isCall e = false)
    (hpc : m.system.worker = .delivering stored now) :
    m'.system.worker = .delivering stored now := by
  rcases worker_step hstep with ⟨f, rfl, hsystem⟩ | ⟨_, hsame⟩
  · rcases delivering_step hsystem hpc with hpc' | rfl | ⟨error, rfl⟩ | ⟨config, maxLen, rfl⟩
    · exact hpc'
    · cases h
    · cases h
    · cases h
  · rw [hsame]
    exact hpc

theorem running_machine {e : MachineEvent} (h : Bridged templates clients sessions es b)
    (hrestarts : b.restarts = es.countP BridgeEvent.isRestart)
    (hstep : Bridge.step server templates clients sessions b (.machine e) = some b')
    {rest : Script (RoomRequest RoomId) RoomRequest.Answer (Except ChimneyError Unit)}
    (hrest : b'.attempt = some rest) :
    Running templates clients sessions (es ++ [.machine e]) b' rest := by
  obtain ⟨machine, attempt, hmachine, hattempt, rfl⟩ := bridgeStep_machine.mp hstep
  by_cases hcall : MachineEvent.isCall e = false
  · obtain ⟨hsame, hcount⟩ := attemptAfter_aside templates clients b hcall
    rw [hsame] at hattempt
    obtain rfl := Option.some.inj hattempt
    exact (h.running rest hrest).concat hcount
      (fun _ _ hpc => delivering_aside hmachine hcall hpc) (List.Subset.refl _)
  · cases e with
    | process f =>
        cases f with
        | deliver stored now =>
            obtain rfl := Option.some.inj hattempt
            obtain rfl := Option.some.inj hrest
            obtain ⟨system, _, hsystem, rfl⟩ := Smtp.machineStep_process.mp hmachine
            obtain ⟨_, rfl⟩ := Queue.step_deliver.mp hsystem
            exact ⟨es, stored, now, [], [], rfl, hrestarts.symm, rfl, .refl _, by simp⟩
        | sinkOk stored now =>
            rw [Bridge.attemptAfter] at hattempt
            split_ifs at hattempt
            obtain rfl := Option.some.inj hattempt
            cases hrest
        | sinkErr stored now error =>
            rw [Bridge.attemptAfter] at hattempt
            split_ifs at hattempt
            obtain rfl := Option.some.inj hattempt
            cases hrest
        | crash config maxLen =>
            obtain rfl := Option.some.inj hattempt
            cases hrest
        | _ =>
            exact absurd rfl hcall
    | _ =>
        exact absurd rfl hcall

/-- A row that the worker marks is in its room. -/
theorem marking_machine {e : MachineEvent} (h : Bridged templates clients sessions es b)
    (hstep : Bridge.step server templates clients sessions b (.machine e) = some b') {id : Int}
    (hmarking : b'.machine.system.worker = .marking id) :
    Present b'.timeline (sessions b'.restarts) id := by
  obtain ⟨machine, attempt, hmachine, hattempt, rfl⟩ := bridgeStep_machine.mp hstep
  rcases worker_step hmachine with ⟨f, rfl, hsystem⟩ | ⟨hne, hsame⟩
  · rcases marking_step hsystem hmarking with hbefore | ⟨stored, now, rfl, rfl⟩
    · have hcount : b.restartsAfter (.process f) = b.restarts := by
        cases f with
        | crash config maxLen =>
            dsimp only at hmarking
            rw [Queue.step_crash.mp hsystem] at hmarking
            cases hmarking
        | _ =>
            rfl
      rw [hcount]
      exact h.marking id hbefore
    · rw [Bridge.attemptAfter] at hattempt
      split_ifs at hattempt with hok
      exact h.present_of_ok hok (Queue.step_sinkOk.mp hsystem).1
  · have hcount : b.restartsAfter e = b.restarts := by
      cases e with
      | process f =>
          exact absurd rfl (hne f)
      | _ =>
          rfl
    rw [hcount]
    exact h.marking id (hsame.symm.trans hmarking)

/-- An event of the machine leaves network and rooms alone. -/
theorem bridged_machine {e : MachineEvent} (h : Bridged templates clients sessions es b)
    (hrestarts : b.restarts = es.countP BridgeEvent.isRestart)
    (hstep : Bridge.step server templates clients sessions b (.machine e) = some b') :
    Bridged templates clients sessions (es ++ [.machine e]) b' := by
  refine ⟨fun rest => running_machine h hrestarts hstep, ?_, ?_, ?_,
    fun id => marking_machine h hstep, ?_⟩
  all_goals obtain ⟨machine, attempt, hmachine, hattempt, rfl⟩ := bridgeStep_machine.mp hstep
  · exact fun sent hsent => (h.network sent hsent).concat
  · exact h.timeline
  · exact h.once
  · refine h.marked_concat (List.Subset.refl _) ?_
    intro id he
    obtain rfl := BridgeEvent.machine.inj he
    obtain ⟨system, _, hsystem, _⟩ := Smtp.machineStep_process.mp hmachine
    rw [← hrestarts]
    exact h.marking id (Queue.step_markDelivered.mp hsystem).1

theorem bridged_of_run {config : DeliveryWorker} {maxLen : Nat} {db : Db}
    (hrun : Bridge.run server templates clients sessions (Bridge.start config maxLen db) es =
      some b) : Bridged templates clients sessions es b := by
  refine Replay.replay_invariant (I := Bridged templates clients sessions)
    (bridged_start config maxLen db) ?_ hrun
  intro es b e b' hpre hI hstep
  cases e with
  | machine e =>
      exact bridged_machine hI (restarts_eq hpre) hstep
  | emit =>
      exact bridged_emit hI hstep
  | exchange x =>
      exact bridged_exchange hI hstep
  | arrive sent =>
      exact bridged_arrive hI hstep

variable (templates clients sessions) in
/-- What a run leaves in the rooms. -/
structure ExactlyOnce (es : List (BridgeEvent RoomId Session)) (b : Bridge RoomId Session) :
    Prop where
  /-- all of it was sent for a row, to the room of its message and as it renders -/
  genuine : ∀ sent ∈ b.timeline, Genuine templates clients sessions es sent
  /-- no row is there twice for one session -/
  once : (b.timeline.map fun sent => (sent.session, sent.transactionId)).Nodup
  /-- a row that has been removed as delivered is there once for the session of its process -/
  delivered : ∀ before id after,
    es = before ++ .machine (.process (.markDelivered id)) :: after →
    ∃! sent, sent ∈ b.timeline ∧
      sent.session = sessions (before.countP BridgeEvent.isRestart) ∧
      sent.transactionId = idempotencyKey id

/-- All attempts for one row in one session go to one room. -/
theorem Genuine.roomId_eq {config : DeliveryWorker} {maxLen : Nat} {db : Db}
    (hrun : Bridge.run server templates clients sessions (Bridge.start config maxLen db) es =
      some b)
    (hsame : ∀ n k, sessions n = sessions k → (clients n).router = (clients k).router)
    {sent sent' : Sent RoomId Session} (h : Genuine templates clients sessions es sent)
    (h' : Genuine templates clients sessions es sent') (hsession : sent.session = sent'.session)
    (hkey : sent.transactionId = sent'.transactionId) : sent.roomId = sent'.roomId := by
  obtain ⟨before, stored, now, after, hes, hcarries⟩ := h
  obtain ⟨before', stored', now', after', hes', hcarries'⟩ := h'
  have hseen : ∀ {before after : List (BridgeEvent RoomId Session)} {stored : StoredMessage}
      {now : Int}, es = before ++ .machine (.process (.deliver stored now)) :: after →
      .deliver stored now ∈ processEvents (machineEvents es) := by
    rintro before after stored now rfl
    refine List.mem_filterMap.mpr ⟨.process (.deliver stored now), ?_, rfl⟩
    exact List.mem_filterMap.mpr ⟨_, List.mem_append_right _ List.mem_cons_self, rfl⟩
  have hid : stored.id = stored'.id := by
    rw [← Queue.idempotencyKey_inj, ← hcarries.transactionId, hkey, hcarries'.transactionId]
  have hmessage := Smtp.message_of_deliver (Smtp.process_runs (machine_runs hrun))
    (hseen hes) (hseen hes') hid
  have hrouter := hsame _ _ (hcarries.session.symm.trans (hsession.trans hcarries'.session))
  rw [hcarries.roomId, hcarries'.roomId, hmessage, hrouter]

/-- **What is in the rooms, SMTP clients have handed over**: on every run from a fresh
database it is the rendering of a message that a session has received, in the room where
the routes of the process want it. -/
theorem timeline_received (server : Server) (templates : Templates)
    (clients : Nat → MatrixClient UserId RoomId Client) (sessions : Nat → Session)
    (config : DeliveryWorker) (maxLen : Nat)
    (es : List (BridgeEvent RoomId Session)) (b : Bridge RoomId Session)
    (hrun : Bridge.run server templates clients sessions
      (Bridge.start config maxLen Db.empty) es = some b) :
    ∀ sent ∈ b.timeline, ∃ n message, n ≤ b.restarts ∧
      Received server (machineEvents es) message ∧
      sent.session = sessions n ∧ sent.roomId = (clients n).router.resolve message ∧
      formatMessage templates message (clients n).messageTemplate = .ok sent.content := by
  have hbridged := bridged_of_run hrun
  intro sent hsent
  obtain ⟨before, stored, now, after, hes, hcarries⟩ :=
    hbridged.network sent (hbridged.timeline hsent)
  refine ⟨before.countP BridgeEvent.isRestart, stored.message, ?_, ?_, hcarries.session,
    hcarries.roomId, hcarries.content⟩
  · rw [restarts_eq hrun, hes, List.countP_append]
    exact Nat.le_add_right _ _
  · apply Smtp.received_of_deliver (machine_runs hrun)
    rw [hes]
    exact List.mem_filterMap.mpr ⟨_, List.mem_append_right _ List.mem_cons_self, rfl⟩

end Rooms

/-- A message is received and sent; the homeserver takes it and its answer is lost.  The
process dies before it has noted the failure, and the next one sends the message again. -/
def answerLost : List (BridgeEvent Str Unit) :=
  let stored : StoredMessage := ⟨1, Smtp.hiMessage, 0⟩
  let sent : Sent Str Unit :=
    { session := (), roomId := "!room".toList, transactionId := idempotencyKey 1,
      content := "hi".toList }
  let attempt : List (BridgeEvent Str Unit) :=
    [ .machine (.process (.claim 7 (some stored))), .machine (.process (.deliver stored 7)),
      .exchange ⟨.getRoom "!room".toList, true⟩,
      .exchange ⟨.encryptionState "!room".toList, .encrypted⟩, .emit, .arrive sent ]
  Smtp.acknowledgedBlock.map .machine ++ attempt ++
    [ .exchange ⟨.send "!room".toList "hi".toList (idempotencyKey 1), .error "timeout".toList⟩,
      .machine (.process (.crash ⟨5, 60⟩ 10)) ] ++ attempt ++
    [ .exchange ⟨.send "!room".toList "hi".toList (idempotencyKey 1), .ok ()⟩,
      .machine (.process (.sinkOk stored 7)), .machine (.process (.markDelivered 1)) ]

theorem answerLost_run :
    ∃ b, Bridge.run Smtp.smallServer bodyTemplates (fun _ => oneRoomClient) (fun _ => ())
      (Bridge.start ⟨5, 60⟩ 10 Db.empty) answerLost = some b ∧ b.timeline.length = 1 := by
  have hrun : (Bridge.run Smtp.smallServer bodyTemplates (fun _ => oneRoomClient) (fun _ => ())
      (Bridge.start ⟨5, 60⟩ 10 Db.empty) answerLost).map
        (fun b => b.timeline.length) = some 1 := by
    decide +kernel
  exact Option.map_eq_some_iff.mp hrun

/-- It has come from the client. -/
theorem answerLost_received :
    ∃ (b : Bridge Str Unit) (sent : Sent Str Unit), sent ∈ b.timeline ∧
      ∃ n message, n ≤ b.restarts ∧
        Received Smtp.smallServer (machineEvents answerLost) message ∧
        sent.session = () ∧ sent.roomId = oneRoomClient.router.resolve message ∧
        formatMessage bodyTemplates message oneRoomClient.messageTemplate = .ok sent.content := by
  obtain ⟨b, hb, hlength⟩ := answerLost_run
  obtain ⟨sent, hsent⟩ := List.exists_mem_of_length_pos (by omega : 0 < b.timeline.length)
  exact ⟨b, sent, hsent, timeline_received _ _ _ _ _ _ _ b hb sent hsent⟩

end Matrix
end ChimneyPost
