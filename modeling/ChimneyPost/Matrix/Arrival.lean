import ChimneyPost.Matrix.Timeline
import ChimneyPost.Queue.Progress

/-!
# What is acknowledged arrives

From the 250 of a session to the room.  A message whose block has been answered 250 is in
the outbox, in its room or in the dead-letter table, over every run with its restarts; and
a worker that can go on for long enough comes to a point at which the outbox is empty
(`Queue/Progress.lean`).  At that point every message acknowledged so far is in the room its
recipients are routed to, as the process renders it, or in the dead-letter table
(`acknowledged_arrives`).
-/

namespace ChimneyPost
namespace Matrix

open Queue (Event DeliveryWorker Db Message MailColumns StoredMessage System Paced Tick Fits
  Delivered Buried Kept idempotencyKey allotted Origin)
open Smtp (Server Machine MachineEvent Acknowledged processEvents)

variable {UserId RoomId Client Session : Type}

/-! ## The row of a message -/

section Rows

variable {config : DeliveryWorker} {maxLen : Nat} {db : Db} {es : List Event} {s : System}

/-- What is sent for a row is the message it was inserted for. -/
theorem message_of_insert {t : Nat} {message : Message} {createdAt now : Int} {live : Bool}
    {stored : StoredMessage} (hrun : Queue.run (System.start config maxLen db) es = some s)
    (hinsert : .insert t message createdAt live stored.id ∈ es)
    (hdeliver : .deliver stored now ∈ es) : stored.message = message.columns.message := by
  obtain ⟨o, c, hallotted, hentry, hmessage⟩ := Smtp.origin_of_deliver hrun hdeliver
  obtain ⟨pre, post, rfl⟩ := List.append_of_mem hinsert
  have hplace : (stored.id, Origin.inserted pre.length) ∈
      allotted db (pre ++ .insert t message createdAt live stored.id :: post) := by
    rw [← List.singleton_append, ← List.append_assoc]
    apply Queue.allotted_subset_append
    rw [Queue.allotted_concat]
    exact List.mem_append_right _ (List.mem_singleton_self _)
  obtain rfl := (Queue.allotted_inj hrun hallotted hplace).mp rfl
  have hcolumns : (stored.id, message.columns) = (stored.id, c) := by
    refine Option.some.inj (Eq.trans ?_ hentry)
    rw [Origin.entry, List.getElem?_append_right (le_refl _), Nat.sub_self]
    rfl
  rw [hmessage, ← (Prod.mk.inj hcolumns).2]

/-- A message that has been inserted is kept. -/
theorem kept_of_insert {t : Nat} {message : Message} {createdAt id : Int} {live : Bool}
    (hrun : Queue.run (System.start config maxLen db) es = some s)
    (hinsert : .insert t message createdAt live id ∈ es) : Kept (id, message.columns) es s.db := by
  obtain ⟨pre, post, rfl⟩ := List.append_of_mem hinsert
  obtain ⟨u, v, hpre, hstep, hpost⟩ := Replay.replay_at hrun
  have hthere : Queue.run (System.start config maxLen db)
      (pre ++ [.insert t message createdAt live id]) = some v :=
    Replay.replay_concat_eq_some.mpr ⟨u, hpre, hstep⟩
  obtain ⟨_, _, rfl, rfl⟩ := Queue.step_insert.mp hstep
  have hrow : Kept (u.db.outboxSeq + 1, message.columns)
      (pre ++ [.insert t message createdAt live (u.db.outboxSeq + 1)])
      (u.db.insertOutbox message.columns createdAt) :=
    Or.inl ⟨_, Queue.Db.mem_insertOutbox.mpr (Or.inr rfl), rfl⟩
  have hkept := Queue.kept_run (Queue.run_justified hthere) hrow hpost
  rwa [List.append_assoc, List.singleton_append] at hkept

end Rows

/-! ## What the process sees of a run -/

section Seen

variable {es : List (BridgeEvent RoomId Session)}

theorem processEvents_append (fs gs : List MachineEvent) :
    processEvents (fs ++ gs) = processEvents fs ++ processEvents gs :=
  List.filterMap_append

theorem mem_of_mem_processEvents {e : Event}
    (h : e ∈ processEvents (machineEvents es)) (hcall : Smtp.Event.isCall e = false) :
    .machine (.process e) ∈ es := by
  obtain ⟨f, hf, hseen⟩ := List.mem_filterMap.mp h
  have hprocess : f = .process e := by
    cases f with
    | process f =>
        rw [Option.some.inj hseen]
    | call t message createdAt =>
        obtain rfl := Option.some.inj hseen
        cases hcall
    | _ =>
        cases hseen
  obtain ⟨g, hg, hmachine⟩ := List.mem_filterMap.mp hf
  cases g with
  | machine g =>
      rw [← hprocess, ← Option.some.inj hmachine]
      exact hg
  | _ =>
      cases hmachine

/-- A point of what the process sees is a point of the run. -/
theorem exists_prefix {front back : List Event}
    (h : processEvents (machineEvents es) = front ++ back) :
    ∃ mid post, es = mid ++ post ∧ processEvents (machineEvents mid) = front := by
  obtain ⟨ms, ms', hms, hfront, _⟩ := List.filterMap_eq_append_iff.mp h
  obtain ⟨mid, post, hmid, hmachine, _⟩ := List.filterMap_eq_append_iff.mp hms
  refine ⟨mid, post, hmid, ?_⟩
  rw [machineEvents, hmachine]
  exact hfront

end Seen

/-! ## From the sink to the room -/

section Rooms

variable (templates : Templates) (clients : Nat → MatrixClient UserId RoomId Client)
  (sessions : Nat → Session)

/-- The message of a row is in the room where a process of the run wants it, as that process
renders it. -/
def Arrived (b : Bridge RoomId Session) (id : Int) (message : Message) : Prop :=
  ∃ n, n ≤ b.restarts ∧ ∃ sent ∈ b.timeline, sent.session = sessions n ∧
    sent.transactionId = idempotencyKey id ∧
    sent.roomId = (clients n).router.resolve message ∧
    formatMessage templates message (clients n).messageTemplate = .ok sent.content

variable {templates clients sessions} [DecidableEq RoomId] [DecidableEq Session]
  {server : Server} {config : DeliveryWorker} {maxLen : Nat} {db : Db}
  {es : List (BridgeEvent RoomId Session)} {b b' : Bridge RoomId Session}

theorem timeline_step {e : BridgeEvent RoomId Session}
    (hstep : Bridge.step server templates clients sessions b e = some b') :
    b.timeline ⊆ b'.timeline := by
  cases e with
  | machine e =>
      obtain ⟨machine, attempt, _, _, rfl⟩ := bridgeStep_machine.mp hstep
      exact List.Subset.refl _
  | emit =>
      obtain ⟨_, _, _, _, _, rfl⟩ := bridgeStep_emit.mp hstep
      exact List.Subset.refl _
  | exchange x =>
      obtain ⟨_, _, _, rfl⟩ := bridgeStep_exchange.mp hstep
      exact List.Subset.refl _
  | arrive sent =>
      obtain ⟨_, rfl⟩ := bridgeStep_arrive.mp hstep
      exact Receipt.subset_receive

/-- What is in the rooms stays there. -/
theorem timeline_run (hrun : Bridge.run server templates clients sessions b es = some b') :
    b.timeline ⊆ b'.timeline := by
  refine Replay.replay_invariant
    (I := fun _ (c : Bridge RoomId Session) => b.timeline ⊆ c.timeline)
    (List.Subset.refl _) ?_ hrun
  intro _ c e c' _ hI hstep
  exact List.Subset.trans hI (timeline_step hstep)

/-- What the sink has answered `Ok` for is in a room. -/
theorem present_of_sinkOk
    (hrun : Bridge.run server templates clients sessions (Bridge.start config maxLen db) es =
      some b) {stored : StoredMessage} {now : Int}
    (hmem : .machine (.process (.sinkOk stored now)) ∈ es) :
    ∃ sent ∈ b.timeline, sent.transactionId = idempotencyKey stored.id := by
  obtain ⟨pre, post, rfl⟩ := List.append_of_mem hmem
  obtain ⟨c, c', hpre, hstep, hpost⟩ := Replay.replay_at hrun
  obtain ⟨machine, attempt, hmachine, hattempt, rfl⟩ := bridgeStep_machine.mp hstep
  obtain ⟨system, _, hsystem, _⟩ := Smtp.machineStep_process.mp hmachine
  rw [Bridge.attemptAfter] at hattempt
  split_ifs at hattempt with hok
  obtain ⟨sent, hsent, _, hkey⟩ :=
    (bridged_of_run hpre).present_of_ok hok (Queue.step_sinkOk.mp hsystem).1
  exact ⟨sent, timeline_run hpost hsent, hkey⟩

/-- A message that is in a room for its row is there as its process renders it. -/
theorem arrived_of_delivered
    (hrun : Bridge.run server templates clients sessions (Bridge.start config maxLen db) es =
      some b) {t : Nat} {message : Message} {createdAt id : Int} {live : Bool}
    (hinsert : .process (.insert t message createdAt live id) ∈ machineEvents es)
    (h : Delivered (processEvents (machineEvents es)) id) :
    Arrived templates clients sessions b id message := by
  obtain ⟨stored, now, hsink, rfl⟩ := h
  have hbridged := bridged_of_run hrun
  obtain ⟨sent, hsent, hkey⟩ := present_of_sinkOk hrun (mem_of_mem_processEvents hsink rfl)
  obtain ⟨before, stored', now', after, hes, hcarries⟩ :=
    hbridged.network sent (hbridged.timeline hsent)
  have hid : stored'.id = stored.id := by
    rw [← Queue.idempotencyKey_inj, ← hcarries.transactionId, hkey]
  have hmessage : stored'.message = message := by
    have hdeliver : .deliver stored' now' ∈ processEvents (machineEvents es) := by
      refine List.mem_filterMap.mpr ⟨.process (.deliver stored' now'), ?_, rfl⟩
      rw [hes]
      exact List.mem_filterMap.mpr ⟨_, List.mem_append_right _ List.mem_cons_self, rfl⟩
    have hrow : .insert t message createdAt live stored'.id ∈ processEvents (machineEvents es) := by
      rw [hid]
      exact List.mem_filterMap.mpr ⟨_, hinsert, rfl⟩
    rw [message_of_insert (Smtp.process_runs (machine_runs hrun)) hrow hdeliver]
    exact Message.message_columns (Smtp.received_of_insert (machine_runs hrun) hinsert).2
  refine ⟨before.countP BridgeEvent.isRestart, ?_, sent, hsent, hcarries.session, hkey, ?_, ?_⟩
  · rw [restarts_eq hrun, hes, List.countP_append]
    exact Nat.le_add_right _ _
  · rw [hcarries.roomId, hmessage]
  · rw [← hcarries.content, hmessage]

/-- With the outbox empty, whatever has been acknowledged has gone somewhere. -/
theorem settled_of_empty
    (hrun : Bridge.run server templates clients sessions (Bridge.start config maxLen db) es =
      some b) (hempty : b.machine.system.db.outbox = []) {id : Int} {message : Message}
    (hack : Acknowledged (machineEvents es) id message) :
    Arrived templates clients sessions b id message ∨
      Buried b.machine.system.db message.columns := by
  obtain ⟨t, createdAt, hinsert⟩ := Smtp.inserted_of_acknowledged (machine_runs hrun) hack
  have hkept := kept_of_insert (Smtp.process_runs (machine_runs hrun))
    (List.mem_filterMap.mpr ⟨_, hinsert, rfl⟩)
  rcases hkept with ⟨r, hr, _⟩ | hdelivered | hburied
  · rw [hempty] at hr
    cases hr
  · exact Or.inl (arrived_of_delivered hrun hinsert hdelivered)
  · exact Or.inr hburied

/-! ## The outbox empties on the machine -/

/-- The process moves as it would alone, from wherever it is. -/
theorem system_run (hrun : Bridge.run server templates clients sessions b es = some b') :
    Queue.run b.machine.system (processEvents (machineEvents es)) = some b'.machine.system := by
  refine Replay.replay_invariant (I := fun es (c : Bridge RoomId Session) =>
    Queue.run b.machine.system (processEvents (machineEvents es)) = some c.machine.system)
    rfl ?_ hrun
  intro es c e c' _ hI hstep
  rw [machineEvents_append, processEvents_append]
  refine Replay.replay_append_eq_some.mpr ⟨_, hI, ?_⟩
  cases e with
  | machine e =>
      obtain ⟨machine, attempt, hmachine, _, rfl⟩ := bridgeStep_machine.mp hstep
      have hseen : processEvents
          (machineEvents [(.machine e : BridgeEvent RoomId Session)]) = e.seen.toList := by
        cases hseen : e.seen with
        | none => simp [machineEvents, processEvents, hseen]
        | some seen => simp [machineEvents, processEvents, hseen]
      rw [hseen]
      exact Smtp.seen_step hmachine
  | emit =>
      obtain ⟨_, _, _, _, _, rfl⟩ := bridgeStep_emit.mp hstep
      rfl
  | exchange x =>
      obtain ⟨_, _, _, rfl⟩ := bridgeStep_exchange.mp hstep
      rfl
  | arrive sent =>
      obtain ⟨_, rfl⟩ := bridgeStep_arrive.mp hstep
      rfl

/-- The running process has been keeping pace since it started. -/
structure InPace (config : DeliveryWorker) (b : Bridge RoomId Session) (p : Paced) : Prop where
  system : p.system = b.machine.system
  reached : ∃ maxLen db clock ticks, Fits config.maxRetries db ∧ 0 ≤ clock ∧
    Replay.replay Paced.step (Paced.start config maxLen db clock) ticks = some p

/-- **What is acknowledged arrives.**  However the sessions, the process, the network and the
homeserver have moved, restarts included: when the process that runs now has kept pace, and
from here on its worker makes more moves than the outbox and the events of the outside
account for, there is a point by which every message that has been answered 250 is in its room, or
in the dead-letter table. -/
theorem acknowledged_arrives (server : Server) (templates : Templates)
    (clients : Nat → MatrixClient UserId RoomId Client) (sessions : Nat → Session)
    (config : DeliveryWorker) (maxLen : Nat) (db : Db)
    (past : List (BridgeEvent RoomId Session)) (b : Bridge RoomId Session)
    (hpast : Bridge.run server templates clients sessions (Bridge.start config maxLen db) past =
      some b)
    (running : DeliveryWorker) (p : Paced) (hpace : InPace running b p)
    (es : List (BridgeEvent RoomId Session)) (b' : Bridge RoomId Session)
    (hrun : Bridge.run server templates clients sessions b es = some b')
    (ticks : List Tick) (p' : Paced)
    (hticks : Queue.events ticks = processEvents (machineEvents es))
    (hpaced : Replay.replay Paced.step p ticks = some p')
    (hlong : 8 * b.machine.system.db.budget running.maxRetries + 12 +
      Queue.granted running.maxRetries ticks < Queue.worked ticks) :
    ∃ mid post c, es = mid ++ post ∧
      Bridge.run server templates clients sessions b mid = some c ∧
      c.machine.system.db.outbox = [] ∧
      ∀ id message, Acknowledged (machineEvents (past ++ mid)) id message →
        Arrived templates clients sessions c id message ∨
          Buried c.machine.system.db message.columns := by
  obtain ⟨hsystem, _, _, _, _, hfits, hclock, hreached⟩ := hpace
  have hpacing := Queue.pacing_run (Queue.pacing_start _ hfits hclock) hreached
  have hpotential := Queue.potential_le hpacing
  rw [hsystem] at hpotential
  obtain ⟨front, back, u, hsplit, hfront, hrest⟩ := (Queue.paced_pays running).rests hpacing hpaced
    (by rw [Queue.worked, Queue.granted] at hlong; omega)
  rw [hsplit, Queue.events, List.map_append] at hticks
  obtain ⟨mid, post, rfl, hmid⟩ := exists_prefix hticks.symm
  obtain ⟨c, hc, _⟩ := Replay.replay_append_eq_some.mp hrun
  have hsame : c.machine.system = u.system := by
    have hbridge := system_run hc
    rw [hmid, ← hsystem, ← Queue.events, Queue.run_of_paced hfront] at hbridge
    exact (Option.some.inj hbridge).symm
  have hempty : c.machine.system.db.outbox = [] := by
    rw [hsame]
    exact hrest
  refine ⟨mid, post, c, rfl, hc, hempty, fun id message hack => ?_⟩
  exact settled_of_empty (Replay.replay_append_eq_some.mpr ⟨b, hpast, hc⟩) hempty hack

end Rooms

/-- The message of a client has been answered 250, and no more. -/
def handedOver : List (BridgeEvent Str Unit) :=
  Smtp.acknowledgedBlock.map .machine

def handedOverTicks : List Tick :=
  [⟨5, .enqueue 0 Smtp.hiMessage 5⟩, ⟨5, .insert 0 Smtp.hiMessage 5 true 1⟩, ⟨5, .notify 0 1⟩]

/-- The worker sends it, and sleeps for hours. -/
def sentTicks : List Tick :=
  let stored : StoredMessage := ⟨1, Smtp.hiMessage, 0⟩
  [⟨7, .claim 7 (some stored)⟩, ⟨7, .deliver stored 7⟩, ⟨8, .sinkOk stored 7⟩,
    ⟨8, .markDelivered 1⟩, ⟨8, .claim 8 none⟩, ⟨8, .nothingDue 8⟩, ⟨8, .nextWakeup 8⟩,
    ⟨8, .wakeNotified⟩] ++
    Queue.idleRound 8 ++ Queue.idleRound 3608 ++ Queue.idleRound 7208 ++ Queue.idleRound 10808

/-- The same with the requests of the client. -/
def sentAndAsleep : List (BridgeEvent Str Unit) :=
  let sent : Sent Str Unit :=
    { session := (), roomId := "!room".toList, transactionId := idempotencyKey 1,
      content := "hi".toList }
  ((Queue.events sentTicks).take 2).map (fun e => .machine (.process e)) ++
    [ .exchange ⟨.getRoom "!room".toList, true⟩,
      .exchange ⟨.encryptionState "!room".toList, .encrypted⟩, .emit, .arrive sent,
      .exchange ⟨.send "!room".toList "hi".toList (idempotencyKey 1), .ok ()⟩ ] ++
    ((Queue.events sentTicks).drop 2).map fun e => .machine (.process e)

/-- The runs with their ticks. -/
theorem handedOver_run :
    (∃ b b', Bridge.run Smtp.smallServer bodyTemplates (fun _ => oneRoomClient) (fun _ => ())
        (Bridge.start ⟨0, 60⟩ 10 Db.empty) handedOver = some b ∧
      Bridge.run Smtp.smallServer bodyTemplates (fun _ => oneRoomClient) (fun _ => ())
        b sentAndAsleep = some b') ∧
    ∃ p p', Replay.replay Paced.step (Paced.start ⟨0, 60⟩ 10 Db.empty 5) handedOverTicks = some p ∧
      Replay.replay Paced.step p sentTicks = some p' ∧ p.system.db.budget 0 = 1 := by
  have hbridge : (Bridge.run Smtp.smallServer bodyTemplates (fun _ => oneRoomClient)
      (fun _ => ()) (Bridge.start ⟨0, 60⟩ 10 Db.empty)
        (handedOver ++ sentAndAsleep)).isSome = true := by
    decide +kernel
  have hticks : (Replay.replay Paced.step (Paced.start ⟨0, 60⟩ 10 Db.empty 5)
      (handedOverTicks ++ sentTicks)).isSome = true := by
    decide +kernel
  have hbudget : (Replay.replay Paced.step (Paced.start ⟨0, 60⟩ 10 Db.empty 5)
      handedOverTicks).map (fun p => p.system.db.budget 0) = some 1 := by
    decide +kernel
  obtain ⟨b', hb'⟩ := Option.isSome_iff_exists.mp hbridge
  obtain ⟨p', hp'⟩ := Option.isSome_iff_exists.mp hticks
  obtain ⟨b, hb, hafter⟩ := Replay.replay_append_eq_some.mp hb'
  obtain ⟨p, hp, hlater⟩ := Replay.replay_append_eq_some.mp hp'
  rw [hp] at hbudget
  exact ⟨⟨b, b', hb, hafter⟩, p, p', hp, hlater, Option.some.inj hbudget⟩

/-- The message has arrived. -/
theorem handedOver_arrives :
    ∃ mid post c, sentAndAsleep = mid ++ post ∧ c.machine.system.db.outbox = [] ∧
      (Arrived bodyTemplates (fun _ => oneRoomClient) (fun _ => ()) c 1 Smtp.hiMessage ∨
        Buried c.machine.system.db Smtp.hiMessage.columns) := by
  obtain ⟨⟨b, b', hb, hafter⟩, p, p', hp, hlater, hbudget⟩ := handedOver_run
  have hsame : p.system = b.machine.system := by
    have hseen : Queue.events handedOverTicks = processEvents (machineEvents handedOver) := rfl
    have hmachine := system_run hb
    rw [← hseen] at hmachine
    exact Option.some.inj ((Queue.run_of_paced hp).symm.trans hmachine)
  obtain ⟨mid, post, c, hsplit, _, hempty, hall⟩ :=
    acknowledged_arrives Smtp.smallServer bodyTemplates (fun _ => oneRoomClient) (fun _ => ())
      ⟨0, 60⟩ 10 Db.empty handedOver b hb ⟨0, 60⟩ p
      ⟨hsame, 10, Db.empty, 5, handedOverTicks,
        ⟨by decide, by simp [Db.empty], by simp [Db.empty]⟩, by decide, hp⟩
      sentAndAsleep b' hafter sentTicks p' rfl hlater
      (by rw [← hsame, hbudget]; decide)
  refine ⟨mid, post, c, hsplit, hempty, hall 1 Smtp.hiMessage ⟨0, ?_⟩⟩
  simp [handedOver, machineEvents, Smtp.acknowledgedBlock]

end Matrix
end ChimneyPost
