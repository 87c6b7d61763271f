import ChimneyPost.Queue.Idempotency
import ChimneyPost.Smtp.Machine
import ChimneyPost.Smtp.RoundTrip

/-!
# Where messages come from

A row is inserted by a closure, a closure is spawned by a turn of a session, and the turn
makes the message of what its client has sent.  So every message the worker sends is one
that a client of this machine has handed over in a complete `DATA` block
(`received_of_deliver`), even when its session was dropped before it was answered.
-/

namespace ChimneyPost
namespace Smtp

open Queue (System Event EnqueueTask DeliveryWorker Db Message StoredMessage)

/-- A session of the run has received the message: it is made of a block of the client's
bytes and of the envelope accepted before that block. -/
def Received (server : Server) (es : List MachineEvent) (message : Message) : Prop :=
  ∃ t reader results c before data result after, .connect t reader ∈ es ∧
    server.converse reader results = some c ∧
    c.events = before ++ .enqueue message result :: after ∧
    before.getLast? = some (.block data) ∧
    message = parseData server.parseMail (acceptedSender server.validateEmail before)
      (acceptedRecipients server.validateEmail before) data

section Runs

variable {server : Server} {config : DeliveryWorker} {maxLen : Nat} {db : Db}
  {es : List MachineEvent} {m m' : Machine}

/-- Every session on the machine converses with a client that has connected. -/
theorem connected_of_run
    (hrun : Machine.run server (Machine.start config maxLen db) es = some m) :
    ∀ t c, m.sessions t = some c → ∃ reader results, .connect t reader ∈ es ∧
      server.converse reader results = some c := by
  refine Replay.replay_invariant (I := fun es m => ∀ t c, m.sessions t = some c →
    ∃ reader results, .connect t reader ∈ es ∧ server.converse reader results = some c)
    ?_ ?_ hrun
  · intro t c hc
    cases hc
  · intro es m e m' _ hI hstep u d hd
    have hkeep : m.sessions u = some d → ∃ reader results,
        .connect u reader ∈ es ++ [e] ∧ server.converse reader results = some d := by
      intro hd
      obtain ⟨reader, results, hmem, hconverse⟩ := hI u d hd
      exact ⟨reader, results, List.mem_append_left _ hmem, hconverse⟩
    have hturn : ∀ {t : Nat} {c c' : Conversation} {result : Except ChimneyError Int},
        m.sessions t = some c → server.step c result = some c' →
        Function.update m.sessions t (some c') u = some d →
        ∃ reader results, .connect u reader ∈ es ++ [e] ∧
          server.converse reader results = some d := by
      intro t c c' result hc hturn hd
      by_cases hu : u = t
      · subst hu
        rw [Function.update_self] at hd
        obtain rfl := Option.some.inj hd
        obtain ⟨reader, results, hmem, hconverse⟩ := hI u c hc
        exact ⟨reader, results ++ [result], List.mem_append_left _ hmem,
          Replay.replay_concat_eq_some.mpr ⟨c, hconverse, hturn⟩⟩
      · rw [Function.update_of_ne hu] at hd
        exact hkeep hd
    cases e with
    | connect t reader =>
        obtain ⟨_, rfl⟩ := machineStep_connect.mp hstep
        by_cases hu : u = t
        · subst hu
          simp only [Function.update_self] at hd
          exact ⟨reader, [], by simp, hd⟩
        · simp only [Function.update_of_ne hu] at hd
          exact hkeep hd
    | turn t =>
        obtain ⟨c, c', hc, _, _, hc', rfl⟩ := machineStep_turn.mp hstep
        exact hturn hc hc' hd
    | call t message createdAt =>
        obtain ⟨c, system, _, _, _, _, rfl⟩ := machineStep_call.mp hstep
        exact hkeep hd
    | answer t message result =>
        obtain ⟨c, c', hc, _, hc', rfl⟩ := machineStep_answer.mp hstep
        exact hturn hc hc' hd
    | leave t =>
        obtain ⟨_, rfl⟩ := machineStep_leave.mp hstep
        rcases update_eq_some hd with hnone | hd
        · cases hnone
        · exact hkeep hd
    | process e =>
        obtain ⟨system, _, _, rfl⟩ := machineStep_process.mp hstep
        cases e with
        | cancel t =>
            rcases update_eq_some hd with hnone | hd
            · cases hnone
            · exact hkeep hd
        | crash config maxLen =>
            cases hd
        | _ =>
            exact hkeep hd
    | checkpoint =>
        obtain rfl := machineStep_checkpoint.mp hstep
        exact hkeep hd

/-- A closure that waits for the connection was spawned by a call. -/
theorem called_of_awaiting
    (hrun : Machine.run server (Machine.start config maxLen db) es = some m) :
    ∀ t message createdAt live, m.system.tasks t = .awaiting message createdAt live →
      .call t message createdAt ∈ es := by
  refine Replay.replay_invariant (I := fun es m => ∀ t message createdAt live,
    m.system.tasks t = .awaiting message createdAt live → .call t message createdAt ∈ es)
    ?_ ?_ hrun
  · intro t message createdAt live htask
    cases htask
  · intro es m e m' _ hI hstep u message createdAt live htask
    have hkeep : ∀ {live}, m.system.tasks u = .awaiting message createdAt live →
        .call u message createdAt ∈ es ++ [e] := by
      intro live htask
      exact List.mem_append_left _ (hI u message createdAt live htask)
    have hupdate : ∀ {t : Nat} {task : EnqueueTask},
        (∀ live, task = .awaiting message createdAt live →
          ∃ live', m.system.tasks t = .awaiting message createdAt live') →
        Function.update m.system.tasks t task u = .awaiting message createdAt live →
        .call u message createdAt ∈ es ++ [e] := by
      intro t task hself htask
      by_cases hu : u = t
      · subst hu
        rw [Function.update_self] at htask
        obtain ⟨live', hlive'⟩ := hself live htask
        exact hkeep hlive'
      · rw [Function.update_of_ne hu] at htask
        exact hkeep htask
    cases e with
    | call t message' createdAt' =>
        obtain ⟨c, system, _, _, _, hsystem, rfl⟩ := machineStep_call.mp hstep
        obtain ⟨_, rfl⟩ := Queue.step_enqueue.mp hsystem
        by_cases hu : u = t
        · subst hu
          simp only [Function.update_self, EnqueueTask.awaiting.injEq] at htask
          obtain ⟨rfl, rfl, _⟩ := htask
          simp
        · simp only [Function.update_of_ne hu] at htask
          exact hkeep htask
    | process e =>
        obtain ⟨system, hcall, hsystem, rfl⟩ := machineStep_process.mp hstep
        cases e with
        | enqueue t message createdAt =>
            cases hcall
        | insert t message' createdAt' live' id =>
            obtain ⟨_, _, _, rfl⟩ := Queue.step_insert.mp hsystem
            refine hupdate ?_ htask
            intro live hawaiting
            split_ifs at hawaiting
        | refuse t message' createdAt' live' error =>
            obtain ⟨_, rfl⟩ := Queue.step_refuse.mp hsystem
            refine hupdate ?_ htask
            intro live hawaiting
            cases hawaiting
        | notify t id =>
            obtain ⟨_, rfl⟩ := Queue.step_notify.mp hsystem
            refine hupdate ?_ htask
            intro live hawaiting
            cases hawaiting
        | cancel t =>
            obtain ⟨_, rfl⟩ := Queue.step_cancel.mp hsystem
            refine hupdate ?_ htask
            intro live hawaiting
            cases ht : m.system.tasks t with
            | awaiting message' createdAt' live' =>
                rw [ht] at hawaiting
                obtain ⟨rfl, rfl, _⟩ := EnqueueTask.awaiting.inj hawaiting
                exact ⟨live', rfl⟩
            | _ =>
                rw [ht] at hawaiting
                cases hawaiting
        | crash config maxLen =>
            obtain rfl := Queue.step_crash.mp hsystem
            cases htask
        | _ =>
            simp at hsystem
            exact hkeep (by simpa [hsystem] using htask)
    | connect t reader =>
        obtain ⟨_, rfl⟩ := machineStep_connect.mp hstep
        exact hkeep htask
    | turn t =>
        obtain ⟨c, c', _, _, _, _, rfl⟩ := machineStep_turn.mp hstep
        exact hkeep htask
    | answer t message' result =>
        obtain ⟨c, c', _, _, _, rfl⟩ := machineStep_answer.mp hstep
        exact hkeep htask
    | leave t =>
        obtain ⟨_, rfl⟩ := machineStep_leave.mp hstep
        exact hkeep htask
    | checkpoint =>
        obtain rfl := machineStep_checkpoint.mp hstep
        exact hkeep htask

/-- What a turn passes to the store is made of a block its session has received. -/
theorem received_of_passes {reader : Reader} {results : List (Except ChimneyError Int)}
    {c : Conversation} {message : Message} {t : Nat} (hmem : .connect t reader ∈ es)
    (hconverse : server.converse reader results = some c)
    (hpasses : server.passes c = some message) :
    Received server es message ∧ Queue.Storable message.toAddrs := by
  obtain ⟨s, hs, hpassed⟩ := Option.bind_eq_some_iff.mp hpasses
  obtain ⟨line, data, reply, hevents, _⟩ := events_of_passed hpassed
  have hturn : server.step c (.error .queueFull) = some
      { events := c.events ++ (server.pass (.error .queueFull) s).events
        session := (server.pass (.error .queueFull) s).session } := by
    exact step_eq_some.mpr ⟨s, hs, rfl⟩
  have hnext : server.converse reader (results ++ [.error .queueFull]) = some _ :=
    Replay.replay_concat_eq_some.mpr ⟨c, hconverse, hturn⟩
  have hall : c.events ++ (server.pass (.error .queueFull) s).events =
      (c.events ++ [.command line .startData, .block data]) ++
        .enqueue message (.error .queueFull) :: [.answer reply] := by
    rw [hevents]
    simp
  constructor
  · obtain ⟨data', hmessage, _, _, hlast⟩ := Server.enqueue_of_converse hnext hall
    exact ⟨t, reader, _, _, _, data', _, _, hmem, hnext, hall, hlast, hmessage⟩
  · have henqueue : SessionEvent.enqueue message (.error .queueFull) ∈
        c.events ++ (server.pass (.error .queueFull) s).events := by
      rw [hevents]
      simp
    exact storable_of_enqueue hnext henqueue

theorem Received.mono {fs : List MachineEvent} {message : Message}
    (h : Received server es message) (hsub : es ⊆ fs) : Received server fs message := by
  obtain ⟨t, reader, results, c, before, data, result, after, hmem, hrest⟩ := h
  exact ⟨t, reader, results, c, before, data, result, after, hsub hmem, hrest⟩

/-- What has been inserted has been received, and can be read back. -/
theorem received_of_insert {t : Nat} {message : Message} {createdAt id : Int} {live : Bool}
    (hrun : Machine.run server (Machine.start config maxLen db) es = some m)
    (hmem : .process (.insert t message createdAt live id) ∈ es) :
    Received server es message ∧ Queue.Storable message.toAddrs := by
  obtain ⟨pre, post, rfl⟩ := List.append_of_mem hmem
  obtain ⟨m₁, m₂, hpre, hinsert, _⟩ := Replay.replay_at hrun
  obtain ⟨system, _, hsystem, _⟩ := machineStep_process.mp hinsert
  have hcall := called_of_awaiting hpre t message createdAt live
    (Queue.step_insert.mp hsystem).1
  obtain ⟨pre', post', rfl⟩ := List.append_of_mem hcall
  obtain ⟨m₃, m₄, hpre', hstep, _⟩ := Replay.replay_at hpre
  obtain ⟨c, _, hc, _, hpasses, _, _⟩ := machineStep_call.mp hstep
  obtain ⟨reader, results, hconnect, hconverse⟩ := connected_of_run hpre' t c hc
  obtain ⟨hreceived, hstorable⟩ := received_of_passes hconnect hconverse hpasses
  refine ⟨hreceived.mono ?_, hstorable⟩
  rw [List.append_assoc]
  exact List.subset_append_left _ _

end Runs

/-! ## What the worker sends -/

section Deliveries

open Queue (Origin allotted)

variable {config : DeliveryWorker} {maxLen : Nat} {db : Db} {es : List Event} {s : System}

/-- A row that is sent has an origin, and the message is the one it was made with. -/
theorem origin_of_deliver {stored : StoredMessage} {now : Int}
    (hrun : Queue.run (System.start config maxLen db) es = some s)
    (hmem : .deliver stored now ∈ es) :
    ∃ o c, (stored.id, o) ∈ allotted db es ∧ o.entry db es = some (stored.id, c) ∧
      stored.message = c.message := by
  obtain ⟨pre, post, rfl⟩ := List.append_of_mem hmem
  obtain ⟨t, t', hpre, hstep, _⟩ := Replay.replay_at hrun
  obtain ⟨o, _, hallotted, r, hr, hstored⟩ :=
    Queue.attempted_eq_some hpre (Queue.step_deliver.mp hstep).1
  obtain ⟨c, hentry, hkeeps⟩ := Queue.allotted_keeps hpre _ hallotted
  refine ⟨o, c, Queue.allotted_subset_append db pre _ hallotted,
    Queue.Origin.entry_append hentry, ?_⟩
  have hid : r.id = stored.id := by
    rw [← hstored]
    rfl
  rw [← hkeeps.columns r hr hid, ← hstored]
  rfl

/-- All attempts for one row carry one message. -/
theorem message_of_deliver {stored stored' : StoredMessage} {now now' : Int}
    (hrun : Queue.run (System.start config maxLen db) es = some s)
    (hmem : .deliver stored now ∈ es) (hmem' : .deliver stored' now' ∈ es)
    (hid : stored.id = stored'.id) : stored.message = stored'.message := by
  obtain ⟨o, c, hallotted, hentry, hmessage⟩ := origin_of_deliver hrun hmem
  obtain ⟨o', c', hallotted', hentry', hmessage'⟩ := origin_of_deliver hrun hmem'
  have ho : o = o' := (Queue.allotted_inj hrun hallotted hallotted').mp hid
  subst ho
  have hc : (stored.id, c) = (stored'.id, c') := Option.some.inj (hentry.symm.trans hentry')
  rw [hmessage, hmessage', (Prod.mk.inj hc).2]

/-- A row of a fresh database was inserted. -/
theorem insert_of_entry {o : Origin} {id : Int} {c : Queue.MailColumns}
    (h : o.entry Db.empty es = some (id, c)) :
    ∃ t message createdAt live, .insert t message createdAt live id ∈ es ∧
      message.columns = c := by
  cases o with
  | initial place =>
      cases h
  | inserted position =>
      obtain ⟨e, he, hposting⟩ := Option.bind_eq_some_iff.mp h
      have hmem := List.mem_of_getElem? he
      cases e with
      | insert t message createdAt live id' =>
          simp only [Event.posting, Option.bind_some, Ledger.Posting.accepted,
            Option.some.injEq, Prod.mk.injEq] at hposting
          obtain ⟨rfl, rfl⟩ := hposting
          exact ⟨t, message, createdAt, live, hmem, rfl⟩
      | _ =>
          simp [Event.posting, Ledger.Posting.accepted] at hposting

/-- **What the worker sends, a client has handed over**, on every run from a fresh
database. -/
theorem received_of_deliver {server : Server} {config : DeliveryWorker} {maxLen : Nat}
    {es : List MachineEvent} {m : Machine} {stored : StoredMessage} {now : Int}
    (hrun : Machine.run server (Machine.start config maxLen Db.empty) es = some m)
    (hmem : .process (.deliver stored now) ∈ es) : Received server es stored.message := by
  have hseen : .deliver stored now ∈ processEvents es := by
    exact List.mem_filterMap.mpr ⟨_, hmem, rfl⟩
  obtain ⟨o, c, _, hentry, hmessage⟩ := origin_of_deliver (process_runs hrun) hseen
  obtain ⟨t, message, createdAt, live, hinsert, rfl⟩ := insert_of_entry hentry
  obtain ⟨e, he, hseen⟩ := List.mem_filterMap.mp hinsert
  have hprocess : e = .process (.insert t message createdAt live stored.id) := by
    cases e with
    | process e =>
        rw [Option.some.inj hseen]
    | call t message createdAt =>
        cases hseen
    | _ =>
        cases hseen
  rw [hprocess] at he
  obtain ⟨hreceived, hstorable⟩ := received_of_insert hrun he
  rw [hmessage, Queue.Message.message_columns hstorable]
  exact hreceived

end Deliveries

end Smtp
end ChimneyPost
