import ChimneyPost.Lib.History
import ChimneyPost.Smtp.Machine

/-!
# Acknowledged mail and power loss

A block is answered 250 once its `INSERT` is committed.  The schema sets
`synchronous=NORMAL`, and in this mode a commit does not wait for stable storage.  A
power loss thus takes the messages with it that were answered 250 and whose rows have
been committed since the last checkpoint, and no others (`survives_iff`).  Under
`synchronous=FULL` it would take none (`survives_full`).
-/

namespace ChimneyPost
namespace Smtp

open Queue (System Event Change DeliveryWorker Db Message)
open WriteAhead (Synchronous Reopened)

/-- `PRAGMA synchronous` of the schema. -/
def synchronous : Synchronous := .normal

/-- A session has answered a block 250, whose message is in row `id`. -/
def Acknowledged (es : List MachineEvent) (id : Int) (message : Message) : Prop :=
  ∃ t, .answer t message (.ok id) ∈ es

/-- Row `id` has neither been delivered nor dead-lettered. -/
structure Outstanding (es : List MachineEvent) (id : Int) : Prop where
  delivered : ∀ stored now, .process (.sinkOk stored now) ∈ es → stored.id ≠ id
  buried : ∀ text failedAt, .process (.deadLetter id text failedAt) ∉ es

/-- The outbox has the row of the message, with its content. -/
def Holds (id : Int) (message : Message) (db : Db) : Prop :=
  ∃ r ∈ db.outbox, r.id = id ∧ r.toMailColumns = message.columns

/-- Whatever a power loss leaves, it leaves the acknowledged mail that is outstanding. -/
def Survives (mode : Synchronous) (es : List MachineEvent) (m : Machine) : Prop :=
  ∀ db, Reopened Change.apply m.log mode db → ∀ id message,
    Acknowledged es id message → Outstanding es id → Holds id message db

def MachineEvent.isCheckpoint : MachineEvent → Bool
  | .checkpoint => true
  | _ => false

/-- Row `id` has been inserted after the last checkpoint. -/
def Recent (es : List MachineEvent) (id : Int) : Prop :=
  ∃ t message createdAt live, .process (.insert t message createdAt live id) ∈
    History.since MachineEvent.isCheckpoint es

/-- No acknowledged mail that is outstanding is newer than the last checkpoint. -/
def NothingRecent (es : List MachineEvent) : Prop :=
  ∀ id message, Acknowledged es id message → Outstanding es id → ¬ Recent es id

/-! ## Rows that stay -/

theorem Outstanding.of_append {es fs : List MachineEvent} {id : Int}
    (h : Outstanding (es ++ fs) id) : Outstanding es id := by
  constructor
  · intro stored now hmem
    exact h.delivered stored now (List.mem_append_left _ hmem)
  · intro text failedAt hmem
    exact h.buried text failedAt (List.mem_append_left _ hmem)

theorem holds_insertOutbox (db : Db) (message : Message) (createdAt : Int) :
    Holds (db.outboxSeq + 1) message (db.insertOutbox message.columns createdAt) := by
  exact ⟨_, Db.mem_insertOutbox.mpr (Or.inr rfl), rfl, rfl⟩

/-- The changes that leave row `id` in the outbox. -/
def Spares (id : Int) : Change → Prop
  | .delete id' => id' ≠ id
  | .bury id' _ _ => id' ≠ id
  | _ => True

theorem Holds.apply {id : Int} {message : Message} {db : Db} {c : Change}
    (h : Holds id message db) (hspares : Spares id c) : Holds id message (c.apply db) := by
  obtain ⟨r, hr, hid, hcolumns⟩ := h
  cases c with
  | nothing => exact ⟨r, hr, hid, hcolumns⟩
  | insert columns createdAt =>
      exact ⟨r, Db.mem_insertOutbox.mpr (Or.inl hr), hid, hcolumns⟩
  | delete id' =>
      refine ⟨r, Queue.MessageStore.mem_markDelivered.mpr ⟨hr, ?_⟩, hid, hcolumns⟩
      rw [hid]
      exact Ne.symm hspares
  | bury id' text failedAt =>
      refine ⟨r, Queue.MessageStore.mem_deadLetter.mpr ⟨hr, ?_⟩, hid, hcolumns⟩
      rw [hid]
      exact Ne.symm hspares
  | schedule id' attempts next =>
      refine ⟨Db.setSchedule id' attempts next r,
        Queue.MessageStore.mem_reschedule.mpr ⟨r, hr, rfl⟩, ?_, ?_⟩
      · rw [Db.setSchedule_id, hid]
      · rw [Db.setSchedule_columns, hcolumns]

section Runs

variable {server : Server} {config : DeliveryWorker} {maxLen : Nat} {db : Db}
  {es : List MachineEvent} {m m' : Machine}

/-- A row is deleted after the sink has taken its message, or it is dead-lettered. -/
theorem spares_step {e : Event} {id : Int}
    (hrun : Machine.run server (Machine.start config maxLen db) es = some m)
    (hstep : Machine.step server m (.process e) = some m')
    (h : Outstanding (es ++ [.process e]) id) : Spares id e.change := by
  obtain ⟨system, _, hsystem, _⟩ := machineStep_process.mp hstep
  cases e with
  | markDelivered id' =>
      rintro rfl
      have hjustified := Queue.run_justified (process_runs hrun)
      obtain ⟨stored, now, hmem, hid⟩ :=
        hjustified.marking id' (Queue.step_markDelivered.mp hsystem).1
      obtain ⟨e, he, hseen⟩ := List.mem_filterMap.mp hmem
      cases e with
      | process e =>
          obtain rfl := Option.some.inj hseen
          exact h.of_append.delivered stored now he hid
      | _ => cases hseen
  | deadLetter id' text failedAt =>
      rintro rfl
      exact h.buried text failedAt (by simp)
  | _ => trivial

/-- The rows a run has inserted, in the tables and in the log. -/
structure RowsKept (es : List MachineEvent) (m : Machine) : Prop where
  present : ∀ t message createdAt live id,
    .process (.insert t message createdAt live id) ∈ es → Outstanding es id →
    Holds id message m.system.db
  checkpointed : ∀ t message createdAt live id,
    .process (.insert t message createdAt live id) ∈ es → Outstanding es id →
    ¬ Recent es id → Holds id message m.log.checkpointed
  spared : ∀ c ∈ m.log.commits, ∀ id, Outstanding es id → Spares id c
  /-- recent ids are above those the checkpoint knows -/
  above : ∀ id, Recent es id → m.log.checkpointed.outboxSeq < id
  seq_le : m.log.checkpointed.outboxSeq ≤ m.system.db.outboxSeq

theorem recent_concat {e : MachineEvent} {id : Int} (he : e.isCheckpoint = false) :
    Recent (es ++ [e]) id ↔ Recent es id ∨
      ∃ t message createdAt live, e = .process (.insert t message createdAt live id) := by
  rw [Recent, Recent, History.since_concat_of_neg es he]
  constructor
  · rintro ⟨t, message, createdAt, live, hmem⟩
    rcases List.mem_append.mp hmem with hmem | hmem
    · exact Or.inl ⟨t, message, createdAt, live, hmem⟩
    · exact Or.inr ⟨t, message, createdAt, live, (List.mem_singleton.mp hmem).symm⟩
  · rintro (⟨t, message, createdAt, live, hmem⟩ | ⟨t, message, createdAt, live, rfl⟩)
    · exact ⟨t, message, createdAt, live, List.mem_append_left _ hmem⟩
    · exact ⟨t, message, createdAt, live, by simp⟩

/-- Events that write nothing. -/
theorem RowsKept.keep {e : MachineEvent} (h : RowsKept es m) (hdb : m'.system.db = m.system.db)
    (hlog : m'.log = m.log) (he : e.isCheckpoint = false)
    (hinsert : ∀ t message createdAt live id,
      e ≠ .process (.insert t message createdAt live id)) :
    RowsKept (es ++ [e]) m' := by
  have hmem : ∀ t message createdAt live id,
      .process (.insert t message createdAt live id) ∈ es ++ [e] →
      .process (.insert t message createdAt live id) ∈ es := by
    intro t message createdAt live id hmem
    rcases List.mem_append.mp hmem with hmem | hmem
    · exact hmem
    · exact absurd (List.mem_singleton.mp hmem).symm (hinsert t message createdAt live id)
  have hrecent : ∀ id, Recent (es ++ [e]) id ↔ Recent es id := by
    intro id
    rw [recent_concat he]
    constructor
    · rintro (hold | ⟨t, message, createdAt, live, hnew⟩)
      · exact hold
      · exact absurd hnew (hinsert t message createdAt live id)
    · exact Or.inl
  constructor
  · rw [hdb]
    intro t message createdAt live id hin hout
    exact h.present t message createdAt live id (hmem _ _ _ _ _ hin) hout.of_append
  · rw [hlog]
    intro t message createdAt live id hin hout hold
    rw [hrecent] at hold
    exact h.checkpointed t message createdAt live id (hmem _ _ _ _ _ hin) hout.of_append hold
  · rw [hlog]
    intro c hc id hout
    exact h.spared c hc id hout.of_append
  · rw [hlog]
    intro id hid
    exact h.above id ((hrecent id).mp hid)
  · rw [hlog, hdb]
    exact h.seq_le

theorem rowsKept_process {e : Event} (h : RowsKept es m)
    (hrun : Machine.run server (Machine.start config maxLen db) es = some m)
    (hstep : Machine.step server m (.process e) = some m') :
    RowsKept (es ++ [.process e]) m' := by
  have hspares : ∀ id, Outstanding (es ++ [.process e]) id → Spares id e.change := by
    intro id hout
    exact spares_step hrun hstep hout
  obtain ⟨system, _, hsystem, rfl⟩ := machineStep_process.mp hstep
  have hdb := Queue.step_db hsystem
  have hnew : ∀ t message createdAt live id,
      .process e = MachineEvent.process (.insert t message createdAt live id) →
      id = m.system.db.outboxSeq + 1 ∧ Holds id message system.db := by
    intro t message createdAt live id he
    obtain rfl := MachineEvent.process.inj he
    obtain ⟨_, _, rfl, rfl⟩ := Queue.step_insert.mp hsystem
    exact ⟨rfl, holds_insertOutbox m.system.db message createdAt⟩
  constructor
  · intro t message createdAt live id hin hout
    rcases List.mem_append.mp hin with hin | hin
    · have hpresent := h.present t message createdAt live id hin hout.of_append
      show Holds id message system.db
      rw [hdb]
      exact hpresent.apply (hspares id hout)
    · exact (hnew t message createdAt live id (List.mem_singleton.mp hin).symm).2
  · intro t message createdAt live id hin hout hold
    rw [recent_concat rfl, not_or] at hold
    rcases List.mem_append.mp hin with hin | hin
    · exact h.checkpointed t message createdAt live id hin hout.of_append hold.1
    · exact absurd ⟨t, message, createdAt, live, (List.mem_singleton.mp hin).symm⟩ hold.2
  · intro c hc id hout
    rcases List.mem_append.mp hc with hc | hc
    · exact h.spared c hc id hout.of_append
    · rw [List.mem_singleton.mp hc]
      exact hspares id hout
  · intro id hid
    rcases (recent_concat rfl).mp hid with hid | ⟨t, message, createdAt, live, he⟩
    · exact h.above id hid
    · have hseq := h.seq_le
      have hid := (hnew t message createdAt live id he).1
      show m.log.checkpointed.outboxSeq < id
      omega
  · exact le_trans h.seq_le (Queue.step_outboxSeq_le hsystem)

theorem rowsKept_of_run
    (hrun : Machine.run server (Machine.start config maxLen db) es = some m) :
    RowsKept es m := by
  refine Replay.replay_invariant (I := RowsKept) ?_ ?_ hrun
  · constructor
    · intro t message createdAt live id hin
      cases hin
    · intro t message createdAt live id hin
      cases hin
    · intro c hc
      cases hc
    · rintro id ⟨t, message, createdAt, live, hmem⟩
      cases hmem
    · exact le_refl _
  · intro es m e m' hpre hI hstep
    cases e with
    | connect t reader =>
        obtain ⟨_, rfl⟩ := machineStep_connect.mp hstep
        exact hI.keep rfl rfl rfl (by simp)
    | turn t =>
        obtain ⟨c, c', _, _, _, _, rfl⟩ := machineStep_turn.mp hstep
        exact hI.keep rfl rfl rfl (by simp)
    | call t message createdAt =>
        obtain ⟨c, system, _, _, _, hsystem, rfl⟩ := machineStep_call.mp hstep
        exact hI.keep (Queue.step_db hsystem) rfl rfl (by simp)
    | answer t message result =>
        obtain ⟨c, c', _, _, _, rfl⟩ := machineStep_answer.mp hstep
        exact hI.keep rfl rfl rfl (by simp)
    | leave t =>
        obtain ⟨_, rfl⟩ := machineStep_leave.mp hstep
        exact hI.keep rfl rfl rfl (by simp)
    | process e => exact rowsKept_process hI hpre hstep
    | checkpoint =>
        obtain rfl := machineStep_checkpoint.mp hstep
        have hcontents := log_contents hpre
        have hpresent : ∀ t message createdAt live id,
            .process (.insert t message createdAt live id) ∈ es ++ [.checkpoint] →
            Outstanding (es ++ [.checkpoint]) id → Holds id message m.system.db := by
          intro t message createdAt live id hin hout
          have hin : .process (.insert t message createdAt live id) ∈ es := by simpa using hin
          exact hI.present t message createdAt live id hin hout.of_append
        constructor
        · exact hpresent
        · intro t message createdAt live id hin hout _
          show Holds id message (m.log.contents Change.apply)
          rw [hcontents]
          exact hpresent t message createdAt live id hin hout
        · intro c hc
          cases hc
        · rintro id ⟨t, message, createdAt, live, hmem⟩
          rw [History.since_concat_of_pos es rfl] at hmem
          cases hmem
        · show (m.log.contents Change.apply).outboxSeq ≤ m.system.db.outboxSeq
          rw [hcontents]

/-! ## What a power loss takes -/

/-- Acknowledged mail has been inserted. -/
theorem inserted_of_acknowledged {id : Int} {message : Message}
    (hrun : Machine.run server (Machine.start config maxLen db) es = some m)
    (hack : Acknowledged es id message) :
    ∃ t createdAt, .process (.insert t message createdAt true id) ∈ es := by
  obtain ⟨t, hmem⟩ := hack
  obtain ⟨pre, post, rfl⟩ := List.append_of_mem hmem
  obtain ⟨m₁, m₂, hpre, hanswer, _⟩ := Replay.replay_at hrun
  obtain ⟨⟨createdAt, hin⟩, _⟩ := answer_follows_insert hpre hanswer
  exact ⟨t, createdAt, List.mem_append_left _ hin⟩

/-- With every commit waited for, all acknowledged mail survives. -/
theorem survives_full
    (hrun : Machine.run server (Machine.start config maxLen db) es = some m) :
    Survives .full es m := by
  intro db' hreopened id message hack hout
  rw [WriteAhead.reopened_full.mp hreopened, log_contents hrun]
  obtain ⟨t, createdAt, hin⟩ := inserted_of_acknowledged hrun hack
  exact (rowsKept_of_run hrun).present t message createdAt true id hin hout

/-- What the checkpoint has, a power loss leaves. -/
theorem survives_of_nothingRecent {mode : Synchronous}
    (hrun : Machine.run server (Machine.start config maxLen db) es = some m)
    (h : NothingRecent es) : Survives mode es m := by
  intro db' hreopened id message hack hout
  have hkept := rowsKept_of_run hrun
  obtain ⟨t, createdAt, hin⟩ := inserted_of_acknowledged hrun hack
  have hbase := hkept.checkpointed t message createdAt true id hin hout (h id message hack hout)
  refine WriteAhead.holds_of_reopened (P := Holds id message) hbase ?_ hreopened
  intro c hc db₂ hholds
  exact hholds.apply (hkept.spared c hc id hout)

/-- The checkpoint alone may be left, and it has no recent row. -/
theorem nothingRecent_of_survives
    (hrun : Machine.run server (Machine.start config maxLen db) es = some m)
    (h : Survives .normal es m) : NothingRecent es := by
  intro id message hack hout hrecent
  have habove := (rowsKept_of_run hrun).above id hrecent
  obtain ⟨r, hr, hid, _⟩ :=
    h m.log.checkpointed WriteAhead.reopened_checkpointed id message hack hout
  have hle := m.log.checkpointed.outbox_le_seq r hr
  omega

/--
**What a power loss leaves of the acknowledged mail**: at every point of every run, all
of it that is outstanding exactly when none of that was inserted after the last
checkpoint.
-/
theorem survives_iff (server : Server) (config : DeliveryWorker) (maxLen : Nat) (db : Db)
    (es : List MachineEvent) (m : Machine)
    (hrun : Machine.run server (Machine.start config maxLen db) es = some m) :
    Survives synchronous es m ↔ NothingRecent es := by
  constructor
  · exact nothingRecent_of_survives hrun
  · exact survives_of_nothingRecent hrun

end Runs

/-- The message of a client that sends `hi`. -/
def hiMessage : Message where
  fromAddr := some "a@b".toList
  toAddrs := ["c@d".toList]
  subject := none
  body := "hi".toList

/-- A client sends one message, which is inserted and answered 250. -/
def acknowledgedBlock : List MachineEvent :=
  [ .connect 0 (Reader.ofText
      "MAIL FROM:<a@b>\r\nRCPT TO:<c@d>\r\nDATA\r\n\r\nhi\r\n.\r\n"),
    .turn 0, .turn 0, .call 0 hiMessage 5, .process (.insert 0 hiMessage 5 true 1),
    .process (.notify 0 1), .answer 0 hiMessage (.ok 1) ]

/-- With a checkpoint after it the message is safe. -/
theorem checkpointedBlock_survives :
    ∃ m, Machine.run smallServer (Machine.start ⟨5, 60⟩ 10 Db.empty)
        (acknowledgedBlock ++ [.checkpoint]) = some m ∧
      Acknowledged (acknowledgedBlock ++ [.checkpoint]) 1 hiMessage ∧
      Survives synchronous (acknowledgedBlock ++ [.checkpoint]) m := by
  have hrun : (Machine.run smallServer (Machine.start ⟨5, 60⟩ 10 Db.empty)
      (acknowledgedBlock ++ [.checkpoint])).isSome = true := by
    decide +kernel
  obtain ⟨m, hm⟩ := Option.isSome_iff_exists.mp hrun
  refine ⟨m, hm, ⟨0, by simp [acknowledgedBlock]⟩, ?_⟩
  rw [survives_iff smallServer ⟨5, 60⟩ 10 Db.empty _ m hm]
  rintro id message _ _ ⟨t, message', createdAt, live, hmem⟩
  rw [History.since_concat_of_pos _ rfl] at hmem
  cases hmem

/-- Without one, a power loss takes the message that was answered 250. -/
theorem acknowledgedBlock_lost :
    ∃ m, Machine.run smallServer (Machine.start ⟨5, 60⟩ 10 Db.empty) acknowledgedBlock =
        some m ∧
      Acknowledged acknowledgedBlock 1 hiMessage ∧ Outstanding acknowledgedBlock 1 ∧
      ¬ Survives synchronous acknowledgedBlock m := by
  have hrun : (Machine.run smallServer (Machine.start ⟨5, 60⟩ 10 Db.empty)
      acknowledgedBlock).isSome = true := by
    decide +kernel
  obtain ⟨m, hm⟩ := Option.isSome_iff_exists.mp hrun
  have hack : Acknowledged acknowledgedBlock 1 hiMessage := ⟨0, by simp [acknowledgedBlock]⟩
  have hout : Outstanding acknowledgedBlock 1 := by
    constructor
    · simp [acknowledgedBlock]
    · simp [acknowledgedBlock]
  refine ⟨m, hm, hack, hout, ?_⟩
  intro hsurvives
  have hnothing := nothingRecent_of_survives hm hsurvives
  have hrecent : Recent acknowledgedBlock 1 := ⟨0, hiMessage, 5, true, by decide⟩
  exact hnothing 1 hiMessage hack hout hrecent

end Smtp
end ChimneyPost
