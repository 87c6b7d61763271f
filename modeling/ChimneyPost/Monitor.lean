import ChimneyPost.Shutdown
import ChimneyPost.Smtp.PowerLoss

/-!
# What the operator is told

`run_monitor` warns of the dead-letter table when it has grown since the last poll, by a
number that it keeps in a variable, that it takes for 0 when the store does not answer, and
that is lost with the process.  Rows never leave that table.  So after every poll that reads
it, the last warning names the number of its rows, whatever has failed before, and as long
as no read fails, no number is reported twice (`dead_letters_reported`).
-/

namespace ChimneyPost

open Queue (Event DeliveryWorker Db System Change)
open Smtp (Server Listener)

/-! ## The table only grows -/

/-- No change takes a row from the table. -/
theorem deadLetterLen_apply (db : Db) (c : Change) :
    Queue.MessageStore.deadLetterLen db ≤ Queue.MessageStore.deadLetterLen (c.apply db) := by
  cases c with
  | bury id lastError failedAt =>
      show db.deadLetter.length ≤
        (db.deadLetter ++ db.deadLetterRows id lastError failedAt).length
      rw [List.length_append]
      exact Nat.le_add_right _ _
  | _ => exact le_refl _

section Growth

variable {server : Server} {d d' : Daemon}

theorem deadLetterLen_step {e : DaemonEvent} (hstep : Daemon.step server d e = some d') :
    Queue.MessageStore.deadLetterLen d.system.db ≤
      Queue.MessageStore.deadLetterLen d'.system.db := by
  cases e with
  | listener e =>
      obtain ⟨hallows, l', hlistener, rfl⟩ := daemonStep_listener.mp hstep
      rcases system_of_allowed hallows hlistener with ⟨hsystem, _⟩ | ⟨f, _, hsystem⟩
      · exact le_of_eq (congrArg (fun s => Queue.MessageStore.deadLetterLen s.db) hsystem).symm
      · have hdb : l'.machine.system.db = f.change.apply d.system.db := Queue.step_db hsystem
        show _ ≤ Queue.MessageStore.deadLetterLen l'.machine.system.db
        rw [hdb]
        exact deadLetterLen_apply _ _
  | smtpCancelled joinError =>
      rw [Daemon.step] at hstep
      split at hstep
      · obtain rfl := Option.some.inj hstep
        exact le_refl _
      · cases hstep
  | delivery e =>
      cases deliverySteps_of_step hstep <;> exact le_refl _
  | monitor e =>
      cases monitorSteps_of_step hstep <;> exact le_refl _
  | main e =>
      cases mainSteps_of_step hstep with
      | sendShutdown listener hpc hlistener =>
          have hsystem := system_of_sendShutdown hlistener
          exact le_of_eq (congrArg (fun s => Queue.MessageStore.deadLetterLen s.db) hsystem).symm
      | _ => exact le_refl _
  | restart maxConnections config maxLen =>
      obtain ⟨l, hlistener, rfl⟩ := daemonStep_restart.mp hstep
      have hsystem := system_of_restart hlistener
      exact le_of_eq (congrArg (fun s => Queue.MessageStore.deadLetterLen s.db) hsystem).symm

end Growth

/-! ## Warnings -/

/-- The numbers of dead letters that have been warned of. -/
def alarms (notices : List Notice) : List Nat :=
  notices.filterMap fun
    | .deadLetter deadLetter => some deadLetter
    | _ => none

@[simp] theorem alarms_append (xs ys : List Notice) :
    alarms (xs ++ ys) = alarms xs ++ alarms ys := by
  exact List.filterMap_append

/-- A report warns of dead letters when there are more of them. -/
theorem alarms_report (connected : Bool) (last queued deadLetter : Nat) :
    alarms (Daemon.report connected last queued deadLetter) =
      if last < deadLetter then [deadLetter] else [] := by
  rw [Daemon.report, alarms_append, alarms_append]
  have hstalled : alarms (if connected = false ∧ queued > 0 then [Notice.stalled queued] else []) =
      [] := by
    split_ifs <;> rfl
  rw [hstalled, List.append_nil]
  split_ifs with hmore
  · rfl
  · rfl

/-- `last_dead_letter`, as long as the monitor runs. -/
def MonitorPc.last : MonitorPc → Option Nat
  | .loopTop last => some last
  | .pinged last => some last
  | .counted last _ => some last
  | .sleeping last => some last
  | .returned => none

/-- All reads of the table have been answered. -/
def AllRead (es : List DaemonEvent) : Prop :=
  ∀ e ∈ processOf es, e ≠ .monitor (.countDeadLetter false)

/-- What the monitor keeps in mind, and what it has warned of. -/
structure Alarmed (es : List DaemonEvent) (d : Daemon) : Prop where
  latest : ∀ last, d.monitor.last = some last → 0 < last →
    (alarms d.notices).getLast? = some last
  bounded : ∀ last, d.monitor.last = some last →
    last ≤ Queue.MessageStore.deadLetterLen d.system.db
  real : ∀ n ∈ alarms d.notices, n ≤ Queue.MessageStore.deadLetterLen d.system.db
  ascending : AllRead es → (alarms d.notices).Pairwise (· < ·)
  covered : AllRead es → ∀ last, d.monitor.last = some last → ∀ n ∈ alarms d.notices, n ≤ last

section Alarms

variable {server : Server} {d d' : Daemon} {es : List DaemonEvent}

theorem alarmed_start (es : List DaemonEvent) (l : Listener) : Alarmed es (Daemon.start l) := by
  refine ⟨?_, ?_, fun n hn => (by cases hn), fun _ => List.Pairwise.nil,
    fun _ _ _ n hn => (by cases hn)⟩
  · intro last hlast hpos
    obtain rfl := Option.some.inj hlast
    exact absurd hpos (lt_irrefl 0)
  · intro last hlast
    obtain rfl := Option.some.inj hlast
    exact Nat.zero_le _

theorem AllRead.of_concat {e : DaemonEvent} (he : e.isRestart = false)
    (h : AllRead (es ++ [e])) : AllRead es := by
  intro x hx
  exact h x (mem_processOf_concat he hx)

/-- An event that the monitor has no part in, or in which it only goes on. -/
theorem Alarmed.keep (h : Alarmed es d) {e : DaemonEvent} (he : e.isRestart = false)
    (hmonitor : d'.monitor.last = d.monitor.last ∨ d'.monitor.last = none)
    (halarms : alarms d'.notices = alarms d.notices)
    (hgrowth : Queue.MessageStore.deadLetterLen d.system.db ≤
      Queue.MessageStore.deadLetterLen d'.system.db) : Alarmed (es ++ [e]) d' := by
  have hback : ∀ last, d'.monitor.last = some last → d.monitor.last = some last := by
    intro last hlast
    rcases hmonitor with hsame | hnone
    · exact hsame.symm.trans hlast
    · rw [hnone] at hlast
      cases hlast
  constructor
  · intro last hlast hpos
    rw [halarms]
    exact h.latest last (hback last hlast) hpos
  · intro last hlast
    exact (h.bounded last (hback last hlast)).trans hgrowth
  · intro n hn
    rw [halarms] at hn
    exact (h.real n hn).trans hgrowth
  · intro hread
    rw [halarms]
    exact h.ascending (hread.of_concat he)
  · intro hread last hlast n hn
    rw [halarms] at hn
    exact h.covered (hread.of_concat he) last (hback last hlast) n hn

/-- A poll that finds no more than before has warned of them already. -/
theorem Alarmed.latest_of_le (h : Alarmed es d) {last deadLetter : Nat} {ok : Bool}
    (hlast : d.monitor.last = some last)
    (hread : deadLetter = if ok then Queue.MessageStore.deadLetterLen d.system.db else 0)
    (hle : deadLetter ≤ last) (hpos : 0 < deadLetter) :
    (alarms d.notices).getLast? = some deadLetter := by
  cases ok with
  | false =>
      rw [hread] at hpos
      exact absurd hpos (lt_irrefl 0)
  | true =>
      have hbounded := h.bounded last hlast
      rw [if_pos rfl] at hread
      have heq : last = deadLetter := by omega
      rw [← heq]
      exact h.latest last hlast (by omega)

theorem alarmed_poll (h : Alarmed es d) {ok : Bool} {last queued deadLetter : Nat}
    (hpc : d.monitor = .counted last queued)
    (hread : deadLetter = if ok then Queue.MessageStore.deadLetterLen d.system.db else 0) :
    Alarmed (es ++ [.monitor (.countDeadLetter ok)]) { d with
      monitor := .sleeping deadLetter
      notices := d.notices ++ Daemon.report d.connected last queued deadLetter } := by
  have hlast : d.monitor.last = some last := by
    rw [hpc]
    rfl
  have hbound : deadLetter ≤ Queue.MessageStore.deadLetterLen d.system.db := by
    rw [hread]
    split_ifs
    · exact le_refl _
    · exact Nat.zero_le _
  have halarms : alarms (d.notices ++ Daemon.report d.connected last queued deadLetter) =
      alarms d.notices ++ if last < deadLetter then [deadLetter] else [] := by
    rw [alarms_append, alarms_report]
  have hback : AllRead (es ++ [.monitor (.countDeadLetter ok)]) →
      AllRead es ∧ deadLetter = Queue.MessageStore.deadLetterLen d.system.db := by
    intro hall
    refine ⟨hall.of_concat rfl, ?_⟩
    cases ok with
    | true => exact hread
    | false => exact absurd rfl (hall _ (mem_processOf_last rfl))
  constructor
  · intro last' hlast' hpos
    obtain rfl := Option.some.inj hlast'
    rw [halarms]
    split_ifs with hmore
    · exact List.getLast?_concat
    · rw [List.append_nil]
      exact h.latest_of_le hlast hread (not_lt.mp hmore) hpos
  · intro last' hlast'
    obtain rfl := Option.some.inj hlast'
    exact hbound
  · intro n hn
    rw [halarms] at hn
    rcases List.mem_append.mp hn with hn | hn
    · exact h.real n hn
    · split_ifs at hn with hmore
      · rw [List.mem_singleton.mp hn]
        exact hbound
      · cases hn
  · intro hall
    obtain ⟨hall, hcount⟩ := hback hall
    rw [halarms]
    split_ifs with hmore
    · refine List.pairwise_append.mpr ⟨h.ascending hall, List.pairwise_singleton _ _, ?_⟩
      intro n hn k hk
      rw [List.mem_singleton.mp hk]
      exact lt_of_le_of_lt (h.covered hall last hlast n hn) hmore
    · rw [List.append_nil]
      exact h.ascending hall
  · intro hall last' hlast' n hn
    obtain rfl := Option.some.inj hlast'
    obtain ⟨hall, hcount⟩ := hback hall
    rw [halarms] at hn
    rw [hcount]
    rcases List.mem_append.mp hn with hn | hn
    · exact h.real n hn
    · split_ifs at hn with hmore
      · rw [List.mem_singleton.mp hn]
        exact hbound
      · cases hn

theorem alarmed_step (h : Alarmed es d) {e : DaemonEvent}
    (hstep : Daemon.step server d e = some d') : Alarmed (es ++ [e]) d' := by
  have hgrowth := deadLetterLen_step hstep
  cases e with
  | listener e =>
      obtain ⟨_, l', _, rfl⟩ := daemonStep_listener.mp hstep
      exact h.keep rfl (Or.inl rfl) rfl hgrowth
  | smtpCancelled joinError =>
      rw [Daemon.step] at hstep
      split at hstep
      · obtain rfl := Option.some.inj hstep
        exact h.keep rfl (Or.inl rfl) rfl hgrowth
      · cases hstep
  | delivery e =>
      cases deliverySteps_of_step hstep <;> exact h.keep rfl (Or.inl rfl) rfl hgrowth
  | monitor e =>
      cases monitorSteps_of_step hstep with
      | ping last hpc =>
          refine h.keep rfl (Or.inl ?_) ?_ hgrowth
          · rw [hpc]
            rfl
          · rw [alarms_append]
            exact List.append_nil _
      | countQueued ok last hpc =>
          refine h.keep rfl (Or.inl ?_) rfl hgrowth
          rw [hpc]
          rfl
      | countDeadLetter ok last queued deadLetter hpc hread => exact alarmed_poll h hpc hread
      | elapsed last hpc =>
          refine h.keep rfl (Or.inl ?_) rfl hgrowth
          rw [hpc]
          rfl
      | stopped last hpc hshutdown => exact h.keep rfl (Or.inr rfl) rfl hgrowth
  | main e =>
      cases mainSteps_of_step hstep with
      | signal hpc =>
          refine h.keep rfl (Or.inl rfl) ?_ hgrowth
          rw [alarms_append]
          exact List.append_nil _
      | _ => exact h.keep rfl (Or.inl rfl) rfl hgrowth
  | restart maxConnections config maxLen =>
      obtain ⟨l, _, rfl⟩ := daemonStep_restart.mp hstep
      exact alarmed_start _ l

end Alarms

/-! ## Over whole runs -/

section Runs

variable {server : Server} {maxConnections maxLen : Nat} {config : DeliveryWorker} {db : Db}
  {es : List DaemonEvent} {d : Daemon}

theorem alarmed_of_run
    (hrun : Daemon.run server (Daemon.opened maxConnections config maxLen db) es = some d) :
    Alarmed es d := by
  refine Replay.replay_invariant (I := Alarmed) (alarmed_start [] _) ?_ hrun
  intro es d e d' _ h hstep
  exact alarmed_step h hstep

/-- What the operator can read from the warnings. -/
structure DeadLettersReported (es : List DaemonEvent) (d : Daemon) : Prop where
  /-- after a poll that has read the table, the last warning is up to date -/
  upToDate : ∀ before, es = before ++ [.monitor (.countDeadLetter true)] →
    0 < Queue.MessageStore.deadLetterLen d.system.db →
    (alarms d.notices).getLast? = some (Queue.MessageStore.deadLetterLen d.system.db)
  real : ∀ n ∈ alarms d.notices, n ≤ Queue.MessageStore.deadLetterLen d.system.db
  once : AllRead es → (alarms d.notices).Pairwise (· < ·)

/-- **The warnings keep up with the dead-letter table**, over every run, also after reads that
have failed and after restarts. -/
theorem dead_letters_reported (server : Server) (maxConnections : Nat) (config : DeliveryWorker)
    (maxLen : Nat) (db : Db) (es : List DaemonEvent) (d : Daemon)
    (hrun : Daemon.run server (Daemon.opened maxConnections config maxLen db) es = some d) :
    DeadLettersReported es d := by
  have halarmed := alarmed_of_run hrun
  refine ⟨?_, halarmed.real, halarmed.ascending⟩
  rintro before rfl hpos
  obtain ⟨d₀, _, hstep⟩ := Replay.replay_concat_eq_some.mp hrun
  have hpoll : d₀.monitorStep (.countDeadLetter true) = some d := hstep
  cases monitorSteps_of_step hpoll with
  | countDeadLetter _ last queued deadLetter hpc hread =>
      refine halarmed.latest _ ?_ hpos
      exact congrArg some hread

end Runs

/-- A database in which a message has been given up. -/
def buriedDb : Db :=
  Queue.MessageStore.deadLetter 1 "refused".toList 7
    (Db.empty.insertOutbox Smtp.hiMessage.columns 0)

/-- Two polls, of which the first does not get to the table. -/
def twoPolls : List DaemonEvent :=
  [.monitor .ping, .monitor (.countQueued true), .monitor (.countDeadLetter false),
    .monitor .elapsed, .monitor .ping, .monitor (.countQueued true)] ++
      [.monitor (.countDeadLetter true)]

theorem twoPolls_reported : ∃ d, DeadLettersReported twoPolls d ∧
    (alarms d.notices).getLast? = some 1 := by
  have hrun : ∃ d, Daemon.run Smtp.smallServer
      (Daemon.opened 1 { maxRetries := 3, retryBackoff := 60 } 10 buriedDb) twoPolls = some d ∧
      Queue.MessageStore.deadLetterLen d.system.db = 1 := ⟨_, rfl, rfl⟩
  obtain ⟨d, hrun, hone⟩ := hrun
  have hreported := dead_letters_reported Smtp.smallServer 1 _ 10 buriedDb twoPolls d hrun
  refine ⟨d, hreported, ?_⟩
  rw [← hone]
  exact hreported.upToDate _ rfl (by rw [hone]; exact one_pos)

end ChimneyPost
