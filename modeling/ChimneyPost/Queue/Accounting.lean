import ChimneyPost.Queue.Budget
import ChimneyPost.Queue.Conservation

/-!
# Failure accounting

The `attempts` column is meant to count the failed deliveries of a message.  The
worker increments the counter it read and writes it back when it reschedules, but
`dead_letter` copies the column as it stands, without the failure that sent the
message there.

`run_tallied` says what the columns hold on every run whose writes succeed: the
outbox is exact, a buried message has failed `max_retries + 1` times, and its
`dead_letter` row says one less.  Hence the columns are right exactly as long as
no message is given up (`failures_accounted_of_retries_left`).
-/

namespace ChimneyPost
namespace Queue

/-- The row whose failure the sink has reported and the store not yet recorded. -/
def WorkerPc.failing : WorkerPc → Option Int
  | .deadLettering id _ => some id
  | .rescheduling id _ _ => some id
  | _ => none

/-- The `attempts` columns count the failed deliveries. -/
structure Accounted (es : List Event) (s : System) : Prop where
  outbox : ∀ r ∈ s.db.outbox, r.attempts = failures r.id es
  deadLetter : ∀ x ∈ (books es).dead.zip s.db.deadLetter,
    x.2.attempts = failures x.1.1 es
  buried : ∀ x ∈ inserted es, x ∈ (books es).dead ↔
    failures x.1 es = s.config.maxRetries.toNat + 1

/-- No crash, no failed write, and the failed delivery was not the last one allowed. -/
def RetriesLeft (s : System) : Event → Prop
  | .writeError => False
  | .crash _ _ => False
  | .sinkErr stored _ _ =>
      stored.attempts.toNat + 1 ≤ s.config.maxRetries.toNat
  | _ => True

theorem RetriesLeft.metered {s : System} {e : Event} (h : RetriesLeft s e) :
    Metered s e := by
  cases e with
  | sinkErr stored now error =>
      have hle : stored.attempts.toNat + 1 ≤ s.config.maxRetries.toNat := h
      have hlt := s.config.maxRetries.toNat_lt
      show stored.attempts.toNat < 4294967295
      omega
  | writeError => exact h
  | crash => exact h
  | _ => trivial

theorem WorkerPc.holding_of_failing {pc : WorkerPc} {id : Int}
    (h : pc.failing = some id) : pc.holding = some id := by
  cases pc <;> simp [WorkerPc.failing] at h <;> simp [WorkerPc.holding, h]

theorem WorkerPc.failing_of_holding_none {pc : WorkerPc} (h : pc.holding = none) :
    pc.failing = none := by
  cases pc <;> simp [WorkerPc.holding] at h <;> rfl

/-- What the columns hold, with the failure the worker is about to record. -/
structure Tallied (es : List Event) (s : System) : Prop where
  fresh : ∀ id, s.db.outboxSeq < id → failures id es = 0
  outbox : ∀ r ∈ s.db.outbox,
    r.attempts + (if s.worker.failing = some r.id then 1 else 0) = failures r.id es
  retried : ∀ r ∈ s.db.outbox, r.attempts ≤ s.config.maxRetries.toNat
  rescheduling : ∀ id a n, s.worker = .rescheduling id a n →
    a.toNat = failures id es ∧ a.toNat ≤ s.config.maxRetries.toNat
  deadLettering : ∀ id text, s.worker = .deadLettering id text →
    failures id es = s.config.maxRetries.toNat + 1
  deadLetter : ∀ x ∈ (books es).dead.zip s.db.deadLetter,
    x.2.attempts + 1 = failures x.1.1 es
  buried : ∀ x ∈ (books es).dead, failures x.1 es = s.config.maxRetries.toNat + 1
  gone : ∀ x ∈ (books es).gone, failures x.1 es ≤ s.config.maxRetries.toNat

section Tally

variable {config : DeliveryWorker} {maxLen : Nat} {es : List Event} {s t : System}
  {e : Event}

/-- A message that has left the outbox has another id than the rows in it. -/
theorem left_ne_outbox
    (hrun : run (System.start config maxLen Db.empty) es = some s)
    {x : Int × MailColumns} (hx : x ∈ (books es).dead ∨ x ∈ (books es).gone)
    {r : OutboxRow} (hr : r ∈ s.db.outbox) : x.1 ≠ r.id := by
  have hperm := (Ledger.books_perm (postings es)).map Prod.fst
  have hnodup := (hperm.nodup_iff).mpr
    ((inserted_ids_increase hrun).1.imp (fun h => ne_of_lt h))
  have hentry : r.entry ∈ (books es).pending := by
    rw [← (tables_match_books hrun).outbox]
    exact List.mem_map_of_mem hr
  have hsplit : (Ledger.books (postings es)).all =
      (books es).pending ++ ((books es).dead ++ (books es).gone) := by
    simp [Ledger.all, books]
  rw [hsplit, List.map_append, List.nodup_append] at hnodup
  obtain ⟨_, _, hdisjoint⟩ := hnodup
  have hleft : x.1 ∈ ((books es).dead ++ (books es).gone).map Prod.fst := by
    apply List.mem_map_of_mem
    exact List.mem_append.mpr hx
  intro heq
  exact hdisjoint r.id (List.mem_map_of_mem hentry) x.1 hleft heq.symm

/-- Steps beside the delivery that insert nothing change no count. -/
theorem Tallied.quiet (h : Tallied es s) (hdb : t.db = s.db)
    (hconfig : t.config = s.config) (hbooks : books (es ++ [e]) = books es)
    (hfail : ∀ id, e.isFailureOf id = false)
    (hworker : t.worker = s.worker ∨
      s.worker.failing = none ∧ t.worker.failing = none) :
    Tallied (es ++ [e]) t := by
  have hcount : ∀ id, failures id (es ++ [e]) = failures id es := by
    intro id
    simp [hfail id]
  have hpending : t.worker = s.worker ∨ t.worker.failing = none := by
    rcases hworker with hw | ⟨_, hw⟩
    · exact Or.inl hw
    · exact Or.inr hw
  have hsame : t.worker.failing = s.worker.failing := by
    rcases hworker with hw | ⟨hs, ht⟩
    · rw [hw]
    · rw [hs, ht]
  constructor
  · simpa [hcount, hdb] using h.fresh
  · simpa [hcount, hdb, hsame] using h.outbox
  · simpa [hdb, hconfig] using h.retried
  · intro id a n hw
    rcases hpending with hsw | hnone
    · rw [hcount, hconfig]
      exact h.rescheduling id a n (hsw.symm.trans hw)
    · rw [hw] at hnone
      cases hnone
  · intro id text hw
    rcases hpending with hsw | hnone
    · rw [hcount, hconfig]
      exact h.deadLettering id text (hsw.symm.trans hw)
    · rw [hw] at hnone
      cases hnone
  · simpa [hcount, hbooks, hdb] using h.deadLetter
  · simpa [hcount, hbooks, hconfig] using h.buried
  · simpa [hcount, hbooks, hconfig] using h.gone

theorem tallied_insert (h : Tallied es s) (hbacked : s.worker.Backed s.db)
    {u : Nat} {message : Message} {createdAt id : Int} {live : Bool}
    (hstep : step s (.insert u message createdAt live id) = some t) :
    Tallied (es ++ [.insert u message createdAt live id]) t := by
  obtain ⟨_, _, rfl, rfl⟩ := step_insert.mp hstep
  have hcount : ∀ i, failures i (es ++ [.insert u message createdAt live
      (s.db.outboxSeq + 1)]) = failures i es := by
    intro i
    simp [Event.isFailureOf]
  have hbooks : books (es ++ [.insert u message createdAt live (s.db.outboxSeq + 1)]) =
      (books es).post (.accept (s.db.outboxSeq + 1) message.columns) := by
    rw [books_concat]
    rfl
  refine ⟨?_, ?_, ?_, ?_, ?_, ?_, ?_, ?_⟩
  · intro i hi
    have hseq : s.db.outboxSeq + 1 < i := hi
    rw [hcount]
    exact h.fresh i (by omega)
  · intro r hr
    rw [hcount]
    rcases Db.mem_insertOutbox.mp hr with hr | rfl
    · exact h.outbox r hr
    · -- the worker cannot be busy with an id that is only now handed out
      have hnot : s.worker.failing ≠ some (s.db.outboxSeq + 1) := by
        intro hfail
        obtain ⟨r, hr, hid⟩ := hbacked.exists_row (WorkerPc.holding_of_failing hfail)
        have hle := s.db.outbox_le_seq r hr
        omega
      rw [Db.newRow_id, h.fresh _ (by omega)]
      simp [Db.newRow, hnot]
  · intro r hr
    rcases Db.mem_insertOutbox.mp hr with hr | rfl
    · exact h.retried r hr
    · exact Int.natCast_nonneg _
  · simpa [hcount] using h.rescheduling
  · simpa [hcount] using h.deadLettering
  · rw [hbooks]
    simpa [hcount, Ledger.post, Db.insertOutbox] using h.deadLetter
  · rw [hbooks]
    simpa [hcount, Ledger.post] using h.buried
  · rw [hbooks]
    simpa [hcount, Ledger.post] using h.gone

theorem tallied_sinkErr (h : Tallied es s) (hbacked : s.worker.Backed s.db)
    (hrun : run (System.start config maxLen Db.empty) es = some s)
    {stored : StoredMessage} {now : Int} {error : ChimneyError}
    (hlt : stored.attempts.toNat < 4294967295)
    (hstep : step s (.sinkErr stored now error) = some t) :
    Tallied (es ++ [.sinkErr stored now error]) t := by
  obtain ⟨hpc, rfl⟩ := step_sinkErr.mp hstep
  rw [hpc] at hbacked
  obtain ⟨r₀, hr₀, rfl⟩ := hbacked
  have hcount : ∀ i, failures i (es ++ [.sinkErr (rowToStored r₀) now error]) =
      failures i es + if r₀.id = i then 1 else 0 := by
    intro i
    simp [Event.isFailureOf, rowToStored]
  have hbooks : books (es ++ [.sinkErr (rowToStored r₀) now error]) = books es := by
    rw [books_concat]
    rfl
  -- the counter that was read is the number of failures so far
  have hread := h.outbox r₀ hr₀
  rw [hpc] at hread
  simp only [WorkerPc.failing, reduceCtorEq, if_false, add_zero] at hread
  have hle := h.retried r₀ hr₀
  have hattempts : (rowToStored r₀).attempts.toNat = failures r₀.id es := by
    have hmax := s.config.maxRetries.toNat_lt
    show (asU32 r₀.attempts).toNat = _
    unfold asU32
    rw [UInt32.toNat_ofNat_of_lt']
    · omega
    · have hsize : UInt32.size = 4294967296 := rfl
      omega
  have hsucc := attempts_succ_of_lt hlt
  have hother : ∀ x : Int × MailColumns, x ∈ (books es).dead ∨ x ∈ (books es).gone →
      failures x.1 (es ++ [.sinkErr (rowToStored r₀) now error]) = failures x.1 es := by
    intro x hx
    rw [hcount, if_neg (left_ne_outbox hrun hx hr₀).symm, add_zero]
  have hfail : (s.config.handleFailure (rowToStored r₀) now error).failing =
      some r₀.id := by
    rcases handleFailure_cases s.config (rowToStored r₀) now error with
      ⟨_, hnext⟩ | ⟨_, hnext⟩
    · rw [hnext]
      rfl
    · rw [hnext]
      rfl
  refine ⟨?_, ?_, h.retried, ?_, ?_, ?_, ?_, ?_⟩
  · intro i hi
    have hle₀ := s.db.outbox_le_seq r₀ hr₀
    have hseq : s.db.outboxSeq < i := hi
    rw [hcount, h.fresh i hseq, if_neg (by omega)]
  · intro r hr
    have hrow := h.outbox r hr
    rw [hpc] at hrow
    simp only [WorkerPc.failing, reduceCtorEq, if_false, add_zero] at hrow
    rw [hcount, hfail, hrow]
    simp
  · intro id a n hw
    rcases handleFailure_cases s.config (rowToStored r₀) now error with
      ⟨_, hnext⟩ | ⟨hretry, hnext⟩
    · simp [hnext] at hw
    · simp only [hnext, WorkerPc.rescheduling.injEq] at hw
      obtain ⟨rfl, rfl, _⟩ := hw
      rw [UInt32.le_iff_toNat_le] at hretry
      refine ⟨?_, hretry⟩
      rw [hcount, hsucc, hattempts]
      simp [rowToStored]
  · intro id text hw
    rcases handleFailure_cases s.config (rowToStored r₀) now error with
      ⟨hlast, hnext⟩ | ⟨_, hnext⟩
    · simp only [hnext, WorkerPc.deadLettering.injEq] at hw
      obtain ⟨rfl, _⟩ := hw
      rw [UInt32.lt_iff_toNat_lt, hsucc, hattempts] at hlast
      have hid : (rowToStored r₀).id = r₀.id := rfl
      rw [hcount, hid, if_pos rfl]
      show failures r₀.id es + 1 = s.config.maxRetries.toNat + 1
      omega
    · simp [hnext] at hw
  · rw [hbooks]
    intro x hx
    rw [hother x.1 (Or.inl (List.of_mem_zip hx).1)]
    exact h.deadLetter x hx
  · rw [hbooks]
    intro x hx
    rw [hother x (Or.inl hx)]
    exact h.buried x hx
  · rw [hbooks]
    intro x hx
    rw [hother x (Or.inr hx)]
    exact h.gone x hx

theorem tallied_reschedule (h : Tallied es s) {id next : Int} {a : UInt32}
    (hstep : step s (.reschedule id a next) = some t) :
    Tallied (es ++ [.reschedule id a next]) t := by
  obtain ⟨hpc, rfl⟩ := step_reschedule.mp hstep
  obtain ⟨hvalue, hle⟩ := h.rescheduling _ _ _ hpc
  have hcount : ∀ i, failures i (es ++ [.reschedule id a next]) = failures i es := by
    intro i
    simp [Event.isFailureOf]
  have hbooks : books (es ++ [.reschedule id a next]) = books es := by
    rw [books_concat]
    rfl
  refine ⟨?_, ?_, ?_, by simp, by simp, ?_, ?_, ?_⟩
  · simpa [hcount, MessageStore.reschedule] using h.fresh
  · intro r hr
    obtain ⟨q, hq, rfl⟩ := MessageStore.mem_reschedule.mp hr
    have hrow := h.outbox q hq
    rw [hcount, Db.setSchedule_id]
    by_cases hid : q.id = id
    · simp [Db.setSchedule, hid, WorkerPc.failing, hvalue]
    · have hne : some id ≠ some q.id := by
        simpa using fun heq => hid heq.symm
      simpa [Db.setSchedule, hid, WorkerPc.failing, hpc, hne] using hrow
  · intro r hr
    obtain ⟨q, hq, rfl⟩ := MessageStore.mem_reschedule.mp hr
    by_cases hid : q.id = id
    · simp only [Db.setSchedule, hid, if_true]
      exact_mod_cast hle
    · simpa [Db.setSchedule, hid] using h.retried q hq
  · rw [hbooks]
    simpa [hcount, MessageStore.reschedule] using h.deadLetter
  · rw [hbooks]
    simpa [hcount] using h.buried
  · rw [hbooks]
    simpa [hcount] using h.gone

/-- The rows that a deletion or a burial leaves keep their tally. -/
theorem Tallied.outbox_of_removed (h : Tallied es s) {id : Int} {db' : Db}
    (hhold : s.worker.holding = some id)
    (hmem : ∀ r, r ∈ db'.outbox ↔ r ∈ s.db.outbox ∧ r.id ≠ id) :
    ∀ r ∈ db'.outbox, r.attempts = failures r.id es := by
  intro r hr
  obtain ⟨hr, hne⟩ := (hmem r).mp hr
  have hrow := h.outbox r hr
  have hnot : s.worker.failing ≠ some r.id := by
    intro hfail
    have hboth := WorkerPc.holding_of_failing hfail
    rw [hhold, Option.some.injEq] at hboth
    exact hne hboth.symm
  simpa [hnot] using hrow

theorem tallied_markDelivered (h : Tallied es s) (hbacked : s.worker.Backed s.db)
    (hrun : run (System.start config maxLen Db.empty) es = some s) {id : Int}
    (hstep : step s (.markDelivered id) = some t) :
    Tallied (es ++ [.markDelivered id]) t := by
  obtain ⟨hpc, rfl⟩ := step_markDelivered.mp hstep
  rw [hpc] at hbacked
  obtain ⟨r₀, hr₀, rfl⟩ := hbacked
  have hcount : ∀ i, failures i (es ++ [.markDelivered r₀.id]) = failures i es := by
    intro i
    simp [Event.isFailureOf]
  have hbooks : books (es ++ [.markDelivered r₀.id]) =
      (books es).post (.settle r₀.id) := by
    rw [books_concat]
    rfl
  have hkept : ∀ r ∈ (MessageStore.markDelivered r₀.id s.db).outbox,
      r.attempts = failures r.id es :=
    h.outbox_of_removed (by rw [hpc]; rfl) (fun _ => MessageStore.mem_markDelivered)
  refine ⟨?_, ?_, ?_, by simp, by simp, ?_, ?_, ?_⟩
  · simpa [hcount, MessageStore.markDelivered, Db.deleteOutbox] using h.fresh
  · intro r hr
    simpa [hcount, WorkerPc.failing] using hkept r hr
  · intro r hr
    exact h.retried r (MessageStore.mem_markDelivered.mp hr).1
  · rw [hbooks]
    simpa [hcount, Ledger.post, MessageStore.markDelivered, Db.deleteOutbox]
      using h.deadLetter
  · rw [hbooks]
    simpa [hcount, Ledger.post] using h.buried
  · rw [hbooks]
    intro x hx
    rw [hcount]
    rcases List.mem_append.mp hx with hx | hx
    · exact h.gone x hx
    · rw [← (tables_match_books hrun).outbox, ← map_entry_filter_eq,
        s.db.filter_id_eq hr₀, List.map_singleton, List.mem_singleton] at hx
      subst hx
      have hrow := h.outbox r₀ hr₀
      have hle := h.retried r₀ hr₀
      rw [hpc] at hrow
      simp only [WorkerPc.failing, reduceCtorEq, if_false, add_zero] at hrow
      show failures r₀.id es ≤ s.config.maxRetries.toNat
      omega

theorem tallied_deadLetter (h : Tallied es s) (hbacked : s.worker.Backed s.db)
    (hrun : run (System.start config maxLen Db.empty) es = some s)
    {id failedAt : Int} {text : Str}
    (hstep : step s (.deadLetter id text failedAt) = some t) :
    Tallied (es ++ [.deadLetter id text failedAt]) t := by
  obtain ⟨hpc, rfl⟩ := step_deadLetter.mp hstep
  have hlast := h.deadLettering _ _ hpc
  rw [hpc] at hbacked
  obtain ⟨r₀, hr₀, rfl⟩ := hbacked
  have hcount : ∀ i, failures i (es ++ [.deadLetter r₀.id text failedAt]) =
      failures i es := by
    intro i
    simp [Event.isFailureOf]
  have hbooks : books (es ++ [.deadLetter r₀.id text failedAt]) =
      (books es).post (.bury r₀.id) := by
    rw [books_concat]
    rfl
  have htables := tables_match_books hrun
  have hitem : (books es).pending.filter (fun x => x.1 = r₀.id) = [r₀.entry] := by
    rw [← htables.outbox, ← map_entry_filter_eq, s.db.filter_id_eq hr₀,
      List.map_singleton]
  have hrows : s.db.deadLetterRows r₀.id text failedAt =
      [{ toMailColumns := r₀.toMailColumns
         id := s.db.deadLetterSeq + 1
         attempts := r₀.attempts
         createdAt := r₀.createdAt
         failedAt := failedAt
         lastError := text }] := by
    unfold Db.deadLetterRows
    rw [s.db.filter_id_eq hr₀]
    simp
  have hlength : (books es).dead.length = s.db.deadLetter.length := by
    have hsame := congrArg List.length htables.deadLetter
    simpa using hsame.symm
  have hkept : ∀ r ∈ (MessageStore.deadLetter r₀.id text failedAt s.db).outbox,
      r.attempts = failures r.id es :=
    h.outbox_of_removed (by rw [hpc]; rfl) (fun _ => MessageStore.mem_deadLetter)
  refine ⟨?_, ?_, ?_, by simp, by simp, ?_, ?_, ?_⟩
  · simpa [hcount, MessageStore.deadLetter, Db.deleteOutbox] using h.fresh
  · intro r hr
    simpa [hcount, WorkerPc.failing] using hkept r hr
  · intro r hr
    exact h.retried r (MessageStore.mem_deadLetter.mp hr).1
  · rw [hbooks]
    intro x hx
    rw [hcount]
    simp only [Ledger.post, MessageStore.deadLetter] at hx
    rw [hitem, hrows, List.zip_append hlength] at hx
    rcases List.mem_append.mp hx with hx | hx
    · exact h.deadLetter x hx
    · -- the copy is made before the failure is counted
      obtain rfl := List.mem_singleton.mp hx
      have hrow := h.outbox r₀ hr₀
      rw [hpc] at hrow
      show r₀.attempts + 1 = failures r₀.id es
      simpa [WorkerPc.failing] using hrow
  · rw [hbooks]
    intro x hx
    rw [hcount]
    rcases List.mem_append.mp hx with hx | hx
    · exact h.buried x hx
    · rw [hitem, List.mem_singleton] at hx
      subst hx
      exact hlast
  · rw [hbooks]
    simpa [hcount, Ledger.post] using h.gone

theorem tallied_step (h : Tallied es s) (hbacked : s.worker.Backed s.db)
    (hrun : run (System.start config maxLen Db.empty) es = some s)
    (hmeter : Metered s e) (hstep : step s e = some t) : Tallied (es ++ [e]) t := by
  cases e with
  | insert u message createdAt live id => exact tallied_insert h hbacked hstep
  | sinkErr stored now error => exact tallied_sinkErr h hbacked hrun hmeter hstep
  | markDelivered id => exact tallied_markDelivered h hbacked hrun hstep
  | deadLetter id text failedAt => exact tallied_deadLetter h hbacked hrun hstep
  | reschedule id a next => exact tallied_reschedule h hstep
  | deliver stored now =>
      have hnone : books (es ++ [.deliver stored now]) = books es := by
        rw [books_concat]
        rfl
      obtain ⟨hpc, rfl⟩ := step_deliver.mp hstep
      exact h.quiet rfl rfl hnone (fun _ => rfl) (Or.inr ⟨by rw [hpc]; rfl, rfl⟩)
  | sinkOk stored now =>
      have hnone : books (es ++ [.sinkOk stored now]) = books es := by
        rw [books_concat]
        rfl
      obtain ⟨hpc, rfl⟩ := step_sinkOk.mp hstep
      exact h.quiet rfl rfl hnone (fun _ => rfl) (Or.inr ⟨by rw [hpc]; rfl, rfl⟩)
  | writeError => exact hmeter.elim
  | crash => exact hmeter.elim
  | _ =>
      obtain ⟨hconfig, hworker⟩ := step_aside hstep rfl
      refine h.quiet (step_db hstep) hconfig ?_ (fun _ => rfl) ?_
      · rw [books_concat]
        rfl
      · rcases hworker with hw | ⟨hs, ht⟩
        · exact Or.inl hw
        · exact Or.inr ⟨WorkerPc.failing_of_holding_none hs,
            WorkerPc.failing_of_holding_none ht⟩

/-- **What the columns hold** on every run whose writes succeed. -/
theorem run_tallied
    (hmeter : Replay.StepsMeet step Metered (System.start config maxLen Db.empty) es)
    (hrun : run (System.start config maxLen Db.empty) es = some s) :
    Tallied es s := by
  refine Replay.replay_invariant_of_stepsMeet (I := Tallied) ?_ ?_ hmeter hrun
  · constructor <;> simp [System.start, Db.empty, failures, books, postings,
      Ledger.books, Ledger.empty]
  · intro es s e t hpre hI hC hstep
    exact tallied_step hI (run_backed (backed_start _ _ _) hpre) hpre hC hstep

/-- Once a failure has been recorded, the columns are right exactly while no
message has been given up: every `dead_letter` row is one short. -/
theorem accounted_iff_nothing_buried
    (hmeter : Replay.StepsMeet step Metered (System.start config maxLen Db.empty) es)
    (hrun : run (System.start config maxLen Db.empty) es = some s)
    (hsettled : s.worker.failing = none) :
    Accounted es s ↔ s.db.deadLetter = [] := by
  have htally := run_tallied hmeter hrun
  have htables := tables_match_books hrun
  have hlength : (books es).dead.length = s.db.deadLetter.length := by
    have hsame := congrArg List.length htables.deadLetter
    simpa using hsame.symm
  constructor
  · intro h
    by_contra hne
    obtain ⟨row, rows, hrows⟩ := List.exists_cons_of_ne_nil hne
    cases hdead : (books es).dead with
    | nil =>
        rw [hdead, hrows] at hlength
        simp at hlength
    | cons x xs =>
        have hmem : (x, row) ∈ (books es).dead.zip s.db.deadLetter := by
          rw [hdead, hrows]
          exact List.mem_cons_self
        have hshort := htally.deadLetter _ hmem
        have hexact := h.deadLetter _ hmem
        omega
  · intro hempty
    have hdead : (books es).dead = [] := by
      rw [hempty] at hlength
      exact List.length_eq_zero_iff.mp hlength
    have houtbox : ∀ r ∈ s.db.outbox, r.attempts = failures r.id es := by
      intro r hr
      simpa [hsettled] using htally.outbox r hr
    refine ⟨houtbox, by simp [hdead], ?_⟩
    intro x hx
    constructor
    · intro hmem
      simp [hdead] at hmem
    · intro hcount
      exfalso
      have hall : x ∈ (books es).all := (Ledger.books_perm (postings es)).mem_iff.mpr hx
      have hwhere : x ∈ (books es).pending ∨ x ∈ (books es).gone := by
        simpa [Ledger.all, hdead] using hall
      rcases hwhere with hpending | hgone
      · rw [← htables.outbox] at hpending
        obtain ⟨r, hr, rfl⟩ := List.mem_map.mp hpending
        have hrow := houtbox r hr
        have hle := htally.retried r hr
        have hid : r.entry.1 = r.id := rfl
        rw [hid] at hcount
        omega
      · have hle := htally.gone x hgone
        omega

/-- With retries left nothing is given up. -/
theorem run_nothing_buried
    (hleft : Replay.StepsMeet step RetriesLeft (System.start config maxLen Db.empty) es)
    (hrun : run (System.start config maxLen Db.empty) es = some s) :
    s.db.deadLetter = [] ∧ ∀ id text, s.worker ≠ .deadLettering id text := by
  refine Replay.replay_invariant_of_stepsMeet
    (I := fun _ s => s.db.deadLetter = [] ∧
      ∀ id text, s.worker ≠ .deadLettering id text) ?_ ?_ hleft hrun
  · exact ⟨rfl, by simp [System.start]⟩
  · rintro es s e t _ ⟨hdead, hworker⟩ hC hstep
    constructor
    · rw [step_db hstep]
      cases e with
      | deadLetter id text failedAt =>
          exact absurd (step_deadLetter.mp hstep).1 (hworker id text)
      | _ => exact hdead
    · cases e with
      | sinkErr stored now error =>
          obtain ⟨_, rfl⟩ := step_sinkErr.mp hstep
          have hle : stored.attempts.toNat + 1 ≤ s.config.maxRetries.toNat := hC
          rcases handleFailure_cases s.config stored now error with
            ⟨hlast, _⟩ | ⟨_, hnext⟩
          · have hlt := lt_succ_toNat_of_lt hlast
            omega
          · simp [hnext]
      | writeError => exact hC.elim
      | crash => exact hC.elim
      | deliver => simp at hstep; simp [hstep]
      | sinkOk => simp at hstep; simp [hstep]
      | markDelivered => simp at hstep; simp [hstep]
      | deadLetter => simp at hstep; simp [hstep]
      | reschedule => simp at hstep; simp [hstep]
      | _ =>
          obtain ⟨_, hw⟩ := step_aside hstep rfl
          intro id text heq
          rcases hw with hsame | ⟨_, hnone⟩
          · exact hworker id text (hsame.symm.trans heq)
          · rw [heq] at hnone
            cases hnone

end Tally

/-- **Failure accounting**: the columns are right in every state of every run in
which no message fails past its last retry, once a failure has been recorded. -/
theorem failures_accounted_of_retries_left (config : DeliveryWorker) (maxLen : Nat)
    (es : List Event)
    (hleft : Replay.StepsMeet step RetriesLeft (System.start config maxLen Db.empty) es) :
    Replay.AtEveryState step (fun es s => s.worker.failing = none → Accounted es s)
      (System.start config maxLen Db.empty) es := by
  refine Replay.atEveryState_of_stepsMeet ?_ hleft
  intro es s hmeet hrun hsettled
  have hmeter : Replay.StepsMeet step Metered (System.start config maxLen Db.empty) es := by
    intro pre e post t heq hpre
    exact (hmeet pre e post t heq hpre).metered
  obtain ⟨hnothing, _⟩ := run_nothing_buried hmeet hrun
  exact (accounted_iff_nothing_buried hmeter hrun hsettled).mpr hnothing

/-- A message fails once and has a retry left. -/
def oneRetry : List Event :=
  let m : Message :=
    { fromAddr := none, toAddrs := [['a']], subject := none, body := ['x'] }
  [ .enqueue 0 m 5, .insert 0 m 5 true 1, .notify 0 1,
    .claim 7 (some ⟨1, m, 0⟩), .deliver ⟨1, m, 0⟩ 7, .sinkErr ⟨1, m, 0⟩ 7 (.matrix []),
    .reschedule 1 1 67 ]

theorem oneRetry_accounted :
    Replay.AtEveryState step (fun es s => s.worker.failing = none → Accounted es s)
      (System.start ⟨1, 60⟩ 10 Db.empty) oneRetry := by
  refine failures_accounted_of_retries_left ⟨1, 60⟩ 10 oneRetry ?_
  exact .cons trivial rfl (.cons trivial rfl (.cons trivial rfl (.cons trivial rfl
    (.cons trivial rfl (.cons (Nat.le_refl 1) rfl (.cons trivial rfl .nil))))))

/-- A message fails for good: it failed once and its `dead_letter` row says never. -/
def givenUp : List Event :=
  let m : Message :=
    { fromAddr := none, toAddrs := [['a']], subject := none, body := ['x'] }
  [ .enqueue 0 m 5, .insert 0 m 5 true 1, .notify 0 1,
    .claim 7 (some ⟨1, m, 0⟩), .deliver ⟨1, m, 0⟩ 7, .sinkErr ⟨1, m, 0⟩ 7 (.matrix []),
    .deadLetter 1 (ChimneyError.matrix []).display 8 ]

theorem givenUp_miscounted :
    (run (System.start ⟨0, 60⟩ 10 Db.empty) givenUp).isSome = true ∧
      ¬ Replay.AtEveryState step (fun es s => s.worker.failing = none → Accounted es s)
        (System.start ⟨0, 60⟩ 10 Db.empty) givenUp := by
  refine ⟨rfl, ?_⟩
  intro h
  have hcounted := h givenUp [] _ (by simp) rfl rfl
  have hrow := hcounted.deadLetter _ List.mem_cons_self
  exact absurd hrow (by decide)

end Queue
end ChimneyPost
