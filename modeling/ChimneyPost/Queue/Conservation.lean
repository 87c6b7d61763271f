import ChimneyPost.Lib.Ledger
import ChimneyPost.Queue.System

/-!
# Conservation of accepted mail

The trace of a run is read as the postings of a ledger: a committed `INSERT`
accepts a message, `mark_delivered` settles it and `dead_letter` buries it.  The
two tables are this ledger at every moment (`tables_match_books`), so the ledger's
conservation law is one about the database: an accepted message is in the outbox,
in `dead_letter` or removed, in exactly one of them and exactly once.

What the worker is about to write is backed by what the sink answered
(`Justified`), which gives the two side conditions: a deletion follows an `Ok`
for the same id, a move to `dead_letter` follows a failure past the last retry.
-/

namespace ChimneyPost
namespace Queue

/-- The ledger entry an event makes. -/
def Event.posting : Event → Option (Ledger.Posting Int MailColumns)
  | .insert _ message _ _ id => some (.accept id message.columns)
  | .markDelivered id => some (.settle id)
  | .deadLetter id _ _ => some (.bury id)
  | _ => none

def postings (es : List Event) : List (Ledger.Posting Int MailColumns) :=
  es.filterMap Event.posting

/-- The messages whose `INSERT` committed, with their ids, in order. -/
def inserted (es : List Event) : List (Int × MailColumns) :=
  Ledger.accepted (postings es)

/-- The ledger kept from the trace alone. -/
def books (es : List Event) : Ledger Int MailColumns :=
  Ledger.books (postings es)

def OutboxRow.entry (r : OutboxRow) : Int × MailColumns :=
  (r.id, r.toMailColumns)

@[simp] theorem postings_concat (es : List Event) (e : Event) :
    postings (es ++ [e]) = postings es ++ e.posting.toList := by
  cases h : e.posting <;> simp [postings, h]

theorem books_concat (es : List Event) (e : Event) :
    books (es ++ [e]) =
      match e.posting with
      | some p => (books es).post p
      | none => books es := by
  unfold books
  rw [postings_concat]
  cases e.posting <;> simp

theorem inserted_concat (es : List Event) (e : Event) :
    inserted (es ++ [e]) =
      inserted es ++ (e.posting.bind Ledger.Posting.accepted).toList := by
  unfold inserted
  rw [postings_concat]
  cases e.posting <;> simp

/-! ## The tables are the ledger -/

/-- The outbox holds the pending items, `dead_letter` the buried ones. -/
structure MatchesBooks (L : Ledger Int MailColumns) (db : Db) : Prop where
  outbox : db.outbox.map OutboxRow.entry = L.pending
  deadLetter : db.deadLetter.map (fun r => r.toMailColumns) = L.dead.map Prod.snd

/-- The ledger entry a change to the tables amounts to. -/
def Change.posting (db : Db) : Change → Option (Ledger.Posting Int MailColumns)
  | .nothing => none
  | .insert columns _ => some (.accept (db.outboxSeq + 1) columns)
  | .delete id => some (.settle id)
  | .bury id _ _ => some (.bury id)
  | .schedule _ _ _ => none

theorem map_entry_filter_ne (rows : List OutboxRow) (id : Int) :
    (rows.filter (fun r => r.id ≠ id)).map OutboxRow.entry =
      (rows.map OutboxRow.entry).filter (fun x => x.1 ≠ id) := by
  rw [List.filter_map]
  rfl

theorem map_entry_filter_eq (rows : List OutboxRow) (id : Int) :
    (rows.filter (fun r => r.id = id)).map OutboxRow.entry =
      (rows.map OutboxRow.entry).filter (fun x => x.1 = id) := by
  rw [List.filter_map]
  rfl

/-- The copies `dead_letter` inserts have the columns of the rows they copy. -/
theorem deadLetterRows_columns (db : Db) (id : Int) (lastError : Str)
    (failedAt : Int) :
    (db.deadLetterRows id lastError failedAt).map (fun r => r.toMailColumns) =
      ((db.outbox.filter (fun r => r.id = id)).map OutboxRow.entry).map Prod.snd := by
  apply List.ext_getElem?
  intro i
  simp only [Db.deadLetterRows, List.getElem?_map, List.getElem?_mapIdx,
    Option.map_map]
  rfl

/-- Each change moves the tables as its entry moves the ledger. -/
theorem matchesBooks_apply {L : Ledger Int MailColumns} {db : Db}
    (h : MatchesBooks L db) (c : Change) :
    MatchesBooks
      (match c.posting db with
        | some p => L.post p
        | none => L)
      (c.apply db) := by
  cases c with
  | nothing =>
      exact h
  | insert columns createdAt =>
      refine ⟨?_, h.deadLetter⟩
      show (db.outbox ++ [db.newRow columns createdAt]).map OutboxRow.entry = _
      rw [List.map_append, h.outbox]
      rfl
  | delete id =>
      refine ⟨?_, h.deadLetter⟩
      show (db.outbox.filter (fun r => r.id ≠ id)).map OutboxRow.entry = _
      rw [map_entry_filter_ne, h.outbox]
      rfl
  | bury id lastError failedAt =>
      constructor
      · show (db.outbox.filter (fun r => r.id ≠ id)).map OutboxRow.entry = _
        rw [map_entry_filter_ne, h.outbox]
        rfl
      · show (db.deadLetter ++ db.deadLetterRows id lastError failedAt).map
            (fun r => r.toMailColumns) = _
        rw [List.map_append, h.deadLetter, deadLetterRows_columns,
          map_entry_filter_eq, h.outbox, ← List.map_append]
        rfl
  | schedule id attempts nextAttemptAt =>
      refine ⟨?_, h.deadLetter⟩
      show (db.outbox.map (Db.setSchedule id attempts nextAttemptAt)).map
          OutboxRow.entry = _
      have hentry : OutboxRow.entry ∘ Db.setSchedule id attempts nextAttemptAt =
          OutboxRow.entry := by
        funext r
        simp [OutboxRow.entry]
      rw [List.map_map, hentry, h.outbox]
      rfl

/-- An enabled event makes the entry its change amounts to. -/
theorem posting_eq_change {s s' : System} {e : Event}
    (h : step s e = some s') :
    e.posting = e.change.posting s.db := by
  cases e with
  | insert t message createdAt live id =>
      obtain ⟨_, _, rfl, _⟩ := step_insert.mp h
      rfl
  | _ => rfl

section Runs

variable {config : DeliveryWorker} {maxLen : Nat} {es : List Event} {s : System}

theorem tables_match_books
    (hrun : run (System.start config maxLen Db.empty) es = some s) :
    MatchesBooks (books es) s.db := by
  refine Replay.replay_invariant
    (I := fun es s => MatchesBooks (books es) s.db) ?_ ?_ hrun
  · exact ⟨rfl, rfl⟩
  · intro es s e t _ hI hstep
    rw [books_concat, step_db hstep, posting_eq_change hstep]
    exact matchesBooks_apply hI e.change

/-- Inserted ids increase along the run, up to the last one handed out. -/
theorem inserted_ids_increase
    (hrun : run (System.start config maxLen Db.empty) es = some s) :
    ((inserted es).map Prod.fst).Pairwise (fun i j => i < j) ∧
      ∀ x ∈ inserted es, x.1 ≤ s.db.outboxSeq := by
  refine Replay.replay_invariant
    (I := fun es s => ((inserted es).map Prod.fst).Pairwise (fun i j => i < j) ∧
      ∀ x ∈ inserted es, x.1 ≤ s.db.outboxSeq) ?_ ?_ hrun
  · exact ⟨List.Pairwise.nil, by simp [inserted, postings, Ledger.accepted]⟩
  · rintro es s e t _ ⟨hsorted, hle⟩ hstep
    have hmono := step_outboxSeq_le hstep
    have hkeep : ∀ x ∈ inserted es, x.1 ≤ t.db.outboxSeq := by
      intro x hx
      exact le_trans (hle x hx) hmono
    rw [inserted_concat]
    cases e with
    | insert u message createdAt live id =>
        obtain ⟨_, _, rfl, rfl⟩ := step_insert.mp hstep
        simp only [Event.posting, Option.bind_some, Ledger.Posting.accepted,
          Option.toList_some, List.map_append, List.map_cons, List.map_nil]
        constructor
        · rw [List.pairwise_append]
          refine ⟨hsorted, List.pairwise_singleton _ _, ?_⟩
          intro i hi j hj
          obtain ⟨x, hx, rfl⟩ := List.mem_map.mp hi
          rw [List.mem_singleton] at hj
          have hxle := hle x hx
          omega
        · intro x hx
          rcases List.mem_append.mp hx with hx | hx
          · exact hkeep x hx
          · rw [List.mem_singleton] at hx
            subst hx
            exact le_refl _
    | _ =>
        simp only [Event.posting, Option.bind_some, Option.bind_none,
          Ledger.Posting.accepted, Option.toList_none, List.append_nil]
        exact ⟨hsorted, hkeep⟩

theorem inserted_nodup
    (hrun : run (System.start config maxLen Db.empty) es = some s) :
    (inserted es).Nodup := by
  apply List.Nodup.of_map Prod.fst
  exact (inserted_ids_increase hrun).1.imp (fun h => ne_of_lt h)

end Runs

/-! ## What the worker writes is backed by what the sink answered -/

/-- The pending write of the worker follows from an answer in the trace. -/
structure Justified (es : List Event) (s : System) : Prop where
  marking : ∀ id, s.worker = .marking id →
    ∃ stored now, Event.sinkOk stored now ∈ es ∧ stored.id = id
  deadLettering : ∀ id text, s.worker = .deadLettering id text →
    ∃ stored now error, Event.sinkErr stored now error ∈ es ∧ stored.id = id ∧
      s.config.maxRetries.toNat < stored.attempts.toNat + 1

/-- A worker with no such write pending has nothing to justify. -/
theorem justified_of_not_writing {es : List Event} {s : System}
    (h : s.worker.writing = false) : Justified es s := by
  constructor
  · intro id hw
    simp [hw, WorkerPc.writing] at h
  · intro id text hw
    simp [hw, WorkerPc.writing] at h

/-- A justification survives events that leave the worker alone. -/
theorem Justified.concat {es : List Event} {s t : System} {e : Event}
    (h : Justified es s) (hworker : t.worker = s.worker)
    (hconfig : t.config = s.config) : Justified (es ++ [e]) t := by
  constructor
  · intro id hw
    rw [hworker] at hw
    obtain ⟨stored, now, hmem, hid⟩ := h.marking id hw
    exact ⟨stored, now, List.mem_append_left _ hmem, hid⟩
  · intro id text hw
    rw [hworker] at hw
    obtain ⟨stored, now, error, hmem, hid, hlt⟩ := h.deadLettering id text hw
    rw [hconfig]
    exact ⟨stored, now, error, List.mem_append_left _ hmem, hid, hlt⟩

theorem justified_step {es : List Event} {s t : System} {e : Event}
    (h : Justified es s) (hstep : step s e = some t) :
    Justified (es ++ [e]) t := by
  cases e with
  | sinkOk stored now =>
      obtain ⟨_, rfl⟩ := step_sinkOk.mp hstep
      constructor
      · intro id hw
        obtain rfl := WorkerPc.marking.inj hw
        exact ⟨stored, now, by simp, rfl⟩
      · intro id text hw
        cases hw
  | sinkErr stored now error =>
      obtain ⟨_, rfl⟩ := step_sinkErr.mp hstep
      rcases handleFailure_cases s.config stored now error with
        ⟨hlt, hpc⟩ | ⟨_, hpc⟩
      · constructor
        · intro id hw
          simp [hpc] at hw
        · intro id text hw
          simp only [hpc, WorkerPc.deadLettering.injEq] at hw
          exact ⟨stored, now, error, by simp, hw.1, lt_succ_toNat_of_lt hlt⟩
      · constructor
        · intro id hw
          simp [hpc] at hw
        · intro id text hw
          simp [hpc] at hw
  | enqueue => simp at hstep; exact h.concat (by simp [hstep]) (by simp [hstep])
  | insert => simp at hstep; exact h.concat (by simp [hstep]) (by simp [hstep])
  | refuse => simp at hstep; exact h.concat (by simp [hstep]) (by simp [hstep])
  | notify => simp at hstep; exact h.concat (by simp [hstep]) (by simp [hstep])
  | cancel => simp at hstep; exact h.concat (by simp [hstep]) (by simp [hstep])
  | setShutdown => simp at hstep; exact h.concat (by simp [hstep]) (by simp [hstep])
  | nothingDue now =>
      obtain ⟨_, rfl⟩ := step_nothingDue.mp hstep
      apply justified_of_not_writing
      cases hs : s.shutdown <;> simp [WorkerPc.writing]
  | backoffElapsed =>
      obtain ⟨_, rfl⟩ := step_backoffElapsed.mp hstep
      apply justified_of_not_writing
      cases hs : s.shutdown <;> simp [WorkerPc.writing]
  | _ =>
      simp at hstep
      apply justified_of_not_writing
      simp [hstep, WorkerPc.writing, System.start]

theorem run_justified {config : DeliveryWorker} {maxLen : Nat} {db : Db}
    {es : List Event} {s : System}
    (hrun : run (System.start config maxLen db) es = some s) :
    Justified es s := by
  refine Replay.replay_invariant (I := Justified) ?_ ?_ hrun
  · exact justified_of_not_writing rfl
  · intro es s e t _ hI hstep
    exact justified_step hI hstep

/-! ## Conservation -/

/-- What a run keeps of the messages it inserted. -/
structure Conserved (config : DeliveryWorker) (maxLen : Nat) (es : List Event)
    (s : System) : Prop where
  /-- the outbox is what is pending and `dead_letter` what was buried -/
  tables : MatchesBooks (books es) s.db
  /-- an inserted message is in one place, once, under its own content -/
  onePlace : ∀ x ∈ inserted es, (books es).InOnePlace x
  /-- the outbox holds inserted messages only -/
  nothingElse : ∀ r ∈ s.db.outbox, r.entry ∈ inserted es
  /-- a deletion follows an `Ok` of the sink for the same id -/
  deleted : ∀ pre id post, es = pre ++ .markDelivered id :: post →
    ∃ stored now, Event.sinkOk stored now ∈ pre ∧ stored.id = id
  /-- a move to `dead_letter` follows a failure past the last retry -/
  buried : ∀ pre id text failedAt post t,
    es = pre ++ .deadLetter id text failedAt :: post →
    run (System.start config maxLen Db.empty) pre = some t →
    ∃ stored now error, Event.sinkErr stored now error ∈ pre ∧ stored.id = id ∧
      t.config.maxRetries.toNat < stored.attempts.toNat + 1

/-- **Accepted mail is conserved**, over every run from a fresh database. -/
theorem accepted_mail_conserved (config : DeliveryWorker) (maxLen : Nat)
    (es : List Event) (s : System)
    (hrun : run (System.start config maxLen Db.empty) es = some s) :
    Conserved config maxLen es s := by
  have htables := tables_match_books hrun
  refine ⟨htables, ?_, ?_, ?_, ?_⟩
  · intro x hx
    exact Ledger.inOnePlace_of_accepted (inserted_nodup hrun) hx
  · intro r hr
    apply Ledger.mem_accepted_of_pending
    have hmem : r.entry ∈ (books es).pending := by
      rw [← htables.outbox]
      exact List.mem_map_of_mem hr
    exact hmem
  · intro pre id post heq
    subst heq
    obtain ⟨t, t', hpre, hstep, _⟩ := Replay.replay_at hrun
    exact (run_justified hpre).marking id (step_markDelivered.mp hstep).1
  · intro pre id text failedAt post t heq hpre
    subst heq
    obtain ⟨t₂, t', hpre₂, hstep, _⟩ := Replay.replay_at hrun
    obtain rfl := Option.some.inj (hpre.symm.trans hpre₂)
    exact (run_justified hpre).deadLettering id text (step_deadLetter.mp hstep).1

/-- One message is sent and removed, the next one fails for good, a crash between. -/
def deliveryAndBurial : List Event :=
  let m : Message :=
    { fromAddr := none, toAddrs := [['a']], subject := none, body := ['x'] }
  [ .enqueue 0 m 5, .insert 0 m 5 true 1, .notify 0 1,
    .claim 7 (some ⟨1, m, 0⟩), .deliver ⟨1, m, 0⟩ 7, .sinkOk ⟨1, m, 0⟩ 7,
    .markDelivered 1, .enqueue 3 m 8, .insert 3 m 8 true 2,
    .crash ⟨0, 60⟩ 0,
    .claim 9 (some ⟨2, m, 0⟩), .deliver ⟨2, m, 0⟩ 9,
    .sinkErr ⟨2, m, 0⟩ 9 (.matrix []),
    .deadLetter 2 (ChimneyError.matrix []).display 10 ]

theorem deliveryAndBurial_conserved :
    ∃ s, run (System.start ⟨5, 60⟩ 10 Db.empty) deliveryAndBurial = some s ∧
      Conserved ⟨5, 60⟩ 10 deliveryAndBurial s := by
  exact ⟨_, rfl, accepted_mail_conserved _ _ _ _ rfl⟩

end Queue
end ChimneyPost
