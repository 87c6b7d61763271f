import ChimneyPost.Queue.Backed
import ChimneyPost.Queue.Conservation
import ChimneyPost.Queue.RoundTrip

/-!
# Idempotency keys

`deliver_one` names an attempt after the id of the row it works on.  To say that the
key names the message, each row is given an origin that no id enters: the place the
row had in the outbox the run started with, or the place in the run of the event that
inserted it.  The origins are kept as a second ledger (`originPostings`): what moves a
row moves its origin.

Ids and origins are allotted together and each of the two is allotted once
(`allotted_nodup`), over the whole run and across crashes, so at any two moments equal
ids mean equal origins and equal origins equal ids.
-/

namespace ChimneyPost
namespace Queue

/-- Where a row of the outbox comes from. -/
inductive Origin where
  /-- it was at this place of the outbox when the run started -/
  | initial (place : Nat)
  /-- the event at this position of the run inserted it -/
  | inserted (position : Nat)
deriving DecidableEq

/-- The entry the event at position `n` of the run makes in the ledger of origins. -/
def Event.originPosting (n : Nat) : Event → Option (Ledger.Posting Int Origin)
  | .insert _ _ _ _ id => some (.accept id (.inserted n))
  | .markDelivered id => some (.settle id)
  | .deadLetter id _ _ => some (.bury id)
  | _ => none

/-- The rows a run starts with. -/
def Db.firstOrigins (db : Db) : List (Int × Origin) :=
  db.outbox.zipIdx.map fun x => (x.1.id, .initial x.2)

/-- The ledger entries of a run on `db`. -/
def originPostings (db : Db) (es : List Event) : List (Ledger.Posting Int Origin) :=
  db.firstOrigins.map (fun x => .accept x.1 x.2) ++
    es.zipIdx.filterMap fun x => x.1.originPosting x.2

/-- The rows of the outbox after a run, each as its id and its origin. -/
def origins (db : Db) (es : List Event) : List (Int × Origin) :=
  (Ledger.books (originPostings db es)).pending

/-- All pairs of an id and an origin the run has seen. -/
def allotted (db : Db) (es : List Event) : List (Int × Origin) :=
  Ledger.accepted (originPostings db es)

/-- The id and the columns a row of this origin is made with. -/
def Origin.entry (db : Db) (es : List Event) : Origin → Option (Int × MailColumns)
  | .initial place => db.outbox[place]?.map OutboxRow.entry
  | .inserted position => es[position]?.bind fun e =>
      e.posting.bind Ledger.Posting.accepted

/-- The origin of the row the worker has read: the message an attempt is for. -/
def attempted (db : Db) (es : List Event) (stored : StoredMessage) : Option Origin :=
  ((origins db es).find? (fun x => x.1 = stored.id)).map Prod.snd

/-- The key of a `sink.deliver` call. -/
def Event.key : Event → Option Str
  | .deliver stored _ => some (idempotencyKey stored.id)
  | _ => none

/-- The row an event takes out of the outbox. -/
def Event.removes : Event → Option Int
  | .markDelivered id => some id
  | .deadLetter id _ _ => some id
  | _ => none

/-! ## Keys and ids -/

/-- The digits of a number determine it. -/
theorem toDigits_injective :
    Function.Injective (Nat.toDigits 10) := by
  intro m n h
  have hread := congrArg (fun digits => Nat.ofDigitChars 10 digits 0) h
  simpa only [Nat.ofDigitChars_ten_toDigits] using hread

theorem intToStr_ofNat (n : Nat) :
    intToStr (Int.ofNat n) = Nat.toDigits 10 n := by
  exact Nat.toList_repr

theorem intToStr_negSucc (n : Nat) :
    intToStr (Int.negSucc n) = '-' :: Nat.toDigits 10 (n + 1) := by
  show ("-" ++ Nat.repr (n + 1)).toList = _
  rw [String.toList_append, Nat.toList_repr]
  rfl

/-- No number starts with a minus sign. -/
theorem toDigits_ne_minus (m : Nat) (rest : List Char) :
    Nat.toDigits 10 m ≠ '-' :: rest := by
  intro h
  have hmem : '-' ∈ Nat.toDigits 10 m := by
    rw [h]
    exact List.mem_cons_self
  have hdigit := Nat.isDigit_of_mem_toDigits (by decide) (by decide) hmem
  exact absurd hdigit (by decide)

theorem intToStr_injective :
    Function.Injective intToStr := by
  intro m n h
  cases m with
  | ofNat m =>
      cases n with
      | ofNat n =>
          rw [intToStr_ofNat, intToStr_ofNat] at h
          rw [toDigits_injective h]
      | negSucc n =>
          rw [intToStr_ofNat, intToStr_negSucc] at h
          exact absurd h (toDigits_ne_minus m _)
  | negSucc m =>
      cases n with
      | ofNat n =>
          rw [intToStr_ofNat, intToStr_negSucc] at h
          exact absurd h.symm (toDigits_ne_minus n _)
      | negSucc n =>
          rw [intToStr_negSucc, intToStr_negSucc] at h
          have hsucc := toDigits_injective (List.cons.inj h).2
          rw [Nat.succ.inj hsucc]

/-- Two keys are equal exactly when the ids are. -/
theorem idempotencyKey_inj {m n : Int} :
    idempotencyKey m = idempotencyKey n ↔ m = n := by
  unfold idempotencyKey
  rw [List.append_cancel_left_eq]
  exact intToStr_injective.eq_iff

/-! ## Origins along a run -/

section Steps

variable (db : Db) (es : List Event) (e : Event)

theorem originPostings_concat :
    originPostings db (es ++ [e]) =
      originPostings db es ++ (e.originPosting es.length).toList := by
  unfold originPostings
  rw [List.zipIdx_append, List.filterMap_append, List.append_assoc]
  cases h : e.originPosting es.length <;> simp [h]

theorem origins_concat :
    origins db (es ++ [e]) =
      match e.originPosting es.length with
      | some p => ((Ledger.books (originPostings db es)).post p).pending
      | none => origins db es := by
  unfold origins
  rw [originPostings_concat]
  cases e.originPosting es.length <;> simp

theorem allotted_concat :
    allotted db (es ++ [e]) =
      allotted db es ++
        ((e.originPosting es.length).bind Ledger.Posting.accepted).toList := by
  unfold allotted
  rw [originPostings_concat]
  cases e.originPosting es.length <;> simp

theorem origins_nil :
    origins db [] = db.firstOrigins := by
  unfold origins originPostings
  rw [List.zipIdx_nil, List.filterMap_nil, List.append_nil]
  exact Ledger.books_accept_pending db.firstOrigins

theorem allotted_nil :
    allotted db [] = db.firstOrigins := by
  unfold allotted originPostings
  rw [List.zipIdx_nil, List.filterMap_nil, List.append_nil]
  exact Ledger.accepted_accept db.firstOrigins

/-- The rows there are, are rows the run has seen. -/
theorem origins_subset_allotted :
    origins db es ⊆ allotted db es := by
  intro x hx
  exact Ledger.mem_accepted_of_pending hx

/-- What was allotted stays allotted. -/
theorem allotted_subset_append (fs : List Event) :
    allotted db es ⊆ allotted db (es ++ fs) := by
  induction fs using List.reverseRecOn with
  | nil =>
      rw [List.append_nil]
      exact List.Subset.refl _
  | append_singleton fs f ih =>
      rw [← List.append_assoc, allotted_concat]
      exact List.subset_append_of_subset_left _ ih

end Steps

theorem Db.firstOrigins_ids (db : Db) :
    db.firstOrigins.map Prod.fst = db.outbox.map (fun r => r.id) := by
  have hcomp : Prod.fst ∘ (fun x : OutboxRow × Nat => (x.1.id, Origin.initial x.2)) =
      (fun r => r.id) ∘ Prod.fst := by
    rfl
  rw [Db.firstOrigins, List.map_map, hcomp, ← List.map_map, List.zipIdx_map_fst]

theorem Db.firstOrigins_origins (db : Db) :
    db.firstOrigins.map Prod.snd = (List.range' 0 db.outbox.length).map Origin.initial := by
  have hcomp : Prod.snd ∘ (fun x : OutboxRow × Nat => (x.1.id, Origin.initial x.2)) =
      Origin.initial ∘ Prod.snd := by
    rfl
  rw [Db.firstOrigins, List.map_map, hcomp, ← List.map_map, List.zipIdx_map_snd]

/-- No origin is allotted before the event that makes it. -/
theorem position_lt_length {db : Db} {es : List Event} {id : Int} {n : Nat}
    (h : (id, Origin.inserted n) ∈ allotted db es) : n < es.length := by
  induction es using List.reverseRecOn with
  | nil =>
      rw [allotted_nil] at h
      have hmem := List.mem_map_of_mem (f := Prod.snd) h
      rw [Db.firstOrigins_origins] at hmem
      simp at hmem
  | append_singleton es e ih =>
      rw [allotted_concat] at h
      rw [List.length_append, List.length_singleton]
      rcases List.mem_append.mp h with h | h
      · exact Nat.lt_succ_of_lt (ih h)
      · cases e <;> simp [Event.originPosting, Ledger.Posting.accepted] at h
        omega

/-- Each origin is allotted once. -/
theorem allotted_origins_nodup (db : Db) (es : List Event) :
    ((allotted db es).map Prod.snd).Nodup := by
  induction es using List.reverseRecOn with
  | nil =>
      rw [allotted_nil, Db.firstOrigins_origins]
      apply List.Nodup.map _ List.nodup_range'
      intro i j h
      exact Origin.initial.inj h
  | append_singleton es e ih =>
      rw [allotted_concat, List.map_append]
      cases e with
      | insert t message createdAt live id =>
          apply List.Nodup.append ih (List.nodup_singleton _)
          intro o ho hlast
          rw [List.mem_singleton.mp hlast] at ho
          obtain ⟨x, hx, hxo⟩ := List.mem_map.mp ho
          have hagain : (x.1, Origin.inserted es.length) ∈ allotted db es := by
            show (x.1, (id, Origin.inserted es.length).2) ∈ allotted db es
            rw [← hxo]
            exact hx
          exact lt_irrefl _ (position_lt_length hagain)
      | _ =>
          simpa [Event.originPosting, Ledger.Posting.accepted] using ih

/-- A column taken of the rows that stay. -/
theorem map_filter_ne {entries : List (Int × Origin)} {rows : List OutboxRow}
    (h : entries.map Prod.fst = rows.map (fun r => r.id)) (id : Int) :
    (entries.filter (fun x => x.1 ≠ id)).map Prod.fst =
      (rows.filter (fun r => r.id ≠ id)).map (fun r => r.id) := by
  have hentries := List.filter_map (f := Prod.fst) (p := fun i : Int => i ≠ id) (l := entries)
  have hrows := List.filter_map (f := fun r : OutboxRow => r.id)
    (p := fun i : Int => i ≠ id) (l := rows)
  rw [h, hrows] at hentries
  exact hentries.symm

/-- Later events leave an entry as it was. -/
theorem Origin.entry_append {db : Db} {es fs : List Event} {o : Origin}
    {x : Int × MailColumns} (h : o.entry db es = some x) :
    o.entry db (es ++ fs) = some x := by
  cases o with
  | initial place =>
      exact h
  | inserted position =>
      obtain ⟨e, he, hx⟩ := Option.bind_eq_some_iff.mp h
      obtain ⟨hlt, _⟩ := List.getElem?_eq_some_iff.mp he
      apply Option.bind_eq_some_iff.mpr
      refine ⟨e, ?_, hx⟩
      rw [List.getElem?_append_left hlt]
      exact he

section Runs

variable {config : DeliveryWorker} {maxLen : Nat} {db : Db} {es : List Event}
  {s : System}

/-- The entries are kept of the rows that are there. -/
theorem origins_ids
    (hrun : run (System.start config maxLen db) es = some s) :
    (origins db es).map Prod.fst = s.db.outbox.map (fun r => r.id) := by
  refine Replay.replay_invariant
    (I := fun es s => (origins db es).map Prod.fst = s.db.outbox.map (fun r => r.id))
    ?_ ?_ hrun
  · rw [origins_nil]
    exact db.firstOrigins_ids
  · intro es s e t _ hI hstep
    rw [origins_concat]
    cases e with
    | insert u message createdAt live id =>
        obtain ⟨_, _, rfl, rfl⟩ := step_insert.mp hstep
        show (origins db es ++ [(s.db.outboxSeq + 1, Origin.inserted es.length)]).map
          Prod.fst = (s.db.outbox ++ [s.db.newRow message.columns createdAt]).map _
        rw [List.map_append, List.map_append, hI]
        rfl
    | markDelivered id =>
        obtain ⟨_, rfl⟩ := step_markDelivered.mp hstep
        exact map_filter_ne hI id
    | deadLetter id text failedAt =>
        obtain ⟨_, rfl⟩ := step_deadLetter.mp hstep
        exact map_filter_ne hI id
    | reschedule id attempts next =>
        obtain ⟨_, rfl⟩ := step_reschedule.mp hstep
        have hids : (fun r : OutboxRow => r.id) ∘ Db.setSchedule id attempts next =
            fun r => r.id := by
          funext r
          exact Db.setSchedule_id id attempts next r
        show (origins db es).map Prod.fst =
          (s.db.outbox.map (Db.setSchedule id attempts next)).map (fun r => r.id)
        rw [List.map_map, hids]
        exact hI
    | _ =>
        simp at hstep
        simpa [hstep, Event.originPosting, System.start] using hI

/-- Ids increase along the run, up to the last one handed out. -/
theorem allotted_ids_increase
    (hrun : run (System.start config maxLen db) es = some s) :
    ((allotted db es).map Prod.fst).Pairwise (fun i j => i < j) ∧
      ∀ x ∈ allotted db es, x.1 ≤ s.db.outboxSeq := by
  refine Replay.replay_invariant
    (I := fun es s => ((allotted db es).map Prod.fst).Pairwise (fun i j => i < j) ∧
      ∀ x ∈ allotted db es, x.1 ≤ s.db.outboxSeq) ?_ ?_ hrun
  · rw [allotted_nil]
    constructor
    · rw [db.firstOrigins_ids, List.pairwise_map]
      exact db.outbox_sorted
    · intro x hx
      have hid := List.mem_map_of_mem (f := Prod.fst) hx
      rw [db.firstOrigins_ids] at hid
      obtain ⟨r, hr, hrid⟩ := List.mem_map.mp hid
      rw [← hrid]
      exact db.outbox_le_seq r hr
  · rintro es s e t _ ⟨hsorted, hle⟩ hstep
    have hmono := step_outboxSeq_le hstep
    have hkeep : ∀ x ∈ allotted db es, x.1 ≤ t.db.outboxSeq := by
      intro x hx
      exact le_trans (hle x hx) hmono
    rw [allotted_concat]
    cases e with
    | insert u message createdAt live id =>
        obtain ⟨_, _, rfl, rfl⟩ := step_insert.mp hstep
        constructor
        · rw [List.map_append, List.pairwise_append]
          refine ⟨hsorted, List.pairwise_singleton _ _, ?_⟩
          intro i hi j hj
          obtain ⟨x, hx, rfl⟩ := List.mem_map.mp hi
          rw [List.mem_singleton.mp hj]
          exact Int.lt_add_one_of_le (hle x hx)
        · intro x hx
          rcases List.mem_append.mp hx with hx | hx
          · exact hkeep x hx
          · rw [List.mem_singleton.mp hx]
            exact le_refl _
    | _ =>
        simp only [Event.originPosting, Option.bind_some, Option.bind_none,
          Ledger.Posting.accepted, Option.toList_none, List.append_nil]
        exact ⟨hsorted, hkeep⟩

/-- At any two moments: one id, one origin. -/
theorem allotted_inj (hrun : run (System.start config maxLen db) es = some s)
    {x y : Int × Origin} (hx : x ∈ allotted db es) (hy : y ∈ allotted db es) :
    x.1 = y.1 ↔ x.2 = y.2 := by
  constructor
  · intro hid
    have hnodup : ((allotted db es).map Prod.fst).Nodup :=
      (allotted_ids_increase hrun).1.imp (fun h => ne_of_lt h)
    rw [List.inj_on_of_nodup_map hnodup hx hy hid]
  · intro horigin
    rw [List.inj_on_of_nodup_map (allotted_origins_nodup db es) hx hy horigin]

/-- A row keeps the id and the columns its origin made it with. -/
theorem allotted_keeps (hrun : run (System.start config maxLen db) es = some s) :
    ∀ x ∈ allotted db es, ∃ c, x.2.entry db es = some (x.1, c) ∧ Keeps x.1 c s.db := by
  refine Replay.replay_invariant
    (I := fun es s => ∀ x ∈ allotted db es,
      ∃ c, x.2.entry db es = some (x.1, c) ∧ Keeps x.1 c s.db) ?_ ?_ hrun
  · intro x hx
    rw [allotted_nil] at hx
    obtain ⟨y, hy, rfl⟩ := List.mem_map.mp hx
    have hrow := List.mem_zipIdx_iff_getElem?.mp hy
    refine ⟨y.1.toMailColumns, ?_, ?_, ?_⟩
    · show db.outbox[y.2]?.map OutboxRow.entry = _
      rw [hrow]
      rfl
    · exact db.outbox_le_seq y.1 (List.mem_of_getElem? hrow)
    · intro r hr hid
      rw [db.row_unique hr (List.mem_of_getElem? hrow) hid]
  · intro es s e t _ hI hstep x hx
    rw [allotted_concat] at hx
    rcases List.mem_append.mp hx with hx | hx
    · obtain ⟨c, hentry, hkeeps⟩ := hI x hx
      refine ⟨c, Origin.entry_append hentry, ?_⟩
      rw [step_db hstep]
      exact hkeeps.apply e.change
    · cases e with
      | insert u message createdAt live id =>
          obtain ⟨_, _, rfl, rfl⟩ := step_insert.mp hstep
          rw [List.mem_singleton.mp hx]
          refine ⟨message.columns, ?_, keeps_insertOutbox s.db message.columns createdAt⟩
          simp [Origin.entry, Event.posting, Ledger.Posting.accepted]
      | _ =>
          simp [Event.originPosting, Ledger.Posting.accepted] at hx

/-- The row the worker is about to send has an origin. -/
theorem attempted_eq_some {now : Int} {stored : StoredMessage}
    (hrun : run (System.start config maxLen db) es = some s)
    (hpc : s.worker = .claimed now (some stored)) :
    ∃ o, attempted db es stored = some o ∧ (stored.id, o) ∈ allotted db es ∧
      ∃ r ∈ s.db.outbox, rowToStored r = stored := by
  have hbacked := run_backed (backed_start config maxLen db) hrun
  rw [hpc] at hbacked
  obtain ⟨r, hr, hstored, _⟩ := hbacked
  have hid : stored.id ∈ (origins db es).map Prod.fst := by
    rw [origins_ids hrun, ← hstored]
    exact List.mem_map_of_mem hr
  obtain ⟨x, hx, hxid⟩ := List.mem_map.mp hid
  have hfound : ((origins db es).find? (fun x => x.1 = stored.id)).isSome := by
    rw [List.find?_isSome]
    exact ⟨x, hx, by simpa using hxid⟩
  obtain ⟨y, hy⟩ := Option.isSome_iff_exists.mp hfound
  have hyid : y.1 = stored.id := by
    simpa using List.find?_some hy
  refine ⟨y.2, ?_, ?_, r, hr, hstored⟩
  · rw [attempted, hy, Option.map_some]
  · rw [← hyid]
    exact origins_subset_allotted db es (List.mem_of_find?_eq_some hy)

/-- The id of a row that leaves the outbox has been handed out. -/
theorem removes_le_seq {t : System} {e : Event} {id : Int}
    (hrun : run (System.start config maxLen db) es = some s)
    (hstep : step s e = some t) (h : e.removes = some id) :
    id ≤ t.db.outboxSeq := by
  have hbacked := run_backed (backed_start config maxLen db) hrun
  have hmono := step_outboxSeq_le hstep
  have hrow : ∃ r ∈ s.db.outbox, r.id = id := by
    cases e with
    | markDelivered id' =>
        obtain rfl := Option.some.inj h
        rw [(step_markDelivered.mp hstep).1] at hbacked
        exact hbacked
    | deadLetter id' text failedAt =>
        obtain rfl := Option.some.inj h
        rw [(step_deadLetter.mp hstep).1] at hbacked
        exact hbacked
    | _ => cases h
  obtain ⟨r, hr, rfl⟩ := hrow
  exact le_trans (s.db.outbox_le_seq r hr) hmono

/-- The ids a run hands out are beyond those handed out before it. -/
theorem run_outboxSeq_le {s₀ : System} (hrun : run s₀ es = some s) :
    s₀.db.outboxSeq ≤ s.db.outboxSeq := by
  refine Replay.replay_invariant
    (I := fun _ s => s₀.db.outboxSeq ≤ s.db.outboxSeq) (le_refl _) ?_ hrun
  intro es s e t _ hI hstep
  exact le_trans hI (step_outboxSeq_le hstep)

end Runs

/-! ## Keys name messages -/

/-- What a run's idempotency keys say about its messages. -/
structure KeysNameMessages (db : Db) (es : List Event) : Prop where
  /-- every `sink.deliver` call is an attempt for one message, with its content -/
  attempt : ∀ pre stored now post, es = pre ++ .deliver stored now :: post →
    ∃ o c, attempted db pre stored = some o ∧
      o.entry db es = some (stored.id, c) ∧ stored.message = c.message
  /-- two calls carry one key exactly when they are attempts for one message -/
  sameKey : ∀ pre stored now post pre' stored' now' post',
    es = pre ++ .deliver stored now :: post →
    es = pre' ++ .deliver stored' now' :: post' →
    ((Event.deliver stored now).key = (Event.deliver stored' now').key ↔
      attempted db pre stored = attempted db pre' stored')
  /-- the key of a message that has left the outbox is not given to a later one -/
  retired : ∀ pre e mid t m createdAt live id id' post,
    es = pre ++ e :: (mid ++ .insert t m createdAt live id' :: post) →
    e.removes = some id → idempotencyKey id' ≠ idempotencyKey id

/-- **Idempotency keys name messages**, over every run on any database. -/
theorem keys_name_messages (config : DeliveryWorker) (maxLen : Nat) (db : Db)
    (es : List Event) (s : System)
    (hrun : run (System.start config maxLen db) es = some s) :
    KeysNameMessages db es := by
  have hdeliver : ∀ pre stored now post, es = pre ++ .deliver stored now :: post →
      ∃ o, attempted db pre stored = some o ∧ (stored.id, o) ∈ allotted db es ∧
        ∃ c, o.entry db es = some (stored.id, c) ∧ stored.message = c.message := by
    rintro pre stored now post rfl
    obtain ⟨t, t', hpre, hstep, _⟩ := Replay.replay_at hrun
    obtain ⟨o, ho, hmem, r, hr, hstored⟩ :=
      attempted_eq_some hpre (step_deliver.mp hstep).1
    obtain ⟨c, hentry, hkeeps⟩ := allotted_keeps hpre _ hmem
    refine ⟨o, ho, allotted_subset_append db pre _ hmem, c, Origin.entry_append hentry, ?_⟩
    have hrid : r.id = stored.id := by
      rw [← hstored]
      rfl
    rw [← hkeeps.columns r hr hrid, ← hstored]
    rfl
  refine ⟨?_, ?_, ?_⟩
  · intro pre stored now post heq
    obtain ⟨o, ho, _, c, hentry, hmessage⟩ := hdeliver pre stored now post heq
    exact ⟨o, c, ho, hentry, hmessage⟩
  · intro pre stored now post pre' stored' now' post' heq heq'
    obtain ⟨o, ho, hmem, _⟩ := hdeliver pre stored now post heq
    obtain ⟨o', ho', hmem', _⟩ := hdeliver pre' stored' now' post' heq'
    have hinj := allotted_inj hrun hmem hmem'
    rw [ho, ho', Option.some.injEq, Event.key, Event.key, Option.some.injEq,
      idempotencyKey_inj]
    exact hinj
  · rintro pre e mid t m createdAt live id id' post rfl hremoves hkey
    obtain ⟨s₁, s₂, hpre, hstep, hrest⟩ := Replay.replay_at hrun
    obtain ⟨s₃, s₄, hmid, hinsert, _⟩ := Replay.replay_at hrest
    have hle := removes_le_seq hpre hstep hremoves
    have hmono := run_outboxSeq_le hmid
    have hid := (step_insert.mp hinsert).2.2.1
    rw [idempotencyKey_inj] at hkey
    omega

/-- A failed attempt, a crash, a second attempt, a delivery, and a second message. -/
def twoAttempts : List Event :=
  let m : Message :=
    { fromAddr := none, toAddrs := [['a']], subject := none, body := ['x'] }
  [ .enqueue 0 m 5, .insert 0 m 5 true 1, .notify 0 1,
    .claim 7 (some ⟨1, m, 0⟩), .deliver ⟨1, m, 0⟩ 7, .crash ⟨5, 60⟩ 0,
    .claim 8 (some ⟨1, m, 0⟩), .deliver ⟨1, m, 0⟩ 8, .sinkOk ⟨1, m, 0⟩ 8,
    .markDelivered 1, .enqueue 3 m 8, .insert 3 m 8 true 2,
    .claim 9 (some ⟨2, m, 0⟩), .deliver ⟨2, m, 0⟩ 9 ]

theorem twoAttempts_keys :
    ∃ s, run (System.start ⟨5, 60⟩ 10 Db.empty) twoAttempts = some s ∧
      KeysNameMessages Db.empty twoAttempts := by
  exact ⟨_, rfl, keys_name_messages ⟨5, 60⟩ 10 Db.empty twoAttempts _ rfl⟩

end Queue
end ChimneyPost
