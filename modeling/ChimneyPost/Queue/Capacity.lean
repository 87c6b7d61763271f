import ChimneyPost.Queue.Connection

/-!
# The bounded outbox

The check of the cap and the `INSERT` are made under one hold of the connection, so
between two openings of the store the outbox grows only while it holds fewer than
`max_len` rows; everything else the store does keeps the number of rows or lowers it.
A call that ends in an error has changed neither table and has woken nobody.
-/

namespace ChimneyPost
namespace Queue

/-- Another process opens the store. -/
def Event.opens : Event → Bool
  | .crash _ _ => true
  | _ => false

/-- Only an `INSERT` makes the outbox longer. -/
theorem outbox_length_le_of_ne_insert {db : Db} {c : Change}
    (h : ∀ columns createdAt, c ≠ .insert columns createdAt) :
    (c.apply db).outbox.length ≤ db.outbox.length := by
  cases c with
  | nothing => exact le_refl _
  | insert columns createdAt => exact absurd rfl (h columns createdAt)
  | delete id => exact List.length_filter_le _ _
  | bury id lastError failedAt => exact List.length_filter_le _ _
  | schedule id attempts next =>
      show (db.outbox.map _).length ≤ db.outbox.length
      rw [List.length_map]

theorem step_maxLen {s s' : System} {e : Event} (hstep : step s e = some s')
    (h : e.opens = false) : s'.maxLen = s.maxLen := by
  cases e with
  | crash config maxLen => cases h
  | _ =>
      simp at hstep
      simp [hstep]

/-- One event keeps within the cap, or within what was there before it. -/
theorem step_outbox_length {s s' : System} {e : Event} (hstep : step s e = some s')
    (hpos : 0 < s.maxLen) :
    s'.db.outbox.length ≤ max s.maxLen s.db.outbox.length := by
  rw [step_db hstep]
  by_cases hinsert : ∃ columns createdAt, e.change = .insert columns createdAt
  · obtain ⟨columns, createdAt, hchange⟩ := hinsert
    rw [hchange]
    cases e with
    | insert t message createdAt' live id =>
        obtain ⟨_, hroom, _⟩ := step_insert.mp hstep
        have hlt : s.db.outbox.length < s.maxLen := by
          by_contra hge
          exact hroom ⟨hpos, not_lt.mp hge⟩
        show (s.db.outbox ++ [s.db.newRow columns createdAt]).length ≤ _
        rw [List.length_append, List.length_singleton]
        exact le_trans hlt (le_max_left _ _)
    | _ => cases hchange
  · have hle : (e.change.apply s.db).outbox.length ≤ s.db.outbox.length := by
      apply outbox_length_le_of_ne_insert
      intro columns createdAt hchange
      exact hinsert ⟨columns, createdAt, hchange⟩
    exact le_trans hle (le_max_right _ _)

/-- While the store stays open the outbox keeps within its bound. -/
theorem outbox_bounded {s t : System} {es : List Event} (hpos : 0 < s.maxLen)
    (hopen : ∀ e ∈ es, e.opens = false) (hrun : run s es = some t) :
    t.maxLen = s.maxLen ∧ t.db.outbox.length ≤ max s.maxLen s.db.outbox.length := by
  have hmeet : Replay.StepsMeet step (fun _ e => e.opens = false) s es := by
    intro pre e post u heq _
    apply hopen
    rw [heq]
    simp
  refine Replay.replay_invariant_of_stepsMeet
    (C := fun _ e => e.opens = false)
    (I := fun _ t => t.maxLen = s.maxLen ∧
      t.db.outbox.length ≤ max s.maxLen s.db.outbox.length) ?_ ?_ hmeet hrun
  · exact ⟨rfl, le_max_right _ _⟩
  · rintro es u e v _ ⟨hmaxLen, hle⟩ hstays hstep
    refine ⟨(step_maxLen hstep hstays).trans hmaxLen, ?_⟩
    have hnext := step_outbox_length hstep (by rw [hmaxLen]; exact hpos)
    rw [hmaxLen] at hnext
    exact le_trans hnext (max_le (le_max_left _ _) hle)

/-! ## Refusals -/

/-- Both tables are as they were and the worker has not been notified. -/
def Store.Untouched (store store' : Store) : Prop :=
  store'.tables = store.tables ∧ store'.permit = store.permit

/-- A call of the store leaves nothing behind when it fails. -/
def CleanOnError {α : Type} (call : Store → Except ChimneyError α × Store) : Prop :=
  ∀ store : Store, store.connection.staged = none →
    (call store).2.connection.staged = none ∧
      ∀ e, (call store).1 = .error e → store.Untouched (call store).2

theorem cleanOnError_of_ends {α : Type} {f : Db → Except ChimneyError (α × Db)}
    {call : Store → Except ChimneyError α × Store}
    (h : ∀ store : Store, store.connection.staged = none → Ends f store (call store)) :
    CleanOnError call := by
  intro store hclosed
  refine ⟨(h store hclosed).closed, ?_⟩
  intro e hresult
  rcases (h store hclosed).outcome with ⟨a, db, _, hok, _⟩ | ⟨e', _, htables, hpermit, _⟩
  · rw [hok] at hresult
    cases hresult
  · exact ⟨htables, hpermit⟩

/-- `QueueFull` is what a full outbox answers unless the storage fails first. -/
theorem enqueue_queueFull_iff (maxLen : Nat) (message : Message) (createdAt : Int)
    (join : Option Str) {store : Store} (hclosed : store.connection.staged = none) :
    (store.enqueue maxLen message createdAt join).1 = .error .queueFull ↔
      store.tables.full maxLen ∧
        ∀ e, (store.enqueue maxLen message createdAt join).1 = .error e →
          ChimneyError.isStorageFailure e = false := by
  have hends := ends_enqueue maxLen message createdAt join hclosed
  rcases hends.outcome with ⟨id, db, hspec, hresult, _⟩ | ⟨e, hresult, _, _, hwhy⟩
  · have hroom := (MessageStore.enqueue_eq_ok.mp hspec).1
    rw [hresult]
    constructor
    · intro h
      cases h
    · rintro ⟨hfull, _⟩
      exact absurd hfull hroom
  · rw [hresult]
    constructor
    · intro h
      obtain rfl := Except.error.inj h
      rcases hwhy with hspec | hfailure
      · unfold MessageStore.enqueue at hspec
        split_ifs at hspec with hfull
        refine ⟨hfull, ?_⟩
        rintro e he
        obtain rfl := Except.error.inj he
        rfl
      · cases hfailure
    · rintro ⟨hfull, hnot⟩
      rcases hwhy with hspec | hfailure
      · rw [MessageStore.enqueue, if_pos hfull] at hspec
        rw [Except.error.inj hspec]
      · rw [hnot e rfl] at hfailure
        cases hfailure

/-- What the cap promises of a run, and of each call of the store. -/
structure BoundedOutbox (config : DeliveryWorker) (maxLen : Nat) (db : Db)
    (es : List Event) : Prop where
  /-- until another process opens the store the outbox keeps within the bound -/
  bounded : ∀ pre life post t u, es = pre ++ (life ++ post) →
    run (System.start config maxLen db) pre = some t → 0 < t.maxLen →
    (∀ e ∈ life, e.opens = false) → run t life = some u →
    u.db.outbox.length ≤ max t.maxLen t.db.outbox.length
  /-- a message is refused as one too many only when the outbox is full -/
  refused : ∀ pre i message createdAt live post t,
    es = pre ++ .refuse i message createdAt live .queueFull :: post →
    run (System.start config maxLen db) pre = some t →
    0 < t.maxLen ∧ t.maxLen ≤ t.db.outbox.length
  /-- a message is accepted only when it is not -/
  accepted : ∀ pre i message createdAt live id post t,
    es = pre ++ .insert i message createdAt live id :: post →
    run (System.start config maxLen db) pre = some t → 0 < t.maxLen →
    t.db.outbox.length < t.maxLen
  /-- the answer of a call that takes the connection at any point of the run -/
  queueFull : ∀ pre post t (store : Store) message createdAt join, es = pre ++ post →
    run (System.start config maxLen db) pre = some t → 0 < t.maxLen →
    store.tables = t.db → store.connection.staged = none →
    ((store.enqueue t.maxLen message createdAt join).1 = .error .queueFull ↔
      t.maxLen ≤ t.db.outbox.length ∧
        ∀ e, (store.enqueue t.maxLen message createdAt join).1 = .error e →
          ChimneyError.isStorageFailure e = false)
  /-- calls that fail leave the tables and the permit as they were -/
  enqueue : ∀ cap message createdAt join,
    CleanOnError (fun store => store.enqueue cap message createdAt join)
  markDelivered : ∀ id join, CleanOnError (fun store => store.markDelivered id join)
  reschedule : ∀ id attempts nextAttemptAt join,
    CleanOnError (fun store => store.reschedule id attempts nextAttemptAt join)
  deadLetter : ∀ id lastError failedAt join,
    CleanOnError (fun store => store.deadLetter id lastError failedAt join)

/-- **The outbox is bounded and refusals are clean**, over every run on any database. -/
theorem outbox_bounded_refusals_clean (config : DeliveryWorker) (maxLen : Nat) (db : Db)
    (es : List Event) (s : System)
    (hrun : run (System.start config maxLen db) es = some s) :
    BoundedOutbox config maxLen db es := by
  constructor
  case bounded =>
    intro pre life post t u _ _ hpos hopen hlife
    exact (outbox_bounded hpos hopen hlife).2
  case refused =>
    rintro pre i message createdAt live post t rfl hpre
    obtain ⟨t', t'', hpre', hstep, _⟩ := Replay.replay_at hrun
    obtain rfl := Option.some.inj (hpre.symm.trans hpre')
    obtain ⟨⟨_, hwhy⟩, _⟩ := step_refuse.mp hstep
    rcases hwhy with ⟨_, hfull⟩ | hfailure
    · exact hfull
    · cases hfailure
  case accepted =>
    rintro pre i message createdAt live id post t rfl hpre hpos
    obtain ⟨t', t'', hpre', hstep, _⟩ := Replay.replay_at hrun
    obtain rfl := Option.some.inj (hpre.symm.trans hpre')
    obtain ⟨_, hroom, _⟩ := step_insert.mp hstep
    by_contra hge
    exact hroom ⟨hpos, not_lt.mp hge⟩
  case queueFull =>
    intro pre post t store message createdAt join _ _ hpos htables hclosed
    rw [enqueue_queueFull_iff t.maxLen message createdAt join hclosed, htables]
    constructor
    · rintro ⟨hfull, hnot⟩
      exact ⟨hfull.2, hnot⟩
    · rintro ⟨hfull, hnot⟩
      exact ⟨⟨hpos, hfull⟩, hnot⟩
  case enqueue =>
    intro cap message createdAt join
    exact cleanOnError_of_ends fun store hclosed =>
      ends_enqueue cap message createdAt join hclosed
  case markDelivered =>
    intro id join
    exact cleanOnError_of_ends fun store hclosed =>
      ends_withConn (MessageStore.refines_remove id) join hclosed
  case reschedule =>
    intro id attempts nextAttemptAt join
    exact cleanOnError_of_ends fun store hclosed =>
      ends_withConn (MessageStore.refines_reschedule id attempts nextAttemptAt) join hclosed
  case deadLetter =>
    intro id lastError failedAt join
    exact cleanOnError_of_ends fun store hclosed =>
      ends_withConn (MessageStore.refines_deadLetter id lastError failedAt) join hclosed

/-- A slot is taken, a second message is refused, and a claim goes on. -/
def oneSlot : List Event :=
  let m : Message :=
    { fromAddr := none, toAddrs := [['a']], subject := none, body := ['x'] }
  [ .enqueue 0 m 5, .enqueue 1 m 5, .insert 0 m 5 true 1,
    .refuse 1 m 5 true .queueFull, .notify 0 1, .claim 7 (some ⟨1, m, 0⟩) ]

theorem oneSlot_bounded :
    ∃ s, run (System.start ⟨5, 60⟩ 1 Db.empty) oneSlot = some s ∧
      BoundedOutbox ⟨5, 60⟩ 1 Db.empty oneSlot := by
  exact ⟨_, rfl, outbox_bounded_refusals_clean ⟨5, 60⟩ 1 Db.empty oneSlot _ rfl⟩

end Queue
end ChimneyPost
