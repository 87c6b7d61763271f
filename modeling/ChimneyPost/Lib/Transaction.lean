import Mathlib.Tactic

/-!
# Statements that can fail, and transactions

A connection holds the committed contents of a database and, while a transaction is
open, the contents as this transaction sees them.  A statement outside a transaction
is one of its own.  Each statement can fail, and then it changes nothing; `faults`
says of the coming statements which ones fail and how.

* `Refines`: with no transaction open, some code does in one piece what a function of
  the contents says, or it fails with one of the faults and has done nothing.
* `Stages`, `Commits`: the same of code inside a transaction, before its `COMMIT` and
  up to it.
* `refines_transaction`: a transaction whose body commits is one such piece, wherever
  in it a statement fails.
-/

namespace Transaction

universe u

/-- A connection to a database with contents in `δ`. -/
structure Connection (δ φ : Type u) where
  committed : δ
  staged : Option δ
  faults : List (Option φ)

/-- What a statement sees. -/
def Connection.contents {δ φ : Type u} (c : Connection δ φ) : δ :=
  c.staged.getD c.committed

/-- What a statement writes is staged by the open transaction, or committed. -/
def Connection.write {δ φ : Type u} (c : Connection δ φ) (d : δ) : Connection δ φ :=
  match c.staged with
  | some _ => { c with staged := some d }
  | none => { c with committed := d }

/-- Code that runs on a connection. -/
def Code (δ φ ε α : Type u) : Type u :=
  Connection δ φ → Except ε α × Connection δ φ

section Defs

variable {δ φ ε α β : Type u}

instance : Monad (Code δ φ ε) where
  pure a := fun c => (.ok a, c)
  bind p k := fun c =>
    match p c with
    | (.ok a, c') => k a c'
    | (.error e, c') => (.error e, c')

/-- Return an error without a statement. -/
def fail (e : ε) : Code δ φ ε α :=
  fun c => (.error e, c)

/-- What the next statement does when it does not fail. -/
def unlessFault (report : φ → ε) (c : Connection δ φ)
    (next : Connection δ φ → Except ε α × Connection δ φ) :
    Except ε α × Connection δ φ :=
  match c.faults with
  | some fault :: rest => (.error (report fault), { c with faults := rest })
  | _ => next { c with faults := c.faults.tail }

/-- A statement that answers with a value and rewrites the contents. -/
def statement (report : φ → ε) (f : δ → α × δ) : Code δ φ ε α :=
  fun c => unlessFault report c fun c =>
    (.ok (f c.contents).1, c.write (f c.contents).2)

/-- A statement that only reads. -/
def query (report : φ → ε) (f : δ → α) : Code δ φ ε α :=
  statement report fun d => (f d, d)

/-- `BEGIN`. -/
def beginTransaction (report : φ → ε) : Code δ φ ε PUnit :=
  fun c => unlessFault report c fun c =>
    (.ok ⟨⟩, { c with staged := some c.committed })

/-- `COMMIT`. -/
def commit (report : φ → ε) : Code δ φ ε PUnit :=
  fun c => unlessFault report c fun c =>
    (.ok ⟨⟩, { c with committed := c.contents, staged := none })

/-- Dropping a transaction rolls back what it did not commit. -/
def Connection.rollback (c : Connection δ φ) : Connection δ φ :=
  { c with staged := none }

/-- Open a transaction, run `body` in it and drop it. -/
def transaction (report : φ → ε) (body : Code δ φ ε α) : Code δ φ ε α :=
  fun c =>
    match beginTransaction report c with
    | (.error e, c') => (.error e, c')
    | (.ok _, c') => ((body c').1, (body c').2.rollback)

/-- `p` ended with one of the faults its connection had coming. -/
def Faulted (report : φ → ε) (c : Connection δ φ) (result : Except ε α) : Prop :=
  ∃ fault, some fault ∈ c.faults ∧ result = .error (report fault)

/-- How `p` may end on `c` when it is to do in one piece what `f` says. -/
structure RefinesOn (report : φ → ε) (p : Code δ φ ε α) (f : δ → Except ε (α × δ))
    (c : Connection δ φ) : Prop where
  closed : (p c).2.staged = none
  faults : (p c).2.faults <:+ c.faults
  outcome :
    (∃ a d, f c.committed = .ok (a, d) ∧ (p c).1 = .ok a ∧ (p c).2.committed = d) ∨
    (∃ e, f c.committed = .error e ∧ (p c).1 = .error e ∧
      (p c).2.committed = c.committed) ∨
    (Faulted report c (p c).1 ∧ (p c).2.committed = c.committed)

/-- Outside a transaction, `p` does in one piece what `f` says, or does nothing. -/
def Refines (report : φ → ε) (p : Code δ φ ε α) (f : δ → Except ε (α × δ)) : Prop :=
  ∀ c : Connection δ φ, c.staged = none → RefinesOn report p f c

/-- How `p` may end on `c`, inside a transaction that sees `d`. -/
structure StagesOn (report : φ → ε) (p : Code δ φ ε α) (f : δ → α × δ)
    (c : Connection δ φ) (d : δ) : Prop where
  committed : (p c).2.committed = c.committed
  faults : (p c).2.faults <:+ c.faults
  outcome :
    ((p c).1 = .ok (f d).1 ∧ (p c).2.staged = some (f d).2) ∨ Faulted report c (p c).1

/-- Inside a transaction, `p` stages what `f` says or fails; it commits nothing. -/
def Stages (report : φ → ε) (p : Code δ φ ε α) (f : δ → α × δ) : Prop :=
  ∀ (c : Connection δ φ) (d : δ), c.staged = some d → StagesOn report p f c d

/-- How `p` may end on `c`, inside a transaction that sees `d` and is to be committed. -/
structure CommitsOn (report : φ → ε) (p : Code δ φ ε α) (f : δ → α × δ)
    (c : Connection δ φ) (d : δ) : Prop where
  faults : (p c).2.faults <:+ c.faults
  outcome :
    ((p c).1 = .ok (f d).1 ∧ (p c).2.committed = (f d).2) ∨
    (Faulted report c (p c).1 ∧ (p c).2.committed = c.committed)

/-- Inside a transaction, `p` commits what `f` says of the staged contents, or nothing. -/
def Commits (report : φ → ε) (p : Code δ φ ε α) (f : δ → α × δ) : Prop :=
  ∀ (c : Connection δ φ) (d : δ), c.staged = some d → CommitsOn report p f c d

end Defs

section Rules

variable {δ φ ε α β : Type u} {report : φ → ε}

/-- The two ways a statement can go. -/
theorem unlessFault_cases (report : φ → ε) (c : Connection δ φ)
    (next : Connection δ φ → Except ε α × Connection δ φ) :
    (∃ fault rest, some fault ∈ c.faults ∧ rest <:+ c.faults ∧
      unlessFault report c next = (.error (report fault), { c with faults := rest })) ∨
    unlessFault report c next = next { c with faults := c.faults.tail } := by
  rw [unlessFault]
  split
  · next fault rest hfaults =>
      refine Or.inl ⟨fault, rest, ?_, ?_, rfl⟩
      · rw [hfaults]
        exact List.mem_cons_self
      · rw [hfaults]
        exact List.suffix_cons _ _
  · exact Or.inr rfl

theorem bind_apply (p : Code δ φ ε α) (k : α → Code δ φ ε β) (c : Connection δ φ) :
    (p >>= k) c =
      match p c with
      | (.ok a, c') => k a c'
      | (.error e, c') => (.error e, c') := by
  rfl

theorem Faulted.of_suffix {c c' : Connection δ φ} {result : Except ε α}
    (h : Faulted report c' result) (hsuffix : c'.faults <:+ c.faults) :
    Faulted report c result := by
  obtain ⟨fault, hmem, hresult⟩ := h
  exact ⟨fault, hsuffix.subset hmem, hresult⟩

theorem refines_fail (e : ε) :
    Refines report (fail e : Code δ φ ε α) (fun _ => .error e) := by
  intro c hclosed
  refine ⟨hclosed, List.suffix_refl _, Or.inr (Or.inl ?_)⟩
  exact ⟨e, rfl, rfl, rfl⟩

/-- A statement outside a transaction is one piece. -/
theorem refines_statement (f : δ → α × δ) :
    Refines report (statement report f : Code δ φ ε α) (fun d => .ok (f d)) := by
  intro c hclosed
  rcases unlessFault_cases report c (fun c =>
      ((Except.ok (f c.contents).1 : Except ε α), c.write (f c.contents).2)) with
    ⟨fault, rest, hmem, hrest, hrun⟩ | hrun
  · constructor
    · rw [statement, hrun]
      exact hclosed
    · rw [statement, hrun]
      exact hrest
    · rw [statement, hrun]
      exact Or.inr (Or.inr ⟨⟨fault, hmem, rfl⟩, rfl⟩)
  · have hcontents : ({ c with faults := c.faults.tail } : Connection δ φ).contents =
        c.committed := by
      simp [Connection.contents, hclosed]
    constructor
    · rw [statement, hrun]
      simp [Connection.write, hclosed]
    · rw [statement, hrun]
      simpa [Connection.write, hclosed] using List.tail_suffix c.faults
    · rw [statement, hrun, hcontents]
      refine Or.inl ⟨(f c.committed).1, (f c.committed).2, rfl, rfl, ?_⟩
      simp [Connection.write, hclosed]

/-- A decision taken after a read is taken on the contents that are there. -/
theorem refines_query_bind {q : δ → α} {k : α → Code δ φ ε β}
    {g : α → δ → Except ε (β × δ)} (hk : ∀ a, Refines report (k a) (g a)) :
    Refines report (query report q >>= k) (fun d => g (q d) d) := by
  intro c hclosed
  have hstatement : Refines report (statement report (fun d => (q d, d)))
      (fun d => .ok (q d, d)) :=
    refines_statement _
  have hread := hstatement c hclosed
  rcases hread.outcome with ⟨a, d, hf, hresult, hd⟩ | ⟨e, hf, _⟩ | ⟨hfault, hd⟩
  · obtain ⟨rfl, rfl⟩ := Prod.mk.inj (Except.ok.inj hf)
    have hthen := hk (q c.committed) _ hread.closed
    have happly : (query report q >>= k) c =
        k (q c.committed) (statement report (fun d => (q d, d)) c).2 := by
      rw [bind_apply, query, ← Prod.eta (statement report _ c), hresult]
    have houtcome := hthen.outcome
    rw [hd] at houtcome
    constructor
    · rw [happly]
      exact hthen.closed
    · rw [happly]
      exact hthen.faults.trans hread.faults
    · rw [happly]
      rcases houtcome with hok | herr | ⟨hfault, hsame⟩
      · exact Or.inl hok
      · exact Or.inr (Or.inl herr)
      · exact Or.inr (Or.inr ⟨hfault.of_suffix hread.faults, hsame⟩)
  · cases hf
  · obtain ⟨fault, hmem, hresult⟩ := hfault
    have happly : (query report q >>= k) c =
        (.error (report fault), (statement report (fun d => (q d, d)) c).2) := by
      rw [bind_apply, query, ← Prod.eta (statement report _ c), hresult]
    constructor
    · rw [happly]
      exact hread.closed
    · rw [happly]
      exact hread.faults
    · rw [happly]
      exact Or.inr (Or.inr ⟨⟨fault, hmem, rfl⟩, hd⟩)

/-- A statement inside a transaction is staged. -/
theorem stages_statement (f : δ → α × δ) :
    Stages report (statement report f : Code δ φ ε α) f := by
  intro c d hopen
  rcases unlessFault_cases report c (fun c =>
      ((Except.ok (f c.contents).1 : Except ε α), c.write (f c.contents).2)) with
    ⟨fault, rest, hmem, hrest, hrun⟩ | hrun
  · constructor
    · rw [statement, hrun]
    · rw [statement, hrun]
      exact hrest
    · rw [statement, hrun]
      exact Or.inr ⟨fault, hmem, rfl⟩
  · have hcontents : ({ c with faults := c.faults.tail } : Connection δ φ).contents = d := by
      simp [Connection.contents, hopen]
    constructor
    · rw [statement, hrun]
      simp [Connection.write, hopen]
    · rw [statement, hrun]
      simpa [Connection.write, hopen] using List.tail_suffix c.faults
    · rw [statement, hrun, hcontents]
      left
      simp [Connection.write, hopen]

theorem commits_commit :
    Commits report (commit report : Code δ φ ε PUnit) (fun d => (⟨⟩, d)) := by
  intro c d hopen
  rcases unlessFault_cases report c (fun c =>
      ((Except.ok ⟨⟩ : Except ε PUnit), { c with committed := c.contents, staged := none }))
    with ⟨fault, rest, hmem, hrest, hrun⟩ | hrun
  · constructor
    · rw [commit, hrun]
      exact hrest
    · rw [commit, hrun]
      exact Or.inr ⟨⟨fault, hmem, rfl⟩, rfl⟩
  · constructor
    · rw [commit, hrun]
      exact List.tail_suffix c.faults
    · rw [commit, hrun]
      left
      simp [Connection.contents, hopen]

/-- Code that stages, then code that commits. -/
theorem Stages.bind_commits {p : Code δ φ ε α} {f : δ → α × δ} {k : α → Code δ φ ε β}
    {g : α → δ → β × δ} (hp : Stages report p f) (hk : ∀ a, Commits report (k a) (g a)) :
    Commits report (p >>= k) (fun d => g (f d).1 (f d).2) := by
  intro c d hopen
  have hstage := hp c d hopen
  rcases hstage.outcome with ⟨hresult, hstaged⟩ | ⟨fault, hmem, hresult⟩
  · have hthen := hk (f d).1 _ _ hstaged
    have happly : (p >>= k) c = k (f d).1 (p c).2 := by
      rw [bind_apply, ← Prod.eta (p c), hresult]
    constructor
    · rw [happly]
      exact hthen.faults.trans hstage.faults
    · rw [happly]
      rcases hthen.outcome with hok | ⟨hfault, hsame⟩
      · exact Or.inl hok
      · exact Or.inr ⟨hfault.of_suffix hstage.faults, hsame.trans hstage.committed⟩
  · have happly : (p >>= k) c = (.error (report fault), (p c).2) := by
      rw [bind_apply, ← Prod.eta (p c), hresult]
    constructor
    · rw [happly]
      exact hstage.faults
    · rw [happly]
      exact Or.inr ⟨⟨fault, hmem, rfl⟩, hstage.committed⟩

/-- **A transaction is one piece**: all its body commits, or nothing. -/
theorem refines_transaction {body : Code δ φ ε α} {f : δ → α × δ}
    (hbody : Commits report body f) :
    Refines report (transaction report body) (fun d => .ok (f d)) := by
  intro c hclosed
  rcases unlessFault_cases report c (fun c =>
      ((Except.ok ⟨⟩ : Except ε PUnit), { c with staged := some c.committed })) with
    ⟨fault, rest, hmem, hrest, hrun⟩ | hrun
  · have happly : transaction report body c =
        (.error (report fault), { c with faults := rest }) := by
      rw [transaction, beginTransaction, hrun]
    constructor
    · rw [happly]
      exact hclosed
    · rw [happly]
      exact hrest
    · rw [happly]
      exact Or.inr (Or.inr ⟨⟨fault, hmem, rfl⟩, rfl⟩)
  · let opened : Connection δ φ :=
      { c with faults := c.faults.tail, staged := some c.committed }
    have hcommits := hbody opened c.committed rfl
    have happly : transaction report body c =
        ((body opened).1, (body opened).2.rollback) := by
      rw [transaction, beginTransaction, hrun]
    constructor
    · rw [happly]
      rfl
    · rw [happly]
      exact hcommits.faults.trans (List.tail_suffix c.faults)
    · rw [happly]
      rcases hcommits.outcome with ⟨hok, hcommitted⟩ | ⟨hfault, hsame⟩
      · exact Or.inl ⟨_, _, rfl, hok, hcommitted⟩
      · exact Or.inr (Or.inr ⟨hfault.of_suffix (List.tail_suffix c.faults), hsame⟩)

end Rules

end Transaction
