import Mathlib.Tactic

/-!
# Programs that ask the outside

A script ends with a value, or it asks the outside something and goes on with the answer,
whatever that is.  An exchange is a request with its answer.

* `Script.Leaves`: what is left of a script after some exchanges.  With it, `Script.Asks`
  and `Script.Yields`: what is asked after them, and what the script ends with.  A script
  that is cut off has asked no more than that.
* `Script.Meets`: every request is allowed by the exchanges before it, and every result is
  what they make due (`Meets.asks`, `Meets.yields`).  `meets_bind` and `meets_bindT` take
  it from the parts of a script to the whole.
* `Script.play`: the one dialogue with an outside that answers by a strategy.
-/

namespace Dialogue

/-- A program with requests in `ι`, where `request` is answered by a value of `ρ request`. -/
inductive Script (ι : Type) (ρ : ι → Type) (α : Type) where
  | done (a : α)
  | ask (request : ι) (next : ρ request → Script ι ρ α)

/-- A request and the answer to it. -/
structure Exchange (ι : Type) (ρ : ι → Type) where
  request : ι
  answer : ρ request

variable {ι : Type} {ρ : ι → Type} {α β ε : Type}

namespace Script

/-- One script after the other. -/
def bind : Script ι ρ α → (α → Script ι ρ β) → Script ι ρ β
  | .done a, f => f a
  | .ask request next, f => .ask request fun answer => (next answer).bind f

instance : Monad (Script ι ρ) where
  pure := .done
  bind := bind

@[simp] theorem bind_ask (request : ι) (next : ρ request → Script ι ρ α)
    (f : α → Script ι ρ β) :
    (Script.ask request next >>= f) = .ask request fun answer => next answer >>= f := by
  rfl

/-- Ask and end with the answer. -/
def request (request : ι) : Script ι ρ (ρ request) :=
  .ask request .done

/-- After the exchanges of the list this is left of the script. -/
inductive Leaves : Script ι ρ α → List (Exchange ι ρ) → Script ι ρ α → Prop
  | refl (script : Script ι ρ α) : Leaves script [] script
  | ask {request : ι} {next : ρ request → Script ι ρ α} {answer : ρ request}
      {tr : List (Exchange ι ρ)} {rest : Script ι ρ α} (h : Leaves (next answer) tr rest) :
      Leaves (.ask request next) (⟨request, answer⟩ :: tr) rest

/-- After the exchanges of the list the script asks this. -/
def Asks (script : Script ι ρ α) (tr : List (Exchange ι ρ)) (request : ι) : Prop :=
  ∃ next, Leaves script tr (.ask request next)

/-- After the exchanges of the list the script ends with this. -/
def Yields (script : Script ι ρ α) (tr : List (Exchange ι ρ)) (a : α) : Prop :=
  Leaves script tr (.done a)

/-- One more exchange. -/
theorem Leaves.concat {script : Script ι ρ α} {tr : List (Exchange ι ρ)} {request : ι}
    {next : ρ request → Script ι ρ α} (h : Leaves script tr (.ask request next))
    (answer : ρ request) : Leaves script (tr ++ [⟨request, answer⟩]) (next answer) := by
  generalize hrest : Script.ask request next = rest at h
  induction h with
  | refl script =>
      subst hrest
      exact .ask (.refl _)
  | ask _ ih =>
      exact .ask (ih hrest)

/-! ## Requirements -/

/-- With `history` behind it, the script asks as `P` allows and ends as `Q` says. -/
def Meets (P : List (Exchange ι ρ) → ι → Prop) (Q : List (Exchange ι ρ) → α → Prop) :
    Script ι ρ α → List (Exchange ι ρ) → Prop
  | .done a, history => Q history a
  | .ask request next, history =>
      P history request ∧ ∀ answer, (next answer).Meets P Q (history ++ [⟨request, answer⟩])

section Rules

variable {P : List (Exchange ι ρ) → ι → Prop} {Q : List (Exchange ι ρ) → α → Prop}
  {R : List (Exchange ι ρ) → β → Prop} {script : Script ι ρ α}
  {history : List (Exchange ι ρ)}

@[simp] theorem meets_ask {request : ι} {next : ρ request → Script ι ρ α} :
    (Script.ask request next).Meets P Q history ↔ P history request ∧
      ∀ answer, (next answer).Meets P Q (history ++ [⟨request, answer⟩]) := by
  exact Iff.rfl

/-- What is due of the first script is that the second one does the rest. -/
theorem meets_bind {f : α → Script ι ρ β} :
    (script >>= f).Meets P R history ↔
      script.Meets P (fun history a => (f a).Meets P R history) history := by
  induction script generalizing history with
  | done a =>
      exact Iff.rfl
  | ask request next ih =>
      rw [bind_ask, meets_ask, meets_ask]
      exact and_congr_right fun _ => forall_congr' fun answer => ih answer

theorem Meets.mono {P' : List (Exchange ι ρ) → ι → Prop}
    {Q' : List (Exchange ι ρ) → α → Prop} (h : script.Meets P Q history)
    (hP : ∀ history request, P history request → P' history request)
    (hQ : ∀ history a, Q history a → Q' history a) : script.Meets P' Q' history := by
  induction script generalizing history with
  | done a =>
      exact hQ history a h
  | ask request next ih =>
      exact ⟨hP history request h.1, fun answer => ih answer (h.2 answer)⟩

/-- What has been exchanged stays exchanged. -/
theorem Meets.extending (h : script.Meets P Q history) :
    script.Meets P (fun history' a => Q history' a ∧ history <+: history') history := by
  induction script generalizing history with
  | done a =>
      exact ⟨h, List.prefix_rfl⟩
  | ask request next ih =>
      refine ⟨h.1, fun answer => (ih answer (h.2 answer)).mono (fun _ _ hP => hP) ?_⟩
      rintro history' a ⟨hQ, hext⟩
      exact ⟨hQ, (List.prefix_append _ _).trans hext⟩

/-- What is left of a script does what is still required. -/
theorem Meets.leaves {tr : List (Exchange ι ρ)} {rest : Script ι ρ α}
    (hleaves : script.Leaves tr rest) (h : script.Meets P Q history) :
    rest.Meets P Q (history ++ tr) := by
  induction hleaves generalizing history with
  | refl script =>
      rw [List.append_nil]
      exact h
  | ask _ ih =>
      rw [List.append_cons]
      exact ih (h.2 _)

theorem Meets.asks (h : script.Meets P Q []) {tr : List (Exchange ι ρ)} {request : ι}
    (hasks : script.Asks tr request) : P tr request := by
  obtain ⟨next, hleaves⟩ := hasks
  exact (h.leaves hleaves).1

theorem Meets.yields (h : script.Meets P Q []) {tr : List (Exchange ι ρ)} {a : α}
    (hyields : script.Yields tr a) : Q tr a := by
  exact h.leaves hyields

end Rules

/-! ## Playing against a strategy -/

/-- An outside that answers by what has been exchanged before. -/
abbrev Strategy (ι : Type) (ρ : ι → Type) : Type :=
  List (Exchange ι ρ) → (request : ι) → ρ request

/-- All exchanges in the end, and the result. -/
def play (strategy : Strategy ι ρ) : Script ι ρ α → List (Exchange ι ρ) →
    List (Exchange ι ρ) × α
  | .done a, history => (history, a)
  | .ask request next, history =>
      (next (strategy history request)).play strategy
        (history ++ [⟨request, strategy history request⟩])

theorem play_bind (strategy : Strategy ι ρ) (script : Script ι ρ α) (f : α → Script ι ρ β)
    (history : List (Exchange ι ρ)) :
    (script >>= f).play strategy history =
      (f (script.play strategy history).2).play strategy (script.play strategy history).1 := by
  induction script generalizing history with
  | done a =>
      rfl
  | ask request next ih =>
      exact ih _ _

end Script

/-! ## Scripts that can fail -/

/-- A script that ends with a value or with an error. -/
abbrev Fallible (ι : Type) (ρ : ι → Type) (ε α : Type) : Type :=
  ExceptT ε (Script ι ρ) α

namespace Fallible

/-- Ask; the asking does not fail. -/
def request (request : ι) : Fallible ι ρ ε (ρ request) :=
  ExceptT.lift (Script.request request)

/-- A result that is there already. -/
def ofExcept (x : Except ε α) : Fallible ι ρ ε α :=
  ExceptT.mk (.done x)

end Fallible

namespace Script

section Rules

variable {P : List (Exchange ι ρ) → ι → Prop} {history : List (Exchange ι ρ)}

/-- What is due after a part that may fail: of an error, that the whole ends with it. -/
def due (P : List (Exchange ι ρ) → ι → Prop)
    (Q : List (Exchange ι ρ) → Except ε β → Prop) (f : α → Fallible ι ρ ε β)
    (history : List (Exchange ι ρ)) : Except ε α → Prop
  | .ok a => (f a).run.Meets P Q history
  | .error error => Q history (.error error)

/-- The rule of sequencing for scripts that can fail. -/
theorem meets_bindT {x : Fallible ι ρ ε α} {f : α → Fallible ι ρ ε β}
    {Q : List (Exchange ι ρ) → Except ε β → Prop} :
    (x >>= f).run.Meets P Q history ↔ x.run.Meets P (due P Q f) history := by
  show (x.run >>= ExceptT.bindCont f).Meets P Q history ↔ _
  rw [meets_bind]
  have hdue : (fun history r => (ExceptT.bindCont f r).Meets P Q history) = due P Q f := by
    funext history r
    cases r with
    | ok a =>
        rfl
    | error error =>
        rfl
  rw [hdue]

@[simp] theorem meets_requestT {request : ι}
    {Q : List (Exchange ι ρ) → Except ε (ρ request) → Prop} :
    (Fallible.request request : Fallible ι ρ ε (ρ request)).run.Meets P Q history ↔
      P history request ∧ ∀ answer, Q (history ++ [⟨request, answer⟩]) (.ok answer) := by
  exact Iff.rfl

@[simp] theorem meets_ofExcept {x : Except ε α}
    {Q : List (Exchange ι ρ) → Except ε α → Prop} :
    (Fallible.ofExcept x : Fallible ι ρ ε α).run.Meets P Q history ↔ Q history x := by
  exact Iff.rfl

end Rules

/-! ### Played -/

section Played

variable (strategy : Strategy ι ρ) {history : List (Exchange ι ρ)}

/-- What is played after a part that may fail. -/
def playOn (f : α → Fallible ι ρ ε β) :
    List (Exchange ι ρ) × Except ε α → List (Exchange ι ρ) × Except ε β
  | (history, .ok a) => (f a).run.play strategy history
  | (history, .error error) => (history, .error error)

theorem play_bindT (x : Fallible ι ρ ε α) (f : α → Fallible ι ρ ε β) :
    (x >>= f).run.play strategy history = playOn strategy f (x.run.play strategy history) := by
  show (x.run >>= ExceptT.bindCont f).play strategy history = _
  rw [play_bind]
  cases x.run.play strategy history with
  | mk history' r =>
      cases r with
      | ok a =>
          rfl
      | error error =>
          rfl

theorem play_requestT (request : ι) :
    (Fallible.request request : Fallible ι ρ ε (ρ request)).run.play strategy history =
      (history ++ [⟨request, strategy history request⟩], .ok (strategy history request)) := by
  rfl

theorem play_ofExcept (x : Except ε α) :
    (Fallible.ofExcept x : Fallible ι ρ ε α).run.play strategy history = (history, x) := by
  rfl

end Played

end Script

end Dialogue
