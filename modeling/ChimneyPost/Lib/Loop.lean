import Mathlib.Logic.Relation
import Mathlib.Tactic

/-!
# Loops whose body may panic

A loop goes from state to state until it stops with a result; a body that panics makes no
turn at all.  `Verified` says what carries a loop to its end: an invariant, a variant that
each round lowers, and the result that is due in each state.  A loop with that meets no
panic, and returns what is due (`Verified.run_eq`).
-/

universe u v

namespace Loop

/-- What one turn of a loop comes to. -/
inductive Turn (σ : Type u) (β : Type v) where
  | stop (result : β)
  | go (next : σ)

variable {σ : Type u} {β : Type v} (body : σ → Option (Turn σ β))

/-- The loop for so many rounds; `none` when it panics in them or goes on after them. -/
def run : Nat → σ → Option β
  | 0, _ => none
  | rounds + 1, s =>
      match body s with
      | none => none
      | some (.stop result) => some result
      | some (.go next) => run rounds next

/-- The states that the loop goes through. -/
def Reaches : σ → σ → Prop :=
  Relation.ReflTransGen (fun s s' => body s = some (.go s'))

/-- A turn keeps the invariant and what is due, and lowers the variant. -/
structure Verified (inv : σ → Prop) (variant : σ → Nat) (due : σ → β) : Prop where
  turn : ∀ s, inv s → body s = some (.stop (due s)) ∨
    ∃ s', body s = some (.go s') ∧ inv s' ∧ variant s' < variant s ∧ due s' = due s

namespace Verified

variable {body} {inv : σ → Prop} {variant : σ → Nat} {due : σ → β} {s s' : σ}

theorem ne_none (h : Verified body inv variant due) (hs : inv s) : body s ≠ none := by
  rcases h.turn s hs with hstop | ⟨s', hgo, -⟩
  · rw [hstop]
    exact Option.some_ne_none _
  · rw [hgo]
    exact Option.some_ne_none _

theorem of_go (h : Verified body inv variant due) (hs : inv s) (hgo : body s = some (.go s')) :
    inv s' ∧ variant s' < variant s := by
  rcases h.turn s hs with hstop | ⟨next, hnext, hinv, hlower, -⟩
  · rw [hgo] at hstop
    cases hstop
  · rw [hgo] at hnext
    cases hnext
    exact ⟨hinv, hlower⟩

/-- The invariant holds of every state reached. -/
theorem inv_of_reaches (h : Verified body inv variant due) (hs : inv s)
    (hreaches : Reaches body s s') : inv s' := by
  induction hreaches with
  | refl =>
      exact hs
  | tail _ hgo ih =>
      exact (h.of_go ih hgo).1

/-- **The loop returns**, and what it returns is due at its start. -/
theorem run_eq (h : Verified body inv variant due) {rounds : Nat} (hs : inv s)
    (hrounds : variant s < rounds) : run body rounds s = some (due s) := by
  induction rounds generalizing s with
  | zero =>
      omega
  | succ rounds ih =>
      rw [run]
      rcases h.turn s hs with hstop | ⟨next, hgo, hinv, hlower, hdue⟩
      · rw [hstop]
      · rw [hgo]
        dsimp only
        rw [ih hinv (by omega), hdue]

end Verified

end Loop
