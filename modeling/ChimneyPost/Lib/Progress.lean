import ChimneyPost.Lib.Replay

/-!
# Work that comes to an end

In a run some steps are work, and some are given an allowance by the outside.  If a
potential pays for all work, together with the allowances, as long as the system is not
at rest, then a run that works for longer has been at rest in between
(`Pays.rests`).
-/

universe u v

namespace Progress

open Replay (replay)

variable {σ : Type u} {ε : Type v} {step : σ → ε → Option σ}

/-- Among the states of `I`, the potential pays for the work of a step that is not taken at
rest. -/
structure Pays (step : σ → ε → Option σ) (I rest : σ → Prop) (work allowance : ε → Nat)
    (potential : σ → Nat) : Prop where
  keeps : ∀ s e t, I s → step s e = some t → I t
  pays : ∀ s e t, I s → ¬ rest s → step s e = some t →
    potential t + work e ≤ potential s + allowance e

variable {I rest : σ → Prop} {work allowance : ε → Nat} {potential : σ → Nat}

/-- All work of a run that is never at rest has been paid for. -/
theorem Pays.work_le (h : Pays step I rest work allowance potential) {s t : σ} {es : List ε}
    (hI : I s) (hrun : replay step s es = some t)
    (hrest : ∀ pre post u, es = pre ++ post → replay step s pre = some u → ¬ rest u) :
    potential t + (es.map work).sum ≤ potential s + (es.map allowance).sum := by
  induction es generalizing s with
  | nil =>
      obtain rfl := Option.some.inj hrun
      exact le_refl _
  | cons e es ih =>
      obtain ⟨u, hstep, hrun⟩ := Replay.replay_cons_eq_some.mp hrun
      have hpays := h.pays s e u hI (hrest [] (e :: es) s rfl rfl) hstep
      have hlater := ih (h.keeps s e u hI hstep) hrun (by
        intro pre post v heq hpre
        refine hrest (e :: pre) post v (by rw [heq, List.cons_append]) ?_
        exact Replay.replay_cons_eq_some.mpr ⟨u, hstep, hpre⟩)
      rw [List.map_cons, List.map_cons, List.sum_cons, List.sum_cons]
      omega

/-- **More work than is paid for** is interrupted by a rest. -/
theorem Pays.rests (h : Pays step I rest work allowance potential) {s t : σ} {es : List ε}
    (hI : I s) (hrun : replay step s es = some t)
    (hlong : potential s + (es.map allowance).sum < (es.map work).sum) :
    ∃ pre post u, es = pre ++ post ∧ replay step s pre = some u ∧ rest u := by
  by_contra hnever
  have hle := h.work_le hI hrun (by
    intro pre post u heq hpre hrest
    exact hnever ⟨pre, post, u, heq, hpre, hrest⟩)
  omega

end Progress
