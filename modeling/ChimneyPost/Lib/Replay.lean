import Mathlib.Tactic

/-!
# Replaying event lists through a partial step function

A system is given by a state type `σ`, an event type `ε` and an executable step
function `σ → ε → Option σ` that answers `none` when the event is not enabled.

* `replay`: the state after a list of events.
* `replay_invariant`: an invariant on the history and the state, established by
  the empty history and kept by every step, holds after every run.
* `StepsMeet` and `replay_invariant_of_stepsMeet`: the same for runs whose steps
  all meet a side condition.
* `AtEveryState`: a property of every state a run passes through.
-/

namespace Replay

universe u v

variable {σ : Type u} {ε : Type v}

/-- The state after a list of events; `none` once an event is not enabled. -/
def replay (step : σ → ε → Option σ) : σ → List ε → Option σ
  | s, [] => some s
  | s, e :: es => (step s e).bind fun t => replay step t es

/-- What an event that is enabled under a guard does. -/
theorem guarded_eq_some {p : Prop} [Decidable p] {s t : σ} :
    (if p then some s else none) = some t ↔ p ∧ t = s := by
  rw [Option.ite_none_right_eq_some, Option.some.injEq, eq_comm (a := s)]

section Basic

variable {step : σ → ε → Option σ}

@[simp] theorem replay_nil (s : σ) :
    replay step s [] = some s := by
  rfl

@[simp] theorem replay_cons (s : σ) (e : ε) (es : List ε) :
    replay step s (e :: es) =
      (step s e).bind fun t => replay step t es := by
  rfl

theorem replay_append (s : σ) (es fs : List ε) :
    replay step s (es ++ fs) =
      (replay step s es).bind fun t => replay step t fs := by
  induction es generalizing s with
  | nil =>
      rfl
  | cons e es ih =>
      cases h : step s e with
      | none =>
          simp [h]
      | some t =>
          simp [h, ih t]

/-- A run splits at every point of its event list. -/
theorem replay_append_eq_some {s u : σ} {es fs : List ε} :
    replay step s (es ++ fs) = some u ↔
      ∃ t, replay step s es = some t ∧ replay step t fs = some u := by
  rw [replay_append, Option.bind_eq_some_iff]

/-- The first step of a run. -/
theorem replay_cons_eq_some {s u : σ} {e : ε} {es : List ε} :
    replay step s (e :: es) = some u ↔
      ∃ t, step s e = some t ∧ replay step t es = some u := by
  rw [replay_cons, Option.bind_eq_some_iff]

/-- The last step of a run. -/
theorem replay_concat_eq_some {s u : σ} {es : List ε} {e : ε} :
    replay step s (es ++ [e]) = some u ↔
      ∃ t, replay step s es = some t ∧ step t e = some u := by
  simp [replay_append_eq_some]

/-- The step taken at a given event of a run. -/
theorem replay_at {s u : σ} {pre post : List ε} {e : ε}
    (h : replay step s (pre ++ e :: post) = some u) :
    ∃ t t', replay step s pre = some t ∧ step t e = some t' ∧
      replay step t' post = some u := by
  obtain ⟨t, hpre, hrest⟩ := replay_append_eq_some.mp h
  obtain ⟨t', hstep, hpost⟩ := replay_cons_eq_some.mp hrest
  exact ⟨t, t', hpre, hstep, hpost⟩

end Basic

section Invariants

variable (step : σ → ε → Option σ)

/-- Every step of the run from `s` along `es` meets `C`. -/
def StepsMeet (C : σ → ε → Prop) (s : σ) (es : List ε) : Prop :=
  ∀ pre e post t, es = pre ++ e :: post →
    replay step s pre = some t → C t e

/-- `P` holds, of the history so far and the state, at every point of the run. -/
def AtEveryState (P : List ε → σ → Prop) (s : σ) (es : List ε) : Prop :=
  ∀ pre post t, es = pre ++ post → replay step s pre = some t → P pre t

variable {step} {C : σ → ε → Prop} {s₀ : σ}

theorem StepsMeet.of_append {es fs : List ε}
    (h : StepsMeet step C s₀ (es ++ fs)) :
    StepsMeet step C s₀ es := by
  intro pre e post t heq hpre
  exact h pre e (post ++ fs) t (by simp [heq]) hpre

theorem StepsMeet.nil : StepsMeet step C s₀ [] := by
  intro pre e post t heq _
  simp at heq

/-- An admissible step followed by an admissible run. -/
theorem StepsMeet.cons {es : List ε} {e : ε} {t : σ} (hC : C s₀ e)
    (hstep : step s₀ e = some t) (h : StepsMeet step C t es) :
    StepsMeet step C s₀ (e :: es) := by
  intro pre f post u heq hpre
  cases pre with
  | nil =>
      obtain ⟨rfl, _⟩ := List.cons.inj heq
      obtain rfl := Option.some.inj hpre
      exact hC
  | cons g pre =>
      obtain ⟨rfl, rfl⟩ := List.cons.inj heq
      rw [replay_cons, hstep, Option.bind_some] at hpre
      exact h pre f post u rfl hpre

theorem StepsMeet.head {es : List ε} {e : ε}
    (h : StepsMeet step C s₀ (e :: es)) : C s₀ e :=
  h [] e es s₀ rfl rfl

/-- A run that starts inside an admissible one is admissible. -/
theorem StepsMeet.of_append_right {es fs : List ε} {t : σ}
    (h : StepsMeet step C s₀ (es ++ fs)) (hrun : replay step s₀ es = some t) :
    StepsMeet step C t fs := by
  intro pre e post u heq hpre
  apply h (es ++ pre) e post u
  · rw [heq, List.append_assoc]
  · exact replay_append_eq_some.mpr ⟨t, hrun, hpre⟩

theorem StepsMeet.tail {es : List ε} {e : ε} {t : σ}
    (h : StepsMeet step C s₀ (e :: es)) (hstep : step s₀ e = some t) :
    StepsMeet step C t es := by
  have happend : StepsMeet step C s₀ ([e] ++ es) := h
  exact happend.of_append_right (by simp [hstep])

theorem StepsMeet.last {es : List ε} {e : ε} {t : σ}
    (h : StepsMeet step C s₀ (es ++ [e]))
    (hrun : replay step s₀ es = some t) : C t e :=
  h es e [] t rfl hrun

/--
The invariant rule: an invariant of the history and the state that every step
meeting `C` keeps holds after every run whose steps all meet `C`.
-/
theorem replay_invariant_of_stepsMeet {I : List ε → σ → Prop}
    (hinit : I [] s₀)
    (hstep : ∀ es s e t, replay step s₀ es = some s → I es s →
      C s e → step s e = some t → I (es ++ [e]) t)
    {es : List ε} {s : σ}
    (hmeet : StepsMeet step C s₀ es)
    (hrun : replay step s₀ es = some s) : I es s := by
  induction es using List.reverseRecOn generalizing s with
  | nil =>
      simp only [replay_nil, Option.some.injEq] at hrun
      subst hrun
      exact hinit
  | append_singleton es e ih =>
      obtain ⟨t, hpre, hlast⟩ := replay_concat_eq_some.mp hrun
      exact hstep es t e s hpre (ih hmeet.of_append hpre)
        (hmeet.last hpre) hlast

/-- The invariant rule for runs with no side condition. -/
theorem replay_invariant {I : List ε → σ → Prop}
    (hinit : I [] s₀)
    (hstep : ∀ es s e t, replay step s₀ es = some s → I es s →
      step s e = some t → I (es ++ [e]) t)
    {es : List ε} {s : σ}
    (hrun : replay step s₀ es = some s) : I es s := by
  refine replay_invariant_of_stepsMeet (C := fun _ _ => True) hinit ?_ ?_ hrun
  · intro es s e t hpre hI _ hlast
    exact hstep es s e t hpre hI hlast
  · intro pre e post t _ _
    trivial

/-- What holds after every admissible run holds at every state of one. -/
theorem atEveryState_of_stepsMeet {P : List ε → σ → Prop} {es : List ε}
    (hP : ∀ es s, StepsMeet step C s₀ es → replay step s₀ es = some s → P es s)
    (hmeet : StepsMeet step C s₀ es) :
    AtEveryState step P s₀ es := by
  intro pre post t heq hpre
  subst heq
  exact hP pre t hmeet.of_append hpre

end Invariants

end Replay
