import Mathlib.Data.List.DropRight
import Mathlib.Tactic

/-!
# What happened since

`History.since p es` is the part of a list of events after the last one that
satisfies `p`.  A coarser `p` gives a shorter part; what a selection `f` of the
events loses between two such parts is what it finds before the later of them.
-/

universe u v

namespace History

variable {ε : Type u} {β : Type v} {p q : ε → Bool}

/-- The events after the last one that satisfies `p`. -/
def since (p : ε → Bool) (es : List ε) : List ε :=
  es.rtakeWhile (fun e => !p e)

theorem since_suffix (p : ε → Bool) (es : List ε) :
    since p es <:+ es := by
  exact List.rtakeWhile_suffix _ _

theorem since_concat_of_pos {e : ε} (es : List ε) (h : p e = true) :
    since p (es ++ [e]) = [] := by
  unfold since
  exact List.rtakeWhile_concat_neg _ _ _ (by simp [h])

theorem since_concat_of_neg {e : ε} (es : List ε) (h : p e = false) :
    since p (es ++ [e]) = since p es ++ [e] := by
  unfold since
  exact List.rtakeWhile_concat_pos _ _ _ (by simp [h])

theorem not_of_mem_since {es : List ε} {e : ε} (h : e ∈ since p es) :
    p e = false := by
  have hnot := List.mem_rtakeWhile_imp h
  simpa using hnot

/-- The later part is found in the earlier one. -/
theorem since_since (himp : ∀ e, q e = true → p e = true) (es : List ε) :
    since p (since q es) = since p es := by
  induction es using List.reverseRecOn with
  | nil =>
      rfl
  | append_singleton es e ih =>
      cases hp : p e with
      | true =>
          rw [since_concat_of_pos es hp]
          cases hq : q e with
          | true =>
              rw [since_concat_of_pos es hq]
              rfl
          | false =>
              rw [since_concat_of_neg es hq, since_concat_of_pos _ hp]
      | false =>
          have hq : q e = false := by
            by_contra hq
            rw [Bool.not_eq_false] at hq
            rw [himp e hq] at hp
            cases hp
          rw [since_concat_of_neg es hp, since_concat_of_neg es hq,
            since_concat_of_neg _ hp, ih]

/-- A part that contains an end of the other kind is the longer one. -/
theorem since_suffix_since {es : List ε} {e : ε} (hmem : e ∈ since q es)
    (hp : p e = true) : since p es <:+ since q es := by
  rcases List.suffix_or_suffix_of_suffix (since_suffix p es) (since_suffix q es) with h | h
  · exact h
  · have hnot := not_of_mem_since (h.subset hmem)
    rw [hp] at hnot
    cases hnot

/-- An event of two lists one after the other is an event of one of them. -/
theorem append_eq_split {xs ys before after : List ε} {e : ε}
    (h : xs ++ ys = before ++ e :: after) :
    (∃ rest, xs = before ++ e :: rest) ∨
      ∃ front, before = xs ++ front ∧ ys = front ++ e :: after := by
  rcases List.append_eq_append_iff.mp h with ⟨front, hbefore, hys⟩ | ⟨rest, hxs, hafter⟩
  · exact Or.inr ⟨front, hbefore, hys⟩
  · cases rest with
    | nil =>
        right
        refine ⟨[], ?_, ?_⟩
        · rw [hxs, List.append_nil, List.append_nil]
        · rw [hafter, List.nil_append]
          rfl
    | cons x rest =>
        left
        obtain ⟨rfl, _⟩ := List.cons.inj hafter
        exact ⟨rest, hxs⟩

theorem concat_eq_split {es before after : List ε} {e e' : ε}
    (h : es ++ [e] = before ++ e' :: after) :
    (before = es ∧ e' = e) ∨ ∃ rest, es = before ++ e' :: rest := by
  rcases append_eq_split h with hrest | ⟨front, hbefore, hfront⟩
  · exact Or.inr hrest
  · left
    rcases List.singleton_eq_append_iff.mp hfront with ⟨rfl, hcons⟩ | ⟨_, hcons⟩
    · exact ⟨by rw [hbefore, List.append_nil], (List.cons.inj hcons).1⟩
    · cases hcons

/--
A selection finds the same since the last `p` as in the whole list exactly when it
finds nothing before any `p`.
-/
theorem filterMap_since_eq_iff (f : ε → Option β) (hf : ∀ e, p e = true → f e = none)
    (es : List ε) :
    (since p es).filterMap f = es.filterMap f ↔
      ∀ before e after, es = before ++ e :: after → p e = true →
        before.filterMap f = [] := by
  induction es using List.reverseRecOn with
  | nil =>
      simp [since]
  | append_singleton es e ih =>
      cases hp : p e with
      | true =>
          have hlast : [e].filterMap f = [] := by simp [hf e hp]
          rw [since_concat_of_pos es hp, List.filterMap_append, hlast, List.append_nil,
            List.filterMap_nil]
          constructor
          · intro hnil before e' after heq _
            rcases concat_eq_split heq with ⟨rfl, _⟩ | ⟨rest, rfl⟩
            · exact hnil.symm
            · rw [List.filterMap_append] at hnil
              exact (List.append_eq_nil_iff.mp hnil.symm).1
          · intro h
            exact (h es e [] rfl hp).symm
      | false =>
          rw [since_concat_of_neg es hp, List.filterMap_append, List.filterMap_append,
            List.append_left_inj, ih]
          constructor
          · intro h before e' after heq hp'
            rcases concat_eq_split heq with ⟨_, rfl⟩ | ⟨rest, hes⟩
            · rw [hp] at hp'
              cases hp'
            · exact h before e' rest hes hp'
          · intro h before e' after heq hp'
            apply h before e' (after ++ [e]) _ hp'
            rw [heq]
            simp

end History
