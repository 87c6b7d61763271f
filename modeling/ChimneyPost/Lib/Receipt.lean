import Mathlib.Data.List.Nodup

/-!
# A log that knows its entries by a key

A log takes an entry in unless it has one with the same key.  Whatever is offered to it, and
however often, there is one entry for a key, the first that came (`nodup_receive`).
-/

namespace Receipt

variable {α κ : Type} [DecidableEq κ] (key : α → κ)

/-- Take an entry in, unless one with its key is there. -/
def receive (log : List α) (x : α) : List α :=
  if key x ∈ log.map key then log else log ++ [x]

variable {key} {log : List α} {x y : α}

theorem subset_receive : log ⊆ receive key log x := by
  rw [receive]
  split_ifs
  · exact List.Subset.refl log
  · exact List.subset_append_left log [x]

theorem mem_receive (h : y ∈ receive key log x) : y ∈ log ∨ y = x := by
  rw [receive] at h
  split_ifs at h
  · exact Or.inl h
  · rcases List.mem_append.mp h with h | h
    · exact Or.inl h
    · exact Or.inr (List.mem_singleton.mp h)

/-- **One entry for a key.** -/
theorem nodup_receive (h : (log.map key).Nodup) : ((receive key log x).map key).Nodup := by
  rw [receive]
  split_ifs with hmem
  · exact h
  · rw [List.map_append]
    apply List.Nodup.append h (List.nodup_singleton _)
    intro k hk hlast
    rw [List.mem_singleton.mp hlast] at hk
    exact hmem hk

end Receipt
