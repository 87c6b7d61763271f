import Mathlib.Tactic

/-!
# A write-ahead log and power loss

A database with a write-ahead log holds the contents of its last checkpoint and the
changes committed since.  Who reads it sees all of them (`Log.contents`).  After a
power loss it depends on the mode of the log what is found: a commit that waits for
stable storage is there, and of the commits that do not wait any last ones may be
missing (`Reopened`).

* `Log.contents_checkpoint`, `Log.contents_commit`: what the contents are made of.
* `reopened_full`: with every commit waited for, nothing is lost.
* `reopened_checkpointed`: with no commit waited for, everything since the checkpoint
  may be lost.
* `holds_of_reopened`: what the checkpoint has and no later commit takes away is there
  in either case.
-/

namespace WriteAhead

universe u v

/-- Whether a commit returns before it is on stable storage. -/
inductive Synchronous where
  | normal
  | full
deriving DecidableEq

/-- Contents in `δ`, changes in `κ`. -/
structure Log (δ : Type u) (κ : Type v) where
  checkpointed : δ
  /-- the changes committed since, in order -/
  commits : List κ

variable {δ : Type u} {κ : Type v} (apply : δ → κ → δ)

/-- What a reader sees. -/
def Log.contents (log : Log δ κ) : δ :=
  log.commits.foldl apply log.checkpointed

/-- A database that has been opened and recovered. -/
def Log.opened (d : δ) : Log δ κ where
  checkpointed := d
  commits := []

def Log.commit (log : Log δ κ) (c : κ) : Log δ κ :=
  { log with commits := log.commits ++ [c] }

def Log.checkpoint (log : Log δ κ) : Log δ κ where
  checkpointed := log.contents apply
  commits := []

/-- The contents that may be found after a power loss. -/
inductive Reopened (log : Log δ κ) : Synchronous → δ → Prop
  | whole (mode : Synchronous) : Reopened log mode (log.contents apply)
  | cut (kept : List κ) (h : kept <+: log.commits) :
      Reopened log .normal (kept.foldl apply log.checkpointed)

section Rules

variable {apply} {log : Log δ κ}

@[simp] theorem Log.contents_opened (d : δ) :
    (Log.opened d : Log δ κ).contents apply = d := by
  rfl

@[simp] theorem Log.contents_commit (log : Log δ κ) (c : κ) :
    (log.commit c).contents apply = apply (log.contents apply) c := by
  simp [Log.contents, Log.commit]

@[simp] theorem Log.contents_checkpoint (log : Log δ κ) :
    (log.checkpoint apply).contents apply = log.contents apply := by
  rfl

/-- A commit that waits for stable storage survives. -/
theorem reopened_full {d : δ} : Reopened apply log .full d ↔ d = log.contents apply := by
  constructor
  · intro h
    cases h with
    | whole => rfl
  · rintro rfl
    exact .whole .full

/-- Commits that do not wait may all be lost. -/
theorem reopened_checkpointed : Reopened apply log .normal log.checkpointed := by
  exact .cut [] List.nil_prefix

/-- What the commits since the checkpoint keep holds of whatever is left of them. -/
theorem holds_of_reopened {P : δ → Prop} {mode : Synchronous} {d : δ}
    (hbase : P log.checkpointed)
    (hkeep : ∀ c ∈ log.commits, ∀ d, P d → P (apply d c))
    (h : Reopened apply log mode d) : P d := by
  have hprefix : ∀ kept, kept <+: log.commits → P (kept.foldl apply log.checkpointed) := by
    intro kept
    induction kept using List.reverseRecOn with
    | nil =>
        intro _
        exact hbase
    | append_singleton kept c ih =>
        intro hkept
        rw [List.foldl_append]
        apply hkeep c
        · exact hkept.subset (by simp)
        · exact ih ((List.prefix_append kept [c]).trans hkept)
  cases h with
  | whole => exact hprefix _ List.prefix_rfl
  | cut kept hkept => exact hprefix kept hkept

end Rules

end WriteAhead
