import Mathlib.Data.List.Count
import Mathlib.Data.List.Perm.Basic
import Mathlib.Tactic

/-!
# A ledger of items held until they are settled or buried

Items with keys in `ι` and contents in `μ` are accepted into `pending` and leave
it in one of two ways: an item is settled (its obligation is discharged) or
buried (given up, but kept).  `Ledger.books` is the ledger a list of postings
adds up to.

* `books_perm`: nothing is lost and nothing is duplicated.
* `inOnePlace_of_accepted`: with distinct accepted entries, each is in exactly
  one of the three places, exactly once.
-/

universe u v

/-- Where the accepted items are. -/
structure Ledger (ι : Type u) (μ : Type v) where
  pending : List (ι × μ)
  dead : List (ι × μ)
  gone : List (ι × μ)

namespace Ledger

variable {ι : Type u} {μ : Type v}

/-- One entry in the books. -/
inductive Posting (ι : Type u) (μ : Type v) where
  | accept (i : ι) (m : μ)
  | settle (i : ι)
  | bury (i : ι)

/-- The books before anything was posted. -/
def empty : Ledger ι μ :=
  { pending := [], dead := [], gone := [] }

/-- The item a posting accepts. -/
def Posting.accepted : Posting ι μ → Option (ι × μ)
  | .accept i m => some (i, m)
  | .settle _ => none
  | .bury _ => none

/-- The items accepted so far, in order. -/
def accepted (ps : List (Posting ι μ)) : List (ι × μ) :=
  ps.filterMap Posting.accepted

@[simp] theorem accepted_concat (ps : List (Posting ι μ)) (p : Posting ι μ) :
    accepted (ps ++ [p]) = accepted ps ++ p.accepted.toList := by
  cases p <;> simp [accepted, Posting.accepted]

theorem accepted_accept (xs : List (ι × μ)) :
    accepted (xs.map fun x => .accept x.1 x.2) = xs := by
  induction xs with
  | nil =>
      rfl
  | cons x xs ih =>
      simpa [accepted, Posting.accepted] using ih

variable [DecidableEq ι]

/-- Enter one posting. -/
def post (L : Ledger ι μ) : Posting ι μ → Ledger ι μ
  | .accept i m =>
      { L with pending := L.pending ++ [(i, m)] }
  | .settle i =>
      { L with
        pending := L.pending.filter (fun x => x.1 ≠ i)
        gone := L.gone ++ L.pending.filter (fun x => x.1 = i) }
  | .bury i =>
      { L with
        pending := L.pending.filter (fun x => x.1 ≠ i)
        dead := L.dead ++ L.pending.filter (fun x => x.1 = i) }

/-- The ledger a list of postings adds up to. -/
def books (ps : List (Posting ι μ)) : Ledger ι μ :=
  ps.foldl post empty

@[simp] theorem books_concat (ps : List (Posting ι μ)) (p : Posting ι μ) :
    books (ps ++ [p]) = (books ps).post p := by
  simp [books]

/-- Books opened with a list of items hold these items. -/
theorem books_accept_pending (xs : List (ι × μ)) :
    (books (xs.map fun x => .accept x.1 x.2)).pending = xs := by
  induction xs using List.reverseRecOn with
  | nil =>
      rfl
  | append_singleton xs x ih =>
      rw [List.map_append, List.map_singleton, books_concat, post, ih]

/-- All items of a ledger, wherever they are. -/
def all (L : Ledger ι μ) : List (ι × μ) :=
  L.pending ++ L.dead ++ L.gone

/-- Taking the items of one key out and putting them elsewhere keeps them all. -/
theorem filter_split_perm (xs : List (ι × μ)) (i : ι) :
    (xs.filter (fun x => x.1 = i) ++ xs.filter (fun x => x.1 ≠ i)).Perm xs := by
  simpa using List.filter_append_perm (fun x : ι × μ => decide (x.1 = i)) xs

theorem post_all_perm (L : Ledger ι μ) (p : Posting ι μ) :
    (L.post p).all.Perm (L.all ++ p.accepted.toList) := by
  classical
  rw [List.perm_iff_count]
  intro x
  cases p with
  | accept i m =>
      simp only [all, post, Posting.accepted, Option.toList_some, List.count_append]
      omega
  | settle i =>
      have hsplit := (filter_split_perm L.pending i).count_eq x
      simp only [all, post, Posting.accepted, Option.toList_none, List.append_nil,
        List.count_append] at hsplit ⊢
      omega
  | bury i =>
      have hsplit := (filter_split_perm L.pending i).count_eq x
      simp only [all, post, Posting.accepted, Option.toList_none, List.append_nil,
        List.count_append] at hsplit ⊢
      omega

/-- **Conservation**: the three places hold the accepted items and nothing else. -/
theorem books_perm (ps : List (Posting ι μ)) :
    (books ps).all.Perm (accepted ps) := by
  induction ps using List.reverseRecOn with
  | nil =>
      exact List.Perm.refl _
  | append_singleton ps p ih =>
      rw [books_concat, accepted_concat]
      exact (post_all_perm (books ps) p).trans (ih.append_right _)

/-- An item is in exactly one of the three places, exactly once. -/
def InOnePlace [DecidableEq μ] (L : Ledger ι μ) (x : ι × μ) : Prop :=
  (L.pending.count x = 1 ∧ L.dead.count x = 0 ∧ L.gone.count x = 0) ∨
  (L.pending.count x = 0 ∧ L.dead.count x = 1 ∧ L.gone.count x = 0) ∨
  (L.pending.count x = 0 ∧ L.dead.count x = 0 ∧ L.gone.count x = 1)

theorem inOnePlace_of_accepted [DecidableEq μ] {ps : List (Posting ι μ)}
    (hnodup : (accepted ps).Nodup) {x : ι × μ} (hx : x ∈ accepted ps) :
    (books ps).InOnePlace x := by
  have hcount := (books_perm ps).count_eq x
  rw [List.count_eq_one_of_mem hnodup hx] at hcount
  simp only [all, List.count_append] at hcount
  unfold InOnePlace
  omega

/-- Whatever is pending was accepted. -/
theorem mem_accepted_of_pending {ps : List (Posting ι μ)} {x : ι × μ}
    (hx : x ∈ (books ps).pending) : x ∈ accepted ps := by
  have hall : x ∈ (books ps).all := by
    simp [all, hx]
  exact (books_perm ps).mem_iff.mp hall

end Ledger
