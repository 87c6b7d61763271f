import Mathlib.Data.List.Forall2
import Mathlib.Tactic

/-!
# Rules that are translated and searched

A list of rules is translated one by one, and the translation fails when one of them does
(`mapM_ok_iff`).  The first translated rule that answers is the translation of the first
rule that applies (`find?_of_forall₂`).
-/

universe u v

namespace FirstMatch

variable {α : Type u} {β : Type v}

/-- A translation of all is a translation of each, in order. -/
theorem mapM_ok_iff {ε : Type v} (f : α → Except ε β) (as : List α) (bs : List β) :
    as.mapM f = .ok bs ↔ List.Forall₂ (fun a b => f a = .ok b) as bs := by
  induction as generalizing bs with
  | nil =>
      rw [List.mapM_nil, List.forall₂_nil_left_iff]
      constructor
      · intro h
        cases h
        rfl
      · rintro rfl
        rfl
  | cons a as ih =>
      rw [List.mapM_cons, List.forall₂_cons_left_iff]
      cases ha : f a with
      | error e =>
          constructor
          · intro h
            cases h
          · rintro ⟨b, bs', hb, -, -⟩
            cases hb
      | ok b =>
          cases has : as.mapM f with
          | error e =>
              constructor
              · intro h
                cases h
              · rintro ⟨b', bs', -, hbs', -⟩
                rw [← ih, has] at hbs'
                cases hbs'
          | ok bs' =>
              constructor
              · intro h
                cases h
                exact ⟨b, bs', rfl, (ih bs').mp has, rfl⟩
              · rintro ⟨b', bs'', hb, hbs'', rfl⟩
                cases hb
                rw [← ih, has] at hbs''
                cases hbs''
                rfl

variable {R : α → β → Prop} {P : α → Prop} {p : β → Bool}

/-- A translated rule comes from a rule. -/
theorem exists_of_mem {as : List α} {bs : List β} (h : List.Forall₂ R as bs) {b : β}
    (hb : b ∈ bs) : ∃ a ∈ as, R a b := by
  induction h with
  | nil =>
      cases hb
  | @cons x y as bs hxy _ ih =>
      rcases List.mem_cons.mp hb with rfl | hb
      · exact ⟨x, List.mem_cons_self, hxy⟩
      · obtain ⟨a, ha, hab⟩ := ih hb
        exact ⟨a, List.mem_cons_of_mem _ ha, hab⟩

/-- Rules and translated rules stand in the same places. -/
theorem rel_of_getElem? {as : List α} {bs : List β} (h : List.Forall₂ R as bs) {i : Nat} {a : α}
    {b : β} (ha : as[i]? = some a) (hb : bs[i]? = some b) : R a b := by
  induction h generalizing i with
  | nil =>
      cases ha
  | cons hxy _ ih =>
      cases i with
      | zero =>
          rw [List.getElem?_cons_zero] at ha hb
          cases ha
          cases hb
          exact hxy
      | succ i =>
          rw [List.getElem?_cons_succ] at ha hb
          exact ih ha hb

theorem find?_eq_none_of_forall₂ (hR : ∀ a b, R a b → (p b = true ↔ P a)) {as : List α}
    {bs : List β} (h : List.Forall₂ R as bs) (hnone : ∀ a ∈ as, ¬ P a) : bs.find? p = none := by
  induction h with
  | nil =>
      rfl
  | @cons a b as bs hab _ ih =>
      have hb : p b ≠ true := mt (hR a b hab).mp (hnone a List.mem_cons_self)
      rw [List.find?_cons_of_neg hb]
      exact ih fun x hx => hnone x (List.mem_cons_of_mem _ hx)

/-- The first rule that applies is found. -/
theorem find?_of_forall₂ (hR : ∀ a b, R a b → (p b = true ↔ P a)) {before after : List α} {a : α}
    {bs : List β} (h : List.Forall₂ R (before ++ a :: after) bs) (hbefore : ∀ x ∈ before, ¬ P x)
    (ha : P a) : ∃ b, bs.find? p = some b ∧ R a b := by
  induction before generalizing bs with
  | nil =>
      obtain ⟨b, bs', hab, -, rfl⟩ := List.forall₂_cons_left_iff.mp h
      exact ⟨b, List.find?_cons_of_pos ((hR a b hab).mpr ha), hab⟩
  | cons x before ih =>
      obtain ⟨y, bs', hxy, hrest, rfl⟩ := List.forall₂_cons_left_iff.mp h
      have hy : p y ≠ true := mt (hR x y hxy).mp (hbefore x List.mem_cons_self)
      rw [List.find?_cons_of_neg hy]
      exact ih hrest fun z hz => hbefore z (List.mem_cons_of_mem _ hz)

end FirstMatch
