import ChimneyPost.Smtp.Entities

/-!
# Ampersands before entities

`Replaced` is what decoding is meant to be: every entity becomes its character, wherever it
stands, and every other character is copied.  `decode_entities` looks from an ampersand
for the next semicolon and passes it in any case, so an ampersand close before an entity
hides the entity; and it takes numbers with a plus sign.

A text is a list of segments that end in a semicolon, and a last one that has none.  In
each segment both readings are given by the ampersands alone (`reading`): they agree, or an
entity is hidden, or a signed number is decoded.  A text is read as meant exactly when no
segment has such a defect (`replaced_iff_contextFree`): what one defect does to the output
is never made up for by another.
-/

namespace ChimneyPost
namespace Smtp

/-! ## What decoding is meant to be -/

/-- An entity at the head of a text. -/
def EntityAt (text : Str) : Prop :=
  ∃ body c rest, text = '&' :: (body ++ ';' :: rest) ∧ byteLen body ≤ 9 ∧ Denotes body c

/-- Entities are replaced by their characters, other characters are copied. -/
inductive Replaced : Str → Str → Prop
  | nil : Replaced [] []
  | entity {body rest out : Str} {c : Char} (hclose : byteLen body ≤ 9) (hdenotes : Denotes body c)
      (hrest : Replaced rest out) : Replaced ('&' :: (body ++ ';' :: rest)) (c :: out)
  | copy {c : Char} {rest out : Str} (hnone : ¬ EntityAt (c :: rest)) (hrest : Replaced rest out) :
      Replaced (c :: rest) (c :: out)

/-- Another ampersand before the one of `body` that is as close to the semicolon as an
entity has to be. -/
def Shadowed (front body : Str) : Prop :=
  ∃ a x, front = a ++ '&' :: x ∧ ';' ∉ x ∧ byteLen x + 1 + byteLen body ≤ 9

/-- No entity is shadowed, and every signed number is. -/
def ContextFree (text : Str) : Prop :=
  ∀ front body rest, text = front ++ '&' :: (body ++ ';' :: rest) → byteLen body ≤ 9 →
    (∀ c, Denotes body c → ¬ Shadowed front body) ∧ (∀ c, Signed body c → Shadowed front body)

/-! ## Segments -/

/-- The same for one segment, which is given without its semicolon. -/
def Sound (u : Str) : Prop :=
  ∀ front body, u = front ++ '&' :: body → byteLen body ≤ 9 →
    (∀ c, Denotes body c → ¬ Shadowed front body) ∧ (∀ c, Signed body c → Shadowed front body)

/-- A text is a last segment, or a segment, its semicolon and a text. -/
theorem segments {P : Str → Prop} (last : ∀ u, ';' ∉ u → P u)
    (segment : ∀ u rest, ';' ∉ u → P rest → P (u ++ ';' :: rest)) (text : Str) : P text := by
  generalize hn : text.length = n
  induction n using Nat.strongRecOn generalizing text with
  | ind n ih =>
      by_cases hmem : ';' ∈ text
      · obtain ⟨u, rest, rfl, hu⟩ := List.eq_append_cons_of_mem hmem
        apply segment u rest hu
        apply ih rest.length _ rest rfl
        rw [← hn, List.length_append, List.length_cons]
        omega
      · exact last text hmem

/-- The first semicolon cuts a text in one way. -/
theorem first_inj {c : Char} {s t s' t' : Str} (h : s ++ c :: t = s' ++ c :: t') (hs : c ∉ s)
    (hs' : c ∉ s') : s = s' ∧ t = t' := by
  have hfront := congrArg (List.takeWhile (fun x => x ≠ c)) h
  have hrear := congrArg (List.dropWhile (fun x => x ≠ c)) h
  rw [takeWhile_ne_append hs, takeWhile_ne_append hs'] at hfront
  rw [dropWhile_ne_append hs, dropWhile_ne_append hs'] at hrear
  exact ⟨hfront, List.tail_eq_of_cons_eq hrear⟩

theorem Shadowed.of_segment {u front body : Str} (h : Shadowed (u ++ ';' :: front) body) :
    Shadowed front body := by
  obtain ⟨a, x, heq, hx, hclose⟩ := h
  rcases List.append_eq_append_iff.mp heq with ⟨a', rfl, htail⟩ | ⟨c', rfl, htail⟩
  · cases a' with
    | nil =>
        cases htail
    | cons semicolon a' =>
        rw [List.cons_append] at htail
        exact ⟨a', x, List.tail_eq_of_cons_eq htail, hx, hclose⟩
  · -- the semicolon would stand in `x`
    cases c' with
    | nil =>
        cases htail
    | cons amp c' =>
        rw [List.cons_append] at htail
        have hmem : ';' ∈ x := by
          rw [List.tail_eq_of_cons_eq htail]
          simp
        exact absurd hmem hx

theorem Shadowed.append {front body : Str} (h : Shadowed front body) (u : Str) :
    Shadowed (u ++ front) body := by
  obtain ⟨a, x, rfl, hx, hclose⟩ := h
  exact ⟨u ++ a, x, (List.append_assoc u a _).symm, hx, hclose⟩

/-- What is denoted, or taken as a number, stands within one segment. -/
theorem not_mem_of_denotes_or_signed {body : Str} {c : Char} (h : Denotes body c ∨ Signed body c) :
    '&' ∉ body ∧ ';' ∉ body := by
  have hchar : ∀ x ∈ body, EntityChar x := by
    rcases h with h | h
    · exact fun x hx => (h.entityChar x hx).1
    · exact h.entityChar
  exact ⟨fun hmem => (hchar _ hmem).1 rfl, fun hmem => (hchar _ hmem).2 rfl⟩

theorem contextFree_of_not_mem {u : Str} (hu : ';' ∉ u) : ContextFree u := by
  rintro front body rest rfl
  exact absurd (by simp) hu

theorem contextFree_segment {u : Str} (hu : ';' ∉ u) (rest : Str) :
    ContextFree (u ++ ';' :: rest) ↔ Sound u ∧ ContextFree rest := by
  constructor
  · intro h
    constructor
    · intro front body heq hclose
      apply h front body rest _ hclose
      rw [heq, List.append_assoc, List.cons_append]
    · intro front body rest' heq hclose
      have htext : u ++ ';' :: rest = (u ++ ';' :: front) ++ '&' :: (body ++ ';' :: rest') := by
        rw [heq, List.append_assoc, List.cons_append]
      obtain ⟨hdenotes, hsigned⟩ := h _ body rest' htext hclose
      refine ⟨fun c hc hshadow => ?_, fun c hc => (hsigned c hc).of_segment⟩
      apply hdenotes c hc
      rw [List.append_cons]
      exact hshadow.append _
  · rintro ⟨hu', hrest⟩ front body rest' heq hclose
    by_cases hbody : ';' ∈ body
    · constructor
      · intro c hc
        exact absurd hbody (not_mem_of_denotes_or_signed (Or.inl hc)).2
      · intro c hc
        exact absurd hbody (not_mem_of_denotes_or_signed (Or.inr hc)).2
    · rcases List.append_eq_append_iff.mp heq with ⟨a', hfront, htail⟩ | ⟨c', hu'', htail⟩
      · -- the ampersand stands behind the segment
        cases a' with
        | nil =>
            cases htail
        | cons semicolon a' =>
            rw [List.cons_append] at htail
            obtain ⟨rfl, htext⟩ := List.cons.inj htail
            obtain ⟨hdenotes, hsigned⟩ := hrest a' body rest' htext hclose
            rw [hfront]
            refine ⟨fun c hc hshadow => hdenotes c hc hshadow.of_segment, fun c hc => ?_⟩
            rw [List.append_cons]
            exact (hsigned c hc).append _
      · cases c' with
        | nil =>
            cases htail
        | cons amp c' =>
            rw [List.cons_append] at htail
            obtain ⟨rfl, htext⟩ := List.cons.inj htail
            have hc' : ';' ∉ c' := fun hmem => hu (by rw [hu'']; simp [hmem])
            obtain ⟨rfl, -⟩ := first_inj htext hbody hc'
            exact hu' front body hu'' hclose

/-! ## Ampersands of a segment -/

/-- The last ampersand of a segment. -/
theorem exists_last {c : Char} {s : Str} (h : c ∈ s) : ∃ a b, s = a ++ c :: b ∧ c ∉ b := by
  obtain ⟨b, a, heq, hb⟩ := List.eq_append_cons_of_mem (List.mem_reverse.mpr h)
  refine ⟨a.reverse, b.reverse, ?_, mt List.mem_reverse.mp hb⟩
  have hrev := congrArg List.reverse heq
  rw [List.reverse_reverse, List.reverse_append, List.reverse_cons, List.append_assoc] at hrev
  exact hrev

theorem last_inj {c : Char} {a b a' b' : Str} (h : a ++ c :: b = a' ++ c :: b') (hb : c ∉ b)
    (hb' : c ∉ b') : a = a' ∧ b = b' := by
  have hrev := congrArg List.reverse h
  simp only [List.reverse_append, List.reverse_cons, List.append_assoc,
    List.singleton_append] at hrev
  obtain ⟨hrest, hfront⟩ := first_inj hrev (mt List.mem_reverse.mp hb)
    (mt List.mem_reverse.mp hb')
  exact ⟨List.reverse_inj.mp hfront, List.reverse_inj.mp hrest⟩

/-- The first ampersand that is close enough to the semicolon, if there is one. -/
theorem exists_first_close (u : Str) : (∀ a x, u = a ++ '&' :: x → 9 < byteLen x) ∨
    ∃ p b, u = p ++ '&' :: b ∧ byteLen b ≤ 9 ∧
      ∀ a x, p = a ++ '&' :: x → 9 < byteLen (x ++ '&' :: b) := by
  induction u with
  | nil =>
      left
      intro a x heq
      simp at heq
  | cons c u ih =>
      by_cases hhere : c = '&' ∧ byteLen u ≤ 9
      · right
        obtain ⟨rfl, hclose⟩ := hhere
        refine ⟨[], u, rfl, hclose, ?_⟩
        intro a x heq
        simp at heq
      · rcases ih with hfar | ⟨p, b, rfl, hclose, hfar⟩
        · left
          intro a x heq
          cases a with
          | nil =>
              obtain ⟨rfl, rfl⟩ := List.cons.inj heq
              by_contra hnot
              exact hhere ⟨rfl, by omega⟩
          | cons d a =>
              exact hfar a x (List.tail_eq_of_cons_eq heq)
        · right
          refine ⟨c :: p, b, rfl, hclose, ?_⟩
          intro a x heq
          cases a with
          | nil =>
              obtain ⟨rfl, rfl⟩ := List.cons.inj heq
              by_contra hnot
              exact hhere ⟨rfl, by omega⟩
          | cons d a =>
              exact hfar a x (List.tail_eq_of_cons_eq heq)

/-! ## What the code does with a segment -/

theorem decodeEntities_last {u : Str} (hu : ';' ∉ u) : decodeEntities u = u := by
  induction u with
  | nil =>
      exact decodeEntities_nil
  | cons c u ih =>
      rw [List.mem_cons, not_or] at hu
      by_cases hc : c = '&'
      · subst hc
        rw [decodeEntities_stray, ih hu.2]
        rintro body rest rfl
        exact absurd (by simp) hu.2
      · rw [decodeEntities_cons hc, ih hu.2]

/-- Ampersands that are too far from the semicolon are passed. -/
theorem decodeEntities_far {p t : Str} (hp : ';' ∉ p) (ht : ';' ∉ t)
    (hfar : ∀ a x, p = a ++ '&' :: x → 9 < byteLen (x ++ t)) (rest : Str) :
    decodeEntities (p ++ (t ++ ';' :: rest)) = p ++ decodeEntities (t ++ ';' :: rest) := by
  induction p with
  | nil =>
      rfl
  | cons c p ih =>
      rw [List.mem_cons, not_or] at hp
      have htail := ih hp.2 fun a x heq => hfar (c :: a) x (by rw [heq, List.cons_append])
      by_cases hc : c = '&'
      · subst hc
        rw [List.cons_append, decodeEntities_stray, htail]
        · rfl
        · intro body rest' heq hbody
          have hsegment : ';' ∉ p ++ t := by
            rw [List.mem_append, not_or]
            exact ⟨hp.2, ht⟩
          rw [← List.append_assoc] at heq
          obtain ⟨rfl, -⟩ := first_inj heq hsegment hbody
          exact hfar [] p rfl
      · rw [List.cons_append, decodeEntities_cons hc, htail]
        rfl

/-- The first close ampersand decides. -/
theorem decodeEntities_segment {p b : Str} (hu : ';' ∉ p ++ '&' :: b) (hclose : byteLen b ≤ 9)
    (hfar : ∀ a x, p = a ++ '&' :: x → 9 < byteLen (x ++ '&' :: b)) (rest : Str) :
    decodeEntities (p ++ '&' :: b ++ ';' :: rest) =
      p ++ decodeEntity b ++ decodeEntities rest := by
  rw [List.mem_append, not_or] at hu
  have hb : ';' ∉ b := fun hmem => hu.2 (List.mem_cons_of_mem _ hmem)
  rw [List.append_assoc, decodeEntities_far hu.1 hu.2 hfar, List.cons_append,
    decodeEntities_close hb hclose, List.append_assoc]

/-! ## What is meant by a segment -/

theorem entityAt_segment {v : Str} (hv : ';' ∉ v) (rest : Str) :
    EntityAt (v ++ ';' :: rest) ↔ ∃ body c, v = '&' :: body ∧ byteLen body ≤ 9 ∧ Denotes body c := by
  constructor
  · rintro ⟨body, c, rest', heq, hclose, hdenotes⟩
    have hbody : ';' ∉ '&' :: body := by
      rw [List.mem_cons, not_or]
      exact ⟨by decide, (not_mem_of_denotes_or_signed (Or.inl hdenotes)).2⟩
    rw [← List.cons_append] at heq
    obtain ⟨rfl, -⟩ := first_inj heq hv hbody
    exact ⟨body, c, rfl, hclose, hdenotes⟩
  · rintro ⟨body, c, rfl, hclose, hdenotes⟩
    exact ⟨body, c, rest, rfl, hclose, hdenotes⟩

theorem replaced_cons {c : Char} {rest out : Str} (hnone : ¬ EntityAt (c :: rest)) :
    Replaced (c :: rest) out ↔ ∃ out', out = c :: out' ∧ Replaced rest out' := by
  constructor
  · intro h
    generalize htext : c :: rest = text at h
    cases h with
    | nil =>
        cases htext
    | entity hclose hdenotes hrest =>
        rw [htext] at hnone
        exact absurd ⟨_, _, _, rfl, hclose, hdenotes⟩ hnone
    | copy hnone' hrest =>
        obtain ⟨rfl, rfl⟩ := List.cons.inj htext
        exact ⟨_, rfl, hrest⟩
  · rintro ⟨out', rfl, hrest⟩
    exact .copy hnone hrest

/-- A text is copied where no entity begins. -/
theorem replaced_append {p s out : Str} (hnone : ∀ a x, p = a ++ x → x ≠ [] → ¬ EntityAt (x ++ s)) :
    Replaced (p ++ s) out ↔ ∃ out', out = p ++ out' ∧ Replaced s out' := by
  induction p generalizing out with
  | nil =>
      simp
  | cons c p ih =>
      have hhere := hnone [] (c :: p) rfl (List.cons_ne_nil _ _)
      have htail : ∀ a x, p = a ++ x → x ≠ [] → ¬ EntityAt (x ++ s) := by
        intro a x heq
        exact hnone (c :: a) x (by rw [heq, List.cons_append])
      rw [List.cons_append] at hhere ⊢
      rw [replaced_cons hhere]
      constructor
      · rintro ⟨out', rfl, h⟩
        obtain ⟨out'', rfl, hs⟩ := (ih htail).mp h
        exact ⟨out'', rfl, hs⟩
      · rintro ⟨out'', rfl, hs⟩
        exact ⟨p ++ out'', rfl, (ih htail).mpr ⟨out'', rfl, hs⟩⟩

theorem replaced_nil {out : Str} : Replaced [] out ↔ out = [] := by
  constructor
  · intro h
    cases h
    rfl
  · rintro rfl
    exact .nil

theorem replaced_last {u out : Str} (hu : ';' ∉ u) : Replaced u out ↔ out = u := by
  have hnone : ∀ a x, u = a ++ x → x ≠ [] → ¬ EntityAt (x ++ []) := by
    rintro a x rfl - ⟨body, c, rest, heq, -, -⟩
    rw [List.append_nil] at heq
    rw [heq] at hu
    simp at hu
  have h : Replaced (u ++ []) out ↔ ∃ out', out = u ++ out' ∧ Replaced [] out' :=
    replaced_append hnone
  rw [List.append_nil] at h
  rw [h]
  constructor
  · rintro ⟨out', rfl, hnil⟩
    rw [replaced_nil.mp hnil, List.append_nil]
  · rintro rfl
    exact ⟨[], (List.append_nil _).symm, .nil⟩

/-- A segment without an entity is copied. -/
theorem replaced_plain {u : Str} (hu : ';' ∉ u)
    (hnone : ∀ front body c, u = front ++ '&' :: body → byteLen body ≤ 9 → ¬ Denotes body c)
    (rest out : Str) : Replaced (u ++ ';' :: rest) out ↔
      ∃ out', out = u ++ [';'] ++ out' ∧ Replaced rest out' := by
  have hinside : ∀ a x, u = a ++ x → x ≠ [] → ¬ EntityAt (x ++ ';' :: rest) := by
    intro a x heq _ hentity
    have hx : ';' ∉ x := fun hmem => hu (by rw [heq]; exact List.mem_append_right _ hmem)
    obtain ⟨body, c, rfl, hclose, hdenotes⟩ := (entityAt_segment hx rest).mp hentity
    exact hnone a body c heq hclose hdenotes
  have hsemicolon : ¬ EntityAt (';' :: rest) := by
    rintro ⟨body, c, rest', heq, -, -⟩
    cases heq
  rw [replaced_append hinside]
  constructor
  · rintro ⟨out', rfl, h⟩
    obtain ⟨out'', rfl, hrest⟩ := (replaced_cons hsemicolon).mp h
    exact ⟨out'', by simp, hrest⟩
  · rintro ⟨out'', rfl, hrest⟩
    exact ⟨';' :: out'', by simp, (replaced_cons hsemicolon).mpr ⟨out'', rfl, hrest⟩⟩

/-- The last ampersand of a segment begins its entity. -/
theorem replaced_entity {p b : Str} {c : Char} (hu : ';' ∉ p ++ '&' :: b) (hclose : byteLen b ≤ 9)
    (hdenotes : Denotes b c) (rest out : Str) :
    Replaced (p ++ '&' :: b ++ ';' :: rest) out ↔
      ∃ out', out = p ++ [c] ++ out' ∧ Replaced rest out' := by
  have hb := (not_mem_of_denotes_or_signed (Or.inl hdenotes))
  have hinside : ∀ a x, p = a ++ x → x ≠ [] → ¬ EntityAt (x ++ '&' :: (b ++ ';' :: rest)) := by
    intro a x heq hne hentity
    have hx : ';' ∉ x ++ '&' :: b := by
      intro hmem
      apply hu
      rw [heq, List.append_assoc]
      exact List.mem_append_right _ hmem
    rw [← List.cons_append, ← List.append_assoc] at hentity
    obtain ⟨body, d, hbody, -, hd⟩ := (entityAt_segment hx rest).mp hentity
    cases x with
    | nil =>
        exact hne rfl
    | cons amp x =>
        have hmem : '&' ∈ body := by
          rw [← List.tail_eq_of_cons_eq hbody]
          simp
        exact (not_mem_of_denotes_or_signed (Or.inl hd)).1 hmem
  rw [List.append_assoc, List.cons_append, replaced_append hinside]
  have hhead : ∀ {s : Str}, Replaced ('&' :: (b ++ ';' :: rest)) s ↔
      ∃ out', s = c :: out' ∧ Replaced rest out' := by
    intro s
    constructor
    · intro h
      generalize htext : '&' :: (b ++ ';' :: rest) = text at h
      cases h with
      | nil =>
          cases htext
      | @entity body rest' out' d hclose' hd hrest =>
          have hbody := not_mem_of_denotes_or_signed (Or.inl hd)
          obtain ⟨rfl, rfl⟩ := first_inj (List.tail_eq_of_cons_eq htext) hb.2 hbody.2
          have hsame : [c] = [d] := by
            rw [← decodeEntity_of_denotes hdenotes, ← decodeEntity_of_denotes hd]
          rw [List.singleton_inj.mp hsame]
          exact ⟨_, rfl, hrest⟩
      | copy hnone hrest =>
          rw [← htext] at hnone
          exact absurd ⟨b, c, rest, rfl, hclose, hdenotes⟩ hnone
    · rintro ⟨out', rfl, hrest⟩
      exact .entity hclose hdenotes hrest
  constructor
  · rintro ⟨out', rfl, h⟩
    obtain ⟨out'', rfl, hrest⟩ := hhead.mp h
    exact ⟨out'', by simp, hrest⟩
  · rintro ⟨out'', rfl, hrest⟩
    exact ⟨c :: out'', by simp, hhead.mpr ⟨out'', rfl, hrest⟩⟩

/-! ## Both readings of a segment -/

/-- What the code puts out for a segment, and what is meant. -/
structure ReadAs (u code meant : Str) : Prop where
  decode : ∀ rest, decodeEntities (u ++ ';' :: rest) = code ++ decodeEntities rest
  replaced : ∀ rest out, Replaced (u ++ ';' :: rest) out ↔
    ∃ out', out = meant ++ out' ∧ Replaced rest out'

/-- The two agree, or an entity is hidden by an ampersand before it, or a signed number is
decoded. -/
inductive Reading (u : Str) : Str → Str → Prop
  | sound (out : Str) (h : Sound u) : Reading u out out
  | hidden {p b : Str} {c : Char} (hu : u = p ++ '&' :: b) (hclose : byteLen b ≤ 9)
      (hdenotes : Denotes b c) (hshadow : Shadowed p b) : Reading u (u ++ [';']) (p ++ [c])
  | signed {p b : Str} {c : Char} (hu : u = p ++ '&' :: b) (hclose : byteLen b ≤ 9)
      (hsigned : Signed b c) (hclear : ¬ Shadowed p b) : Reading u (p ++ [c]) (u ++ [';'])

/-- No close ampersand: everything is copied. -/
theorem reads_far {u : Str} (hu : ';' ∉ u) (hfar : ∀ a x, u = a ++ '&' :: x → 9 < byteLen x) :
    ReadAs u (u ++ [';']) (u ++ [';']) where
  decode := by
    intro rest
    have hnil : ∀ a x, u = a ++ '&' :: x → 9 < byteLen (x ++ []) := by
      intro a x heq
      rw [List.append_nil]
      exact hfar a x heq
    have hpass := decodeEntities_far hu List.not_mem_nil hnil rest
    rw [List.nil_append] at hpass
    rw [hpass, decodeEntities_cons (by decide), List.append_assoc]
    rfl
  replaced := by
    apply replaced_plain hu
    intro front body c heq hclose
    have hlong := hfar front body heq
    omega

/-- The ampersand of a segment that begins an entity is the last one. -/
theorem eq_of_last {p b front body : Str} {c : Char} (hb : '&' ∉ b)
    (h : p ++ '&' :: b = front ++ '&' :: body) (hbody : Denotes body c ∨ Signed body c) :
    p = front ∧ b = body := by
  exact last_inj h hb (not_mem_of_denotes_or_signed hbody).1

/-- The close ampersand is the last one, so its body is what is meant. -/
theorem reading_alone {p b : Str} (hu : ';' ∉ p ++ '&' :: b) (hclose : byteLen b ≤ 9)
    (hfar : ∀ a x, p = a ++ '&' :: x → 9 < byteLen (x ++ '&' :: b)) (hb : '&' ∉ b) :
    ∃ code meant, ReadAs (p ++ '&' :: b) code meant ∧ Reading (p ++ '&' :: b) code meant := by
  have hclear : ¬ Shadowed p b := by
    rintro ⟨a, x, rfl, -, hshort⟩
    have hlong := hfar a x rfl
    rw [byteLen_append, byteLen_cons] at hlong
    have hamp : '&'.utf8Size = 1 := rfl
    omega
  have hdecode := decodeEntities_segment hu hclose hfar
  by_cases hdenotes : ∃ c, Denotes b c
  · obtain ⟨c, hc⟩ := hdenotes
    refine ⟨p ++ [c], p ++ [c], ⟨?_, replaced_entity hu hclose hc⟩, .sound _ ?_⟩
    · intro rest
      rw [hdecode, decodeEntity_of_denotes hc]
    · intro front body heq _
      constructor
      · intro d hd
        obtain ⟨rfl, rfl⟩ := eq_of_last hb heq (Or.inl hd)
        exact hclear
      · intro d hd
        obtain ⟨rfl, rfl⟩ := eq_of_last hb heq (Or.inr hd)
        exact absurd rfl (hc.entityChar '+' hd.plus_mem).2
  · rw [not_exists] at hdenotes
    have hplain : ∀ front body c, p ++ '&' :: b = front ++ '&' :: body → byteLen body ≤ 9 →
        ¬ Denotes body c := by
      intro front body c heq _ hd
      obtain ⟨rfl, rfl⟩ := eq_of_last hb heq (Or.inl hd)
      exact hdenotes c hd
    by_cases hsigned : ∃ c, Signed b c
    · obtain ⟨c, hc⟩ := hsigned
      refine ⟨p ++ [c], p ++ '&' :: b ++ [';'], ⟨?_, replaced_plain hu hplain⟩,
        .signed rfl hclose hc hclear⟩
      intro rest
      rw [hdecode, decodeEntity_of_signed hc]
    · rw [not_exists] at hsigned
      refine ⟨p ++ '&' :: b ++ [';'], p ++ '&' :: b ++ [';'], ⟨?_, replaced_plain hu hplain⟩,
        .sound _ ?_⟩
      · intro rest
        rw [hdecode, decodeEntity_of_neither hdenotes hsigned, ← List.cons_append,
          ← List.append_assoc]
      · intro front body heq hshort
        refine ⟨fun d hd => absurd hd (hplain front body d heq hshort), fun d hd => ?_⟩
        obtain ⟨rfl, rfl⟩ := eq_of_last hb heq (Or.inr hd)
        exact absurd hd (hsigned d)

/-- Another ampersand follows the close one: the code copies the segment. -/
theorem reading_crowded {p x b : Str} (hu : ';' ∉ p ++ '&' :: (x ++ '&' :: b))
    (hclose : byteLen (x ++ '&' :: b) ≤ 9)
    (hfar : ∀ a y, p = a ++ '&' :: y → 9 < byteLen (y ++ '&' :: (x ++ '&' :: b)))
    (hb : '&' ∉ b) : ∃ code meant, ReadAs (p ++ '&' :: (x ++ '&' :: b)) code meant ∧
      Reading (p ++ '&' :: (x ++ '&' :: b)) code meant := by
  have hcut : p ++ '&' :: (x ++ '&' :: b) = (p ++ '&' :: x) ++ '&' :: b := by
    rw [List.append_assoc, List.cons_append]
  have hcrowded : decodeEntity (x ++ '&' :: b) = '&' :: (x ++ '&' :: b ++ [';']) := by
    apply decodeEntity_of_neither
    · intro c hc
      exact (not_mem_of_denotes_or_signed (Or.inl hc)).1 (by simp)
    · intro c hc
      exact (not_mem_of_denotes_or_signed (Or.inr hc)).1 (by simp)
  have hdecode : ∀ rest, decodeEntities (p ++ '&' :: (x ++ '&' :: b) ++ ';' :: rest) =
      p ++ '&' :: (x ++ '&' :: b) ++ [';'] ++ decodeEntities rest := by
    intro rest
    rw [decodeEntities_segment hu hclose hfar, hcrowded, ← List.cons_append, ← List.append_assoc]
  have hshadow : Shadowed (p ++ '&' :: x) b := by
    have hamp : '&'.utf8Size = 1 := rfl
    rw [byteLen_append, byteLen_cons] at hclose
    refine ⟨p, x, rfl, ?_, by omega⟩
    intro hmem
    exact hu (by simp [hmem])
  have hshort : byteLen b ≤ 9 := by
    rw [byteLen_append, byteLen_cons] at hclose
    omega
  by_cases hdenotes : ∃ c, Denotes b c
  · obtain ⟨c, hc⟩ := hdenotes
    have hu' : ';' ∉ p ++ '&' :: x ++ '&' :: b := by
      rw [← hcut]
      exact hu
    refine ⟨p ++ '&' :: (x ++ '&' :: b) ++ [';'], p ++ '&' :: x ++ [c], ⟨hdecode, ?_⟩,
      .hidden hcut hshort hc hshadow⟩
    intro rest out
    rw [hcut]
    exact replaced_entity hu' hshort hc rest out
  · rw [not_exists] at hdenotes
    have hplain : ∀ front body c, p ++ '&' :: (x ++ '&' :: b) = front ++ '&' :: body →
        byteLen body ≤ 9 → ¬ Denotes body c := by
      intro front body c heq _ hd
      rw [hcut] at heq
      obtain ⟨rfl, rfl⟩ := eq_of_last hb heq (Or.inl hd)
      exact hdenotes c hd
    refine ⟨_, _, ⟨hdecode, replaced_plain hu hplain⟩, .sound _ ?_⟩
    intro front body heq hshort'
    refine ⟨fun d hd => absurd hd (hplain front body d heq hshort'), fun d hd => ?_⟩
    rw [hcut] at heq
    obtain ⟨rfl, rfl⟩ := eq_of_last hb heq (Or.inr hd)
    exact hshadow

theorem reading {u : Str} (hu : ';' ∉ u) : ∃ code meant, ReadAs u code meant ∧ Reading u code meant := by
  rcases exists_first_close u with hfar | ⟨p, b, rfl, hclose, hfar⟩
  · refine ⟨_, _, reads_far hu hfar, .sound _ ?_⟩
    intro front body heq hclose
    have hlong := hfar front body heq
    omega
  · by_cases hb : '&' ∈ b
    · obtain ⟨x, b', rfl, hb'⟩ := exists_last hb
      exact reading_crowded hu hclose hfar hb'
    · exact reading_alone hu hclose hfar hb

/-! ## No defect makes up for another -/

/-- An ampersand does not come both before and after the first semicolon. -/
theorem append_ne_append {w p x y : Str} (hw : '&' ∉ w) (hw' : ';' ∈ w) (hp : '&' ∈ p)
    (hp' : ';' ∉ p) : w ++ x ≠ p ++ y := by
  intro h
  rcases List.append_eq_append_iff.mp h with ⟨a', rfl, -⟩ | ⟨c', rfl, -⟩
  · exact hp' (List.mem_append_left _ hw')
  · exact hw (List.mem_append_left _ hp)

theorem Shadowed.amp_mem {front body : Str} (h : Shadowed front body) : '&' ∈ front := by
  obtain ⟨a, x, rfl, -, -⟩ := h
  simp

/-- Output that is owed, without an ampersand and with a semicolon, is never paid back. -/
theorem not_replaced_append (text : Str) : ∀ w, '&' ∉ w → ';' ∈ w →
    ¬ Replaced text (w ++ decodeEntities text) := by
  induction text using segments with
  | last u hu =>
      intro w _ hw h
      rw [replaced_last hu, decodeEntities_last hu] at h
      have hlength := congrArg List.length h
      rw [List.length_append] at hlength
      have hpos := List.length_pos_of_mem hw
      omega
  | segment u rest hu ih =>
      intro w hw hw' h
      obtain ⟨code, meant, hreads, hreading⟩ := reading hu
      obtain ⟨out', heq, hrest⟩ := (hreads.replaced rest _).mp h
      rw [hreads.decode] at heq
      cases hreading with
      | sound out hsound =>
          -- the debt is turned round by what both put out
          have hrotate : ∃ w', w ++ code = code ++ w' ∧ out' = w' ++ decodeEntities rest := by
            rw [← List.append_assoc] at heq
            rcases List.append_eq_append_iff.mp heq with ⟨a', hcode, hout⟩ | ⟨c', hcode, hout⟩
            · have hlength := congrArg List.length hcode
              rw [List.length_append, List.length_append] at hlength
              have hpos := List.length_pos_of_mem hw'
              omega
            · exact ⟨c', hcode, hout⟩
          obtain ⟨w', hturn, rfl⟩ := hrotate
          have hcount : ∀ c : Char, w'.count c = w.count c := by
            intro c
            have hcounts := congrArg (List.count c) hturn
            rw [List.count_append, List.count_append] at hcounts
            omega
          apply ih w' _ _ hrest
          · rw [← List.count_eq_zero, hcount, List.count_eq_zero]
            exact hw
          · rw [← List.count_pos_iff, hcount, List.count_pos_iff]
            exact hw'
      | @hidden p b c hu' hclose hdenotes hshadow =>
          have hp : ';' ∉ p := fun hmem => hu (by rw [hu']; exact List.mem_append_left _ hmem)
          rw [List.append_assoc p] at heq
          exact append_ne_append hw hw' hshadow.amp_mem hp heq
      | @signed p b c hu' hclose hsigned hclear =>
          have hamp : '&' ∈ u := by
            rw [hu']
            simp
          rw [List.append_assoc u] at heq
          exact append_ne_append hw hw' hamp hu heq

/-- The code never puts out more plus signs than are meant. -/
theorem count_plus_le (text : Str) : ∀ out, Replaced text out →
    (decodeEntities text).count '+' ≤ out.count '+' := by
  induction text using segments with
  | last u hu =>
      intro out h
      rw [(replaced_last hu).mp h, decodeEntities_last hu]
  | segment u rest hu ih =>
      intro out h
      obtain ⟨code, meant, hreads, hreading⟩ := reading hu
      obtain ⟨out', rfl, hrest⟩ := (hreads.replaced rest out).mp h
      have hle := ih out' hrest
      have hsegment : code.count '+' ≤ meant.count '+' := by
        cases hreading with
        | sound => exact le_refl _
        | @hidden p b c hu' hclose hdenotes hshadow =>
            have hb : b.count '+' = 0 :=
              List.count_eq_zero.mpr fun hmem => (hdenotes.entityChar '+' hmem).2 rfl
            have hbody : ('&' :: b ++ [';']).count '+' = 0 := by
              rw [List.count_append, List.count_cons, hb]
              rfl
            have hmeant : (p ++ [c]).count '+' = p.count '+' + [c].count '+' := List.count_append
            rw [hu', List.append_assoc, List.count_append, hbody, hmeant]
            omega
        | @signed p b c hu' hclose hsigned hclear =>
            have hb : 0 < b.count '+' := List.count_pos_iff.mpr hsigned.plus_mem
            have hbody : b.count '+' ≤ ('&' :: b ++ [';']).count '+' := by
              rw [List.cons_append]
              exact List.Sublist.count_le _ ((List.sublist_append_left b [';']).cons '&')
            have hone : [c].count '+' ≤ 1 := List.count_le_length
            have hmeant : (p ++ ('&' :: b ++ [';'])).count '+' =
                p.count '+' + ('&' :: b ++ [';']).count '+' := List.count_append
            rw [hu', List.append_assoc, List.count_append, hmeant]
            omega
      rw [hreads.decode, List.count_append, List.count_append]
      omega

/-- **Entities are replaced as meant exactly where no ampersand hides one and no signed number
is decoded.** -/
theorem replaced_iff_contextFree (text : Str) :
    Replaced text (decodeEntities text) ↔ ContextFree text := by
  induction text using segments with
  | last u hu =>
      rw [replaced_last hu, decodeEntities_last hu]
      exact ⟨fun _ => contextFree_of_not_mem hu, fun _ => rfl⟩
  | segment u rest hu ih =>
      obtain ⟨code, meant, hreads, hreading⟩ := reading hu
      rw [hreads.decode, hreads.replaced, contextFree_segment hu]
      constructor
      · rintro ⟨out', heq, hrest⟩
        cases hreading with
        | sound out hsound =>
            rw [← List.append_cancel_left heq] at hrest
            exact ⟨hsound, ih.mp hrest⟩
        | @hidden p b c hu' hclose hdenotes hshadow =>
            rw [hu', List.append_assoc, List.append_assoc, List.append_assoc] at heq
            have hout := List.tail_eq_of_cons_eq (List.append_cancel_left heq)
            -- what is left to read is put out by the code a body and a semicolon later
            have howed : out' = (b ++ [';']) ++ decodeEntities rest := by
              rw [List.append_assoc]
              exact hout.symm
            have hb := (not_mem_of_denotes_or_signed (Or.inl hdenotes)).1
            rw [howed] at hrest
            exact absurd hrest (not_replaced_append rest _ (by simp [hb]) (by simp))
        | @signed p b c hu' hclose hsigned hclear =>
            rw [hu', List.append_assoc, List.append_assoc, List.append_assoc] at heq
            have hout : decodeEntities rest = b ++ ([';'] ++ out') :=
              List.tail_eq_of_cons_eq (List.append_cancel_left heq)
            have hle := count_plus_le rest out' hrest
            have hplus : 0 < b.count '+' := List.count_pos_iff.mpr hsigned.plus_mem
            rw [hout, List.count_append, List.count_append] at hle
            omega
      · rintro ⟨hsound, hrest⟩
        cases hreading with
        | sound out _ =>
            exact ⟨decodeEntities rest, rfl, ih.mpr hrest⟩
        | @hidden p b c hu' hclose hdenotes hshadow =>
            exact absurd hshadow ((hsound p b hu' hclose).1 c hdenotes)
        | @signed p b c hu' hclose hsigned hclear =>
            exact absurd ((hsound p b hu' hclose).2 c hsigned) hclear

/-- In `& &lt;` the entity is not decoded. -/
theorem ampersand_hides_entity :
    decodeEntities "& &lt;".toList = "& &lt;".toList ∧
      ¬ Replaced "& &lt;".toList (decodeEntities "& &lt;".toList) := by
  have hcode : decodeEntities "& &lt;".toList = "& &lt;".toList := by decide
  refine ⟨hcode, ?_⟩
  rw [hcode]
  intro h
  have hsegment : ';' ∉ "& ".toList ++ '&' :: "lt".toList := by decide
  have hdenotes : Denotes "lt".toList '<' := .name (by decide) rfl
  obtain ⟨out', heq, -⟩ := (replaced_entity hsegment (by decide) hdenotes [] _).mp h
  have hthird := congrArg (fun s => s[2]?) heq
  cases hthird

end Smtp
end ChimneyPost
