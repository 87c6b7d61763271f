import ChimneyPost.Smtp.Mime
import ChimneyPost.Text.Casing

/-!
# Entities

One equation for each thing that `decode_entities` does at the head of a text: a
character that is no ampersand is copied (`decodeEntities_cons`), what stands between an
ampersand and a semicolon close to it is decoded and the semicolon passed
(`decodeEntities_close`), any other ampersand is copied (`decodeEntities_stray`).

`Denotes` is what an entity means, `Signed` what the number parser takes besides.
-/

namespace ChimneyPost
namespace Smtp

/-! ## Lengths -/

@[simp] theorem byteLen_nil : byteLen [] = 0 := by
  rfl

@[simp] theorem byteLen_cons (c : Char) (s : Str) :
    byteLen (c :: s) = c.utf8Size + byteLen s := by
  rfl

@[simp] theorem byteLen_append (s t : Str) : byteLen (s ++ t) = byteLen s + byteLen t := by
  rw [byteLen, List.map_append, List.sum_append]
  rfl

/-! ## The loop -/

theorem decodeEntitiesLoop_eq {fuel : Nat} {rest : Str} (h : rest.length < fuel) :
    decodeEntitiesLoop fuel rest = decodeEntities rest := by
  exact decodeEntitiesLoop_fuel h (Nat.lt_succ_self _)

/-- A text without ampersands has no entities. -/
theorem decodeEntities_of_not_mem {text : Str} (h : '&' ∉ text) :
    decodeEntities text = text := by
  have hnone : text.dropWhile (fun c => c ≠ '&') = [] := by
    rw [List.dropWhile_eq_nil_iff]
    intro c hc
    have hne : c ≠ '&' := fun heq => h (heq ▸ hc)
    simpa using hne
  rw [decodeEntities, decodeEntitiesLoop, hnone]

/-- One round of the loop, from the first ampersand on. -/
theorem decodeEntities_append {front : Str} (hfront : '&' ∉ front) (tail : Str) :
    decodeEntities (front ++ '&' :: tail) = front ++
      if ';' ∈ tail ∧ byteLen (tail.takeWhile (fun c => c ≠ ';')) + 1 ≤ 10 then
        decodeEntity (tail.takeWhile (fun c => c ≠ ';')) ++
          decodeEntities (tail.drop ((tail.takeWhile (fun c => c ≠ ';')).length + 1))
      else
        '&' :: decodeEntities tail := by
  have hfuel : ∀ n, decodeEntitiesLoop (front ++ '&' :: tail).length (tail.drop n) =
      decodeEntities (tail.drop n) := by
    intro n
    apply decodeEntitiesLoop_eq
    rw [List.length_drop, List.length_append, List.length_cons]
    omega
  have hwhole := hfuel 0
  rw [List.drop_zero] at hwhole
  conv_lhs => rw [decodeEntities, decodeEntitiesLoop, dropWhile_ne_append hfront]
  simp only [takeWhile_ne_append hfront, hfuel, hwhole]

theorem decodeEntities_amp (tail : Str) :
    decodeEntities ('&' :: tail) =
      if ';' ∈ tail ∧ byteLen (tail.takeWhile (fun c => c ≠ ';')) + 1 ≤ 10 then
        decodeEntity (tail.takeWhile (fun c => c ≠ ';')) ++
          decodeEntities (tail.drop ((tail.takeWhile (fun c => c ≠ ';')).length + 1))
      else
        '&' :: decodeEntities tail := by
  exact decodeEntities_append (List.not_mem_nil) tail

@[simp] theorem decodeEntities_nil : decodeEntities [] = [] := by
  exact decodeEntities_of_not_mem List.not_mem_nil

theorem decodeEntities_cons {c : Char} (hc : c ≠ '&') (s : Str) :
    decodeEntities (c :: s) = c :: decodeEntities s := by
  by_cases hs : '&' ∈ s
  · obtain ⟨front, tail, rfl, hfront⟩ := List.eq_append_cons_of_mem hs
    have hfront' : '&' ∉ c :: front := by
      rw [List.mem_cons, not_or]
      exact ⟨Ne.symm hc, hfront⟩
    rw [← List.cons_append, decodeEntities_append hfront', decodeEntities_append hfront]
    rfl
  · have hs' : '&' ∉ c :: s := by
      rw [List.mem_cons, not_or]
      exact ⟨Ne.symm hc, hs⟩
    rw [decodeEntities_of_not_mem hs, decodeEntities_of_not_mem hs']

theorem decodeEntities_close {body : Str} (hbody : ';' ∉ body) (hclose : byteLen body ≤ 9)
    (rest : Str) :
    decodeEntities ('&' :: (body ++ ';' :: rest)) = decodeEntity body ++ decodeEntities rest := by
  rw [decodeEntities_amp, takeWhile_ne_append hbody, if_pos ⟨by simp, by omega⟩]
  rw [List.append_cons, List.drop_left' (by simp)]

theorem decodeEntities_stray {tail : Str}
    (htail : ∀ body rest, tail = body ++ ';' :: rest → ';' ∉ body → 9 < byteLen body) :
    decodeEntities ('&' :: tail) = '&' :: decodeEntities tail := by
  rw [decodeEntities_amp, if_neg]
  rintro ⟨hmem, hclose⟩
  obtain ⟨body, rest, rfl, hbody⟩ := List.eq_append_cons_of_mem hmem
  rw [takeWhile_ne_append hbody] at hclose
  have hfar := htail body rest rfl hbody
  omega

/-! ## What an entity stands for -/

/-- The names that are decoded.  A non-breaking space is rendered as a normal one. -/
def entityNames : List (Str × Char) :=
  [("amp".toList, '&'), ("lt".toList, '<'), ("gt".toList, '>'), ("quot".toList, '"'),
    ("apos".toList, '\''), ("nbsp".toList, ' ')]

/-- Digits, at least one, that write the code of a character. -/
def WritesCode (radix : Nat) (digits : Str) (c : Char) : Prop :=
  digits ≠ [] ∧ readDigits radix 0 digits = some c.toNat

/-- A name in any case, `#` and decimal digits, or `#x` and hexadecimal ones. -/
inductive Denotes : Str → Char → Prop
  | name {body name : Str} {c : Char} (hname : (name, c) ∈ entityNames)
      (hbody : toAsciiLowercase body = name) : Denotes body c
  | decimal {digits : Str} {c : Char} (hdigits : WritesCode 10 digits c) :
      Denotes ('#' :: digits) c
  | hexadecimal {x : Char} {digits : Str} {c : Char} (hx : x = 'x' ∨ x = 'X')
      (hdigits : WritesCode 16 digits c) : Denotes ('#' :: x :: digits) c

/-- A reference with a plus sign before its digits, which the number parser takes. -/
inductive Signed : Str → Char → Prop
  | decimal {digits : Str} {c : Char} (hdigits : WritesCode 10 digits c) :
      Signed ('#' :: '+' :: digits) c
  | hexadecimal {x : Char} {digits : Str} {c : Char} (hx : x = 'x' ∨ x = 'X')
      (hdigits : WritesCode 16 digits c) : Signed ('#' :: x :: '+' :: digits) c

/-- The characters that an entity is written with. -/
def EntityChar (c : Char) : Prop :=
  c ≠ '&' ∧ c ≠ ';'

theorem toDigit_entityChar {radix : Nat} {c : Char} {d : Nat} (h : toDigit radix c = some d) :
    EntityChar c ∧ c ≠ '+' := by
  refine ⟨⟨?_, ?_⟩, ?_⟩
  · rintro rfl
    cases h
  · rintro rfl
    cases h
  · rintro rfl
    cases h

theorem readDigits_entityChar {radix value n : Nat} {digits : Str}
    (h : readDigits radix value digits = some n) :
    ∀ c ∈ digits, EntityChar c ∧ c ≠ '+' := by
  induction digits generalizing value with
  | nil =>
      intro c hc
      cases hc
  | cons x digits ih =>
      rw [readDigits] at h
      cases hx : toDigit radix x with
      | none =>
          rw [hx] at h
          cases h
      | some d =>
          rw [hx] at h
          intro c hc
          rcases List.mem_cons.mp hc with rfl | hc
          · exact toDigit_entityChar hx
          · exact ih h c hc

theorem Denotes.entityChar {body : Str} {c : Char} (h : Denotes body c) :
    ∀ x ∈ body, EntityChar x ∧ x ≠ '+' := by
  intro x hx
  induction h with
  | name hname hbody =>
      have hno : ∀ d : Char, d.isLower = false → d.isUpper = false →
          (∀ entry ∈ entityNames, d ∉ entry.1) → x ≠ d := by
        intro d hlower hupper hall heq
        subst heq
        have hmem := (mem_toAsciiLowercase hlower hupper).mpr hx
        rw [hbody] at hmem
        exact hall _ hname hmem
      refine ⟨⟨hno '&' rfl rfl ?_, hno ';' rfl rfl ?_⟩, hno '+' rfl rfl ?_⟩
      · decide
      · decide
      · decide
  | decimal hdigits =>
      rcases List.mem_cons.mp hx with rfl | hx
      · exact ⟨⟨by decide, by decide⟩, by decide⟩
      · exact readDigits_entityChar hdigits.2 x hx
  | hexadecimal hletter hdigits =>
      rcases List.mem_cons.mp hx with rfl | hx
      · exact ⟨⟨by decide, by decide⟩, by decide⟩
      · rcases List.mem_cons.mp hx with rfl | hx
        · rcases hletter with rfl | rfl
          · exact ⟨⟨by decide, by decide⟩, by decide⟩
          · exact ⟨⟨by decide, by decide⟩, by decide⟩
        · exact readDigits_entityChar hdigits.2 x hx

theorem Signed.entityChar {body : Str} {c : Char} (h : Signed body c) :
    ∀ x ∈ body, EntityChar x := by
  intro x hx
  induction h with
  | decimal hdigits =>
      rcases List.mem_cons.mp hx with rfl | hx
      · exact ⟨by decide, by decide⟩
      · rcases List.mem_cons.mp hx with rfl | hx
        · exact ⟨by decide, by decide⟩
        · exact (readDigits_entityChar hdigits.2 x hx).1
  | hexadecimal hletter hdigits =>
      rcases List.mem_cons.mp hx with rfl | hx
      · exact ⟨by decide, by decide⟩
      · rcases List.mem_cons.mp hx with rfl | hx
        · rcases hletter with rfl | rfl
          · exact ⟨by decide, by decide⟩
          · exact ⟨by decide, by decide⟩
        · rcases List.mem_cons.mp hx with rfl | hx
          · exact ⟨by decide, by decide⟩
          · exact (readDigits_entityChar hdigits.2 x hx).1

theorem Signed.plus_mem {body : Str} {c : Char} (h : Signed body c) : '+' ∈ body := by
  cases h with
  | decimal => simp
  | hexadecimal => simp

/-! ## Names -/

theorem namedEntity_of_name {body name : Str} {c : Char} (hname : (name, c) ∈ entityNames)
    (hbody : toAsciiLowercase body = name) : namedEntity body = some [c] := by
  simp only [entityNames, List.mem_cons, Prod.mk.injEq, List.not_mem_nil, or_false] at hname
  rw [namedEntity, hbody]
  rcases hname with ⟨rfl, rfl⟩ | ⟨rfl, rfl⟩ | ⟨rfl, rfl⟩ | ⟨rfl, rfl⟩ | ⟨rfl, rfl⟩ | ⟨rfl, rfl⟩ <;>
    rfl

/-- The number 39 stands in the table of names as well. -/
theorem namedEntity_some {body s : Str} (h : namedEntity body = some s) :
    ∃ c, s = [c] ∧ Denotes body c := by
  rw [namedEntity] at h
  split_ifs at h with hamp hlt hgt hquot hapos hnbsp
  · exact ⟨'&', (Option.some.inj h).symm, .name (by decide) hamp⟩
  · exact ⟨'<', (Option.some.inj h).symm, .name (by decide) hlt⟩
  · exact ⟨'>', (Option.some.inj h).symm, .name (by decide) hgt⟩
  · exact ⟨'"', (Option.some.inj h).symm, .name (by decide) hquot⟩
  · refine ⟨'\'', (Option.some.inj h).symm, ?_⟩
    rcases hapos with hapos | hnumber
    · exact .name (by decide) hapos
    · rw [eq_of_toAsciiLowercase_eq hnumber rfl]
      exact .decimal ⟨by decide, by decide⟩
  · exact ⟨' ', (Option.some.inj h).symm, .name (by decide) hnbsp⟩

/-! ## Numbers -/

theorem charFromU32_toNat (c : Char) : charFromU32 c.toNat = some c := by
  have hvalid : c.toNat.isValidChar := c.valid
  rw [charFromU32, if_pos hvalid, Char.ofNat_toNat]

theorem charFromU32_some {n : Nat} {c : Char} (h : charFromU32 n = some c) : c.toNat = n := by
  rw [charFromU32] at h
  split_ifs at h with hvalid
  rw [← Option.some.inj h, Char.toNat_ofNat, if_pos hvalid]

theorem toNat_lt_u32 (c : Char) : c.toNat < 4294967296 := by
  exact c.val.toNat_lt

/-- Digits without a sign are read as they stand. -/
theorem u32FromStrRadix_of_writesCode {radix : Nat} {digits : Str} {c : Char}
    (h : WritesCode radix digits c) : u32FromStrRadix radix digits = some c.toNat := by
  have hplus : ¬ ['+'].isPrefixOf digits = true := by
    rw [List.isPrefixOf_iff_prefix]
    intro hbegin
    exact (readDigits_entityChar h.2 '+' (hbegin.subset (by simp))).2 rfl
  rw [u32FromStrRadix, stripPrefix, if_neg hplus, Option.getD_none, if_neg h.1, h.2, Option.filter_some,
    if_pos (by simpa using toNat_lt_u32 c)]

theorem u32FromStrRadix_plus {radix : Nat} {digits : Str} {c : Char}
    (h : WritesCode radix digits c) : u32FromStrRadix radix ('+' :: digits) = some c.toNat := by
  have hstrip : stripPrefix ['+'] ('+' :: digits) = some digits := by
    rfl
  rw [u32FromStrRadix, hstrip, Option.getD_some, if_neg h.1, h.2, Option.filter_some,
    if_pos (by simpa using toNat_lt_u32 c)]

theorem writesCode_of_u32FromStrRadix {radix : Nat} {digits : Str} {c : Char}
    (h : u32FromStrRadix radix digits = some c.toNat) : WritesCode radix digits c ∨
      ∃ unsigned, digits = '+' :: unsigned ∧ WritesCode radix unsigned c := by
  rw [u32FromStrRadix, stripPrefix] at h
  split_ifs at h with hbegin hnil hnil
  · right
    obtain ⟨unsigned, rfl⟩ := List.isPrefixOf_iff_prefix.mp hbegin
    refine ⟨unsigned, rfl, ?_⟩
    simp only [List.singleton_append, List.length_singleton, List.drop_succ_cons, List.drop_zero,
      Option.getD_some] at h hnil
    exact ⟨hnil, (Option.filter_eq_some_iff.mp h).1⟩
  · left
    rw [Option.getD_none] at h hnil
    exact ⟨hnil, (Option.filter_eq_some_iff.mp h).1⟩

theorem stripPrefix_hash (digits : Str) : stripPrefix ['#'] ('#' :: digits) = some digits := by
  rfl

/-- `#x` and `#X` begin a hexadecimal number, any other character a decimal one. -/
theorem numericEntity_hexadecimal {x : Char} (hx : x = 'x' ∨ x = 'X') (digits : Str) :
    numericEntity ('#' :: x :: digits) = (u32FromStrRadix 16 digits).bind charFromU32 := by
  rw [numericEntity, stripPrefix_hash]
  rcases hx with rfl | rfl
  · rfl
  · rfl

theorem numericEntity_decimal {digits : Str} (hx : ∀ t, digits ≠ 'x' :: t)
    (hx' : ∀ t, digits ≠ 'X' :: t) :
    numericEntity ('#' :: digits) = (u32FromStrRadix 10 digits).bind charFromU32 := by
  rw [numericEntity, stripPrefix_hash]
  dsimp only
  split
  · exact absurd rfl (hx _)
  · exact absurd rfl (hx' _)
  · rfl

theorem not_letter_of_writesCode {digits : Str} {c x : Char} (h : WritesCode 10 digits c)
    (hx : toDigit 10 x = none) (t : Str) : digits ≠ x :: t := by
  rintro rfl
  have hread := h.2
  rw [readDigits, hx] at hread
  cases hread

theorem numericEntity_of_signed {body : Str} {c : Char} (h : Signed body c) :
    numericEntity body = some c := by
  cases h with
  | decimal hdigits =>
      rw [numericEntity_decimal (by simp) (by simp), u32FromStrRadix_plus hdigits]
      exact charFromU32_toNat c
  | hexadecimal hx hdigits =>
      rw [numericEntity_hexadecimal hx, u32FromStrRadix_plus hdigits]
      exact charFromU32_toNat c

theorem numericEntity_some {body : Str} {c : Char} (h : numericEntity body = some c) :
    Denotes body c ∨ Signed body c := by
  have hdigits : ∀ {radix : Nat} {digits : Str},
      (u32FromStrRadix radix digits).bind charFromU32 = some c →
        WritesCode radix digits c ∨
          ∃ unsigned, digits = '+' :: unsigned ∧ WritesCode radix unsigned c := by
    intro radix digits hcode
    obtain ⟨n, hread, hchar⟩ := Option.bind_eq_some_iff.mp hcode
    rw [← charFromU32_some hchar] at hread
    exact writesCode_of_u32FromStrRadix hread
  have hhex : ∀ {x : Char} {digits : Str}, x = 'x' ∨ x = 'X' → body = '#' :: x :: digits →
      Denotes body c ∨ Signed body c := by
    rintro x digits hx rfl
    rw [numericEntity_hexadecimal hx] at h
    rcases hdigits h with hcode | ⟨unsigned, rfl, hcode⟩
    · exact Or.inl (.hexadecimal hx hcode)
    · exact Or.inr (.hexadecimal hx hcode)
  by_cases hhash : ['#'].isPrefixOf body = true
  · obtain ⟨digits, rfl⟩ := List.isPrefixOf_iff_prefix.mp hhash
    by_cases hx : ∃ t, digits = 'x' :: t
    · obtain ⟨t, rfl⟩ := hx
      exact hhex (Or.inl rfl) rfl
    · by_cases hx' : ∃ t, digits = 'X' :: t
      · obtain ⟨t, rfl⟩ := hx'
        exact hhex (Or.inr rfl) rfl
      · rw [not_exists] at hx hx'
        rw [List.singleton_append, numericEntity_decimal hx hx'] at h
        rcases hdigits h with hcode | ⟨unsigned, rfl, hcode⟩
        · exact Or.inl (.decimal hcode)
        · exact Or.inr (.decimal hcode)
  · rw [numericEntity, stripPrefix, if_neg hhash] at h
    cases h

/-! ## Entities -/

/-- Of the names only `#39` begins with a number sign. -/
theorem namedEntity_hash (digits : Str) :
    namedEntity ('#' :: digits) = none ∨ namedEntity ('#' :: digits) = some ['\''] ∧
      digits = "39".toList := by
  by_cases hnumber : toAsciiLowercase ('#' :: digits) = "#39".toList
  · right
    have hbody := eq_of_toAsciiLowercase_eq hnumber rfl
    rw [hbody]
    exact ⟨rfl, List.tail_eq_of_cons_eq hbody⟩
  · left
    have hno : ∀ name : Str, name.head? ≠ some '#' →
        toAsciiLowercase ('#' :: digits) ≠ name := by
      rintro name hname rfl
      exact hname rfl
    have hapos : ¬ (toAsciiLowercase ('#' :: digits) = "apos".toList ∨
        toAsciiLowercase ('#' :: digits) = "#39".toList) := by
      rintro (h | h)
      · exact hno _ (by decide) h
      · exact hnumber h
    rw [namedEntity, if_neg (hno "amp".toList (by decide)), if_neg (hno "lt".toList (by decide)),
      if_neg (hno "gt".toList (by decide)), if_neg (hno "quot".toList (by decide)),
      if_neg hapos, if_neg (hno "nbsp".toList (by decide))]

theorem decodeEntity_of_numeric {digits : Str} {c : Char}
    (h : numericEntity ('#' :: digits) = some c) : decodeEntity ('#' :: digits) = [c] := by
  rw [decodeEntity]
  rcases namedEntity_hash digits with hnone | ⟨hsome, rfl⟩
  · rw [hnone]
    dsimp only
    rw [h]
  · rw [hsome]
    have hquote : numericEntity ('#' :: "39".toList) = some '\'' := by
      decide
    rw [hquote] at h
    rw [Option.some.inj h]

/-- **What denotes a character is replaced by it.** -/
theorem decodeEntity_of_denotes {body : Str} {c : Char} (h : Denotes body c) :
    decodeEntity body = [c] := by
  cases h with
  | name hname hbody =>
      rw [decodeEntity, namedEntity_of_name hname hbody]
  | decimal hdigits =>
      apply decodeEntity_of_numeric
      rw [numericEntity_decimal (not_letter_of_writesCode hdigits rfl)
        (not_letter_of_writesCode hdigits rfl), u32FromStrRadix_of_writesCode hdigits]
      exact charFromU32_toNat c
  | hexadecimal hx hdigits =>
      apply decodeEntity_of_numeric
      rw [numericEntity_hexadecimal hx, u32FromStrRadix_of_writesCode hdigits]
      exact charFromU32_toNat c

theorem decodeEntity_of_signed {body : Str} {c : Char} (h : Signed body c) :
    decodeEntity body = [c] := by
  have hnumeric := numericEntity_of_signed h
  cases h with
  | decimal =>
      exact decodeEntity_of_numeric hnumeric
  | hexadecimal =>
      exact decodeEntity_of_numeric hnumeric

/-- Anything else stays as it is. -/
theorem decodeEntity_of_neither {body : Str} (hdenotes : ∀ c, ¬ Denotes body c)
    (hsigned : ∀ c, ¬ Signed body c) : decodeEntity body = '&' :: (body ++ [';']) := by
  have hnamed : namedEntity body = none := by
    rw [Option.eq_none_iff_forall_ne_some]
    intro s hsome
    obtain ⟨c, -, hc⟩ := namedEntity_some hsome
    exact hdenotes c hc
  have hnumeric : numericEntity body = none := by
    rw [Option.eq_none_iff_forall_ne_some]
    intro c hsome
    rcases numericEntity_some hsome with hc | hc
    · exact hdenotes c hc
    · exact hsigned c hc
  rw [decodeEntity, hnamed]
  dsimp only
  rw [hnumeric]

end Smtp
end ChimneyPost
