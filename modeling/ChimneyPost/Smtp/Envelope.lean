import ChimneyPost.Smtp.Parser
import ChimneyPost.Text.Trim
import ChimneyPost.Text.Uppercase

/-!
# The grammar of the envelope

`Envelope` is the form of a `MAIL FROM` or `RCPT TO` line, for keywords that are read in a
given way.  The parsers look for the keywords in the uppercase copy of the line and for the
colon in the line itself; both are the same place (`envelopeAddress_iff`).

In the uppercase copy a dotless i is an `I`, so `MAıL` passes for `MAIL`; the other three
keywords are read up to ASCII case (`spells_iff`).
-/

namespace ChimneyPost
namespace Smtp

/-! ## The grammar -/

/-- What follows the colon, trimmed: a path in brackets, or a word and more text. -/
inductive Address : Str → Str → Prop
  | path {a after : Str} (ha : '>' ∉ a) : Address ('<' :: (a ++ '>' :: after)) a
  | word {a after : Str} (ha : IsWord a) (hopen : a.head? ≠ some '<')
      (hafter : after = [] ∨ ∃ c s, after = c :: s ∧ isWhitespace c = true) : Address (a ++ after) a

/-- Two keywords, whitespace after either, a colon and an address. -/
def Envelope (keyword : Str → Str → Prop) (verb preposition line a : Str) : Prop :=
  ∃ v gap p gap' rest, line = v ++ (gap ++ (p ++ (gap' ++ ':' :: rest))) ∧
    keyword v verb ∧ keyword p preposition ∧ (∀ c ∈ gap, isWhitespace c = true) ∧
      (∀ c ∈ gap', isWhitespace c = true) ∧ Address (trim rest) a

/-- Equal up to ASCII case. -/
def SameKeyword (s word : Str) : Prop :=
  toAsciiLowercase s = toAsciiLowercase word

/-- An acceptable `MAIL FROM` line. -/
def MailFrom (validateEmail : Str → Bool) (line a : Str) : Prop :=
  Envelope SameKeyword "MAIL".toList "FROM".toList line a ∧ (a = [] ∨ validateEmail a = true)

/-- An acceptable `RCPT TO` line. -/
def RcptTo (validateEmail : Str → Bool) (line a : Str) : Prop :=
  Envelope SameKeyword "RCPT".toList "TO".toList line a ∧ a ≠ [] ∧ validateEmail a = true

/-! ## Cutting -/

theorem stripPrefix_eq_some_iff {p s t : Str} : stripPrefix p s = some t ↔ s = p ++ t := by
  rw [stripPrefix]
  constructor
  · intro h
    split_ifs at h with hbegins
    obtain ⟨u, rfl⟩ := List.isPrefixOf_iff_prefix.mp hbegins
    rw [List.drop_left] at h
    rw [Option.some.inj h]
  · rintro rfl
    rw [if_pos (List.isPrefixOf_iff_prefix.mpr (List.prefix_append p t)), List.drop_left]

theorem beforeFirst_eq_some_iff {c : Char} {s a : Str} :
    beforeFirst c s = some a ↔ ∃ after, s = a ++ c :: after ∧ c ∉ a := by
  rw [beforeFirst]
  constructor
  · intro h
    split_ifs at h with hmem
    obtain ⟨front, after, rfl, hfront⟩ := List.eq_append_cons_of_mem hmem
    rw [takeWhile_ne_append hfront] at h
    obtain rfl := Option.some.inj h
    exact ⟨after, rfl, hfront⟩
  · rintro ⟨after, rfl, ha⟩
    rw [if_pos (by simp), takeWhile_ne_append ha]

/-- The first word of a text that begins with one. -/
theorem head?_splitWhitespace {c : Char} (hc : isWhitespace c = false) (s a : Str) :
    (splitWhitespace (c :: s)).head? = some a ↔ ∃ after, c :: s = a ++ after ∧ IsWord a ∧
      (after = [] ∨ ∃ d t, after = d :: t ∧ isWhitespace d = true) := by
  have hword : ∀ {a after : Str}, IsWord a →
      (after = [] ∨ ∃ d t, after = d :: t ∧ isWhitespace d = true) →
        (splitWhitespace (a ++ after)).head? = some a := by
    rintro a after ha (rfl | ⟨d, t, rfl, hd⟩)
    · rw [List.append_nil, splitWhitespace_word ha]
      rfl
    · rw [splitWhitespace_word_cons ha hd]
      rfl
  constructor
  · intro h
    have hfront : IsWord ((c :: s).takeWhile (fun x => !isWhitespace x)) := by
      constructor
      · rw [List.takeWhile_cons_of_pos (by simp [hc])]
        exact List.cons_ne_nil _ _
      · intro x hx
        simpa using List.mem_takeWhile_imp hx
    have hrear : (c :: s).dropWhile (fun x => !isWhitespace x) = [] ∨ ∃ d t,
        (c :: s).dropWhile (fun x => !isWhitespace x) = d :: t ∧ isWhitespace d = true := by
      cases hdrop : (c :: s).dropWhile (fun x => !isWhitespace x) with
      | nil =>
          exact Or.inl rfl
      | cons d t =>
          have hnot := List.head?_dropWhile_not (fun x => !isWhitespace x) (c :: s)
          rw [hdrop] at hnot
          exact Or.inr ⟨d, t, rfl, by simpa using hnot⟩
    have hsplit := hword hfront hrear
    rw [List.takeWhile_append_dropWhile, h] at hsplit
    rw [Option.some.inj hsplit]
    exact ⟨_, List.takeWhile_append_dropWhile.symm, hfront, hrear⟩
  · rintro ⟨after, heq, ha, hafter⟩
    rw [heq]
    exact hword ha hafter

theorem address_iff {rest a : Str} :
    (match stripPrefix ['<'] (trim rest) with
      | some path => beforeFirst '>' path
      | none => (splitWhitespace (trim rest)).head?) = some a ↔ Address (trim rest) a := by
  cases htrim : trim rest with
  | nil =>
      constructor
      · intro h
        cases h
      · intro h
        generalize hnil : ([] : Str) = t at h
        cases h with
        | path => cases hnil
        | word ha _ _ => exact absurd (List.append_eq_nil_iff.mp hnil.symm).1 ha.1
  | cons c s =>
      have hc : isWhitespace c = false := head_trim (s := rest) (by rw [htrim]; rfl)
      by_cases hopen : c = '<'
      · subst hopen
        have hstrip : stripPrefix ['<'] ('<' :: s) = some s :=
          stripPrefix_eq_some_iff.mpr rfl
        rw [hstrip]
        dsimp only
        rw [beforeFirst_eq_some_iff]
        constructor
        · rintro ⟨after, rfl, ha⟩
          exact .path ha
        · intro h
          generalize htext : '<' :: s = t at h
          cases h with
          | path ha =>
              exact ⟨_, List.tail_eq_of_cons_eq htext, ha⟩
          | @word a after ha hopen' _ =>
              obtain ⟨d, a, rfl⟩ := List.exists_cons_of_ne_nil ha.1
              obtain ⟨rfl, -⟩ := List.cons.inj htext
              exact absurd rfl hopen'
      · have hstrip : stripPrefix ['<'] (c :: s) = none := by
          rw [Option.eq_none_iff_forall_ne_some]
          intro t ht
          have heq := stripPrefix_eq_some_iff.mp ht
          exact hopen (List.head_eq_of_cons_eq heq)
        rw [hstrip]
        dsimp only
        rw [head?_splitWhitespace hc]
        constructor
        · rintro ⟨after, heq, ha, hafter⟩
          rw [heq]
          refine .word ha ?_ hafter
          obtain ⟨d, a, rfl⟩ := List.exists_cons_of_ne_nil ha.1
          obtain ⟨rfl, -⟩ := List.cons.inj heq
          simpa using hopen
        · intro h
          generalize htext : c :: s = t at h
          cases h with
          | path _ =>
              exact absurd (List.head_eq_of_cons_eq htext) hopen
          | word ha _ hafter =>
              exact ⟨_, rfl, ha, hafter⟩

theorem extractAddressAfterColon_iff {line a : Str} : extractAddressAfterColon line = some a ↔
    ∃ rest, afterFirst ':' line = some rest ∧ Address (trim rest) a := by
  rw [extractAddressAfterColon]
  cases afterFirst ':' line with
  | none =>
      simp
  | some rest =>
      refine address_iff.trans ?_
      simp

/-! ## The uppercase copy and the line -/

/-- What a keyword has to be for both views of a line to meet behind it. -/
structure Keyword (word : Str) : Prop where
  ne_nil : word ≠ []
  unligated : unligated word = true
  plain : word.all (fun x => x.toNat < 128 && !isWhitespace x && x ≠ ':') = true

theorem Keyword.of_mem {word : Str} (h : Keyword word) {x : Char} (hx : x ∈ word) :
    x.toNat < 128 ∧ isWhitespace x = false ∧ x ≠ ':' := by
  have hall := List.all_eq_true.mp h.plain x hx
  simp only [Bool.and_eq_true, decide_eq_true_eq, Bool.not_eq_true'] at hall
  exact ⟨hall.1.1, hall.1.2, hall.2⟩

theorem Spells.exists_of_mem {s word : Str} (h : Spells s word) {c : Char} (hc : c ∈ s) :
    ∃ x ∈ word, charToUppercase c = [x] := by
  induction h with
  | nil =>
      cases hc
  | @cons d x s word hdx _ ih =>
      rcases List.mem_cons.mp hc with rfl | hc
      · exact ⟨x, List.mem_cons_self, hdx⟩
      · obtain ⟨y, hy, hcy⟩ := ih hc
        exact ⟨y, List.mem_cons_of_mem _ hy, hcy⟩

theorem not_isWhitespace_of_spells {s word : Str} (h : Spells s word) (hword : Keyword word)
    {c : Char} (hc : c ∈ s) : isWhitespace c = false := by
  obtain ⟨x, hx, hupper⟩ := Spells.exists_of_mem h hc
  by_contra hspace
  rw [Bool.not_eq_false] at hspace
  rw [charToUppercase_of_isWhitespace hspace] at hupper
  rw [List.singleton_inj.mp hupper, (hword.of_mem hx).2.1] at hspace
  cases hspace

theorem colon_not_mem_of_spells {s word : Str} (h : Spells s word) (hword : Keyword word) :
    ':' ∉ s := by
  intro hmem
  obtain ⟨x, hx, hupper⟩ := Spells.exists_of_mem h hmem
  have hcolon : charToUppercase ':' = [':'] := by decide
  rw [hcolon] at hupper
  exact (hword.of_mem hx).2.2 (List.singleton_inj.mp hupper).symm

theorem colon_not_mem_of_blank {gap : Str} (hgap : ∀ c ∈ gap, isWhitespace c = true) :
    ':' ∉ gap := by
  intro hmem
  exact absurd (hgap ':' hmem) (by decide)

theorem trimStart_spells_append {s word : Str} (h : Spells s word) (hword : Keyword word)
    (t : Str) : trimStart (s ++ t) = s ++ t := by
  cases h with
  | nil =>
      exact absurd rfl hword.ne_nil
  | @cons c x s word hcx hrest =>
      exact trimStart_of_head
        (not_isWhitespace_of_spells (.cons hcx hrest) hword List.mem_cons_self) _

/-- A colon comes from a colon. -/
theorem exists_of_toUppercase_colon {s t : Str} (h : toUppercase s = ':' :: t) :
    ∃ rest, s = ':' :: rest := by
  cases s with
  | nil =>
      cases h
  | cons c s =>
      rw [toUppercase_cons] at h
      obtain ⟨d, ds, hform⟩ := List.exists_cons_of_ne_nil (charToUppercase_ne_nil c)
      rw [hform, List.cons_append] at h
      obtain ⟨rfl, -⟩ := List.cons.inj h
      cases ds with
      | nil =>
          rcases charToUppercase_eq_singleton hform (by decide) (by decide) with
            ⟨hc, hupper⟩ | ⟨-, hbad⟩ | ⟨-, hbad⟩
          · have hascii : ∀ n < 128, (Char.ofNat n).toUpper = ':' → Char.ofNat n = ':' := by
              decide +kernel
            have hcolon := hascii c.toNat hc
            rw [Char.ofNat_toNat] at hcolon
            exact ⟨s, by rw [hcolon hupper]⟩
          · cases hbad
          · cases hbad
      | cons e ds =>
          have hno : ligatures.all (fun e => e.1 ≠ ':') = true := by decide
          have hmem := List.all_eq_true.mp hno _ (mem_ligatures hform)
          simp at hmem

/-- The first colon of a line is the one behind its keywords. -/
theorem extractAddressAfterColon_spells {verb preposition v gap p gap' rest a : Str}
    (hverb : Keyword verb) (hprep : Keyword preposition) (hv : Spells v verb)
    (hp : Spells p preposition) (hblank : ∀ c ∈ gap, isWhitespace c = true)
    (hblank' : ∀ c ∈ gap', isWhitespace c = true) :
    extractAddressAfterColon (v ++ (gap ++ (p ++ (gap' ++ ':' :: rest)))) = some a ↔
      Address (trim rest) a := by
  have hfront : ':' ∉ v ++ (gap ++ (p ++ gap')) := by
    simp only [List.mem_append, not_or]
    exact ⟨colon_not_mem_of_spells hv hverb, colon_not_mem_of_blank hblank,
      colon_not_mem_of_spells hp hprep, colon_not_mem_of_blank hblank'⟩
  have hline : v ++ (gap ++ (p ++ (gap' ++ ':' :: rest))) =
      (v ++ (gap ++ (p ++ gap'))) ++ ':' :: rest := by
    simp only [List.append_assoc]
  rw [extractAddressAfterColon_iff, hline, afterFirst_append hfront]
  simp

/-- What follows a keyword in the uppercase copy is the copy of what follows it. -/
theorem stripPrefix_toUppercase {word s : Str} (h : Spells s word) (rest : Str) :
    stripPrefix word (toUppercase (s ++ rest)) = some (toUppercase rest) := by
  rw [stripPrefix_eq_some_iff, toUppercase_append, toUppercase_of_spells h]

/-- **The keywords in the uppercase copy and the colon in the line stand side by side.** -/
theorem envelopeAddress_iff {verb preposition line a : Str} (hverb : Keyword verb)
    (hprep : Keyword preposition) : envelopeAddress verb preposition line = some a ↔
      Envelope Spells verb preposition line a := by
  constructor
  · intro h
    rw [envelopeAddress] at h
    split at h
    · cases h
    · next rest hrest =>
        split at h
        · cases h
        · next rest' hrest' =>
            split_ifs at h with hcolon
            rw [stripPrefix_eq_some_iff] at hrest hrest'
            rcases toUppercase_eq_append hverb.unligated hrest with
              ⟨v, s, rfl, hv, rfl⟩ | ⟨y, tail, rfl, hbig, hspace⟩
            · rw [trimStart_toUppercase] at hrest'
              rcases toUppercase_eq_append hprep.unligated hrest' with
                ⟨p, t, hp', hp, rfl⟩ | ⟨y, tail, rfl, hbig, hspace⟩
              · rw [trimStart_toUppercase] at hcolon
                obtain ⟨u, hu⟩ := List.isPrefixOf_iff_prefix.mp hcolon
                obtain ⟨rest, hrest⟩ := exists_of_toUppercase_colon hu.symm
                obtain ⟨gap, hgap, hblank⟩ := exists_blank_trimStart s
                obtain ⟨gap', hgap', hblank'⟩ := exists_blank_trimStart t
                rw [hp', hgap', hrest] at hgap
                rw [hgap, extractAddressAfterColon_spells hverb hprep hv hp hblank hblank'] at h
                exact ⟨v, gap, p, gap', rest, by rw [← hgap], hv, hp, hblank, hblank', h⟩
              · -- a ligature goes on where the colon should be
                rw [trimStart_of_head hspace] at hcolon
                obtain ⟨u, hu⟩ := List.isPrefixOf_iff_prefix.mp hcolon
                obtain ⟨rfl, -⟩ := List.cons.inj hu
                exact absurd hbig (by decide)
            · -- a ligature goes on where the preposition should be
              obtain ⟨x, word, rfl⟩ := List.exists_cons_of_ne_nil hprep.ne_nil
              rw [trimStart_of_head hspace] at hrest'
              obtain ⟨rfl, -⟩ := List.cons.inj hrest'
              have hsmall := (hprep.of_mem List.mem_cons_self).1
              omega
  · rintro ⟨v, gap, p, gap', rest, rfl, hv, hp, hblank, hblank', haddress⟩
    have hextract := (extractAddressAfterColon_spells hverb hprep hv hp hblank hblank').mpr haddress
    have hstrip' : stripPrefix preposition
        (trimStart (toUppercase (gap ++ (p ++ (gap' ++ ':' :: rest))))) =
          some (toUppercase (gap' ++ ':' :: rest)) := by
      rw [trimStart_toUppercase, trimStart_blank_append hblank, trimStart_spells_append hp hprep,
        stripPrefix_toUppercase hp]
    have hcolon : [':'].isPrefixOf (trimStart (toUppercase (gap' ++ ':' :: rest))) = true := by
      rw [trimStart_toUppercase, trimStart_blank_append hblank', trimStart_of_head (by decide),
        toUppercase_cons]
      rfl
    rw [envelopeAddress, stripPrefix_toUppercase hv]
    dsimp only
    rw [hstrip']
    dsimp only
    rw [if_pos hcolon, hextract]

/-! ## The four keywords -/

theorem keyword_mail : Keyword "MAIL".toList where
  ne_nil := by decide
  unligated := by decide +kernel
  plain := by decide +kernel

theorem keyword_from : Keyword "FROM".toList where
  ne_nil := by decide
  unligated := by decide +kernel
  plain := by decide +kernel

theorem keyword_rcpt : Keyword "RCPT".toList where
  ne_nil := by decide
  unligated := by decide +kernel
  plain := by decide +kernel

theorem keyword_to : Keyword "TO".toList where
  ne_nil := by decide
  unligated := by decide +kernel
  plain := by decide +kernel

/-- A capital letter that no letter outside ASCII has for its uppercase form. -/
def faithful (x : Char) : Bool :=
  65 ≤ x.toNat && x.toNat ≤ 90 && x ≠ 'I' && x ≠ 'S'

theorem charToUppercase_faithful {c x : Char} (hx : faithful x = true) :
    charToUppercase c = [x] ↔ c.toLower = x.toLower := by
  simp only [faithful, Bool.and_eq_true, decide_eq_true_eq] at hx
  exact charToUppercase_eq_iff hx.1.1.1 hx.1.1.2 hx.1.2 hx.2

theorem sameKeyword_cons {c x : Char} {s word : Str} : SameKeyword (c :: s) (x :: word) ↔
    c.toLower = x.toLower ∧ SameKeyword s word := by
  rw [SameKeyword, SameKeyword, toAsciiLowercase, toAsciiLowercase, List.map_cons, List.map_cons,
    List.cons.injEq]
  rfl

theorem spells_cons {c x : Char} {s word : Str} : Spells (c :: s) (x :: word) ↔
    charToUppercase c = [x] ∧ Spells s word := by
  exact List.forall₂_cons

theorem not_spells_nil {x : Char} {word : Str} : ¬ Spells [] (x :: word) := by
  intro h
  cases h

theorem not_sameKeyword_nil {x : Char} {word : Str} : ¬ SameKeyword [] (x :: word) := by
  intro h
  cases h

/-- Faithful letters are read up to ASCII case. -/
theorem spells_iff {word : Str} (hword : word.all faithful = true) {s : Str} :
    Spells s word ↔ SameKeyword s word := by
  induction word generalizing s with
  | nil =>
      constructor
      · intro h
        cases h
        rfl
      · intro h
        rw [List.map_eq_nil_iff.mp h]
        exact .nil
  | cons x word ih =>
      rw [List.all_cons, Bool.and_eq_true] at hword
      cases s with
      | nil =>
          exact iff_of_false not_spells_nil not_sameKeyword_nil
      | cons c s =>
          rw [spells_cons, sameKeyword_cons, charToUppercase_faithful hword.1, ih hword.2]

theorem charToUppercase_eq_i_iff {c : Char} :
    charToUppercase c = ['I'] ↔ c.toLower = 'i' ∨ c = 'ı' := by
  constructor
  · intro h
    rcases charToUppercase_eq_singleton h (by decide) (by decide) with
      ⟨hc, hupper⟩ | ⟨rfl, -⟩ | ⟨-, hbad⟩
    · left
      rw [← (ascii_casing_of_lt hc).1, hupper]
      rfl
    · exact Or.inr rfl
    · cases hbad
  · rintro (h | rfl)
    · rcases toLower_cases c with hsame | ⟨hc, -⟩
      · rw [← hsame, h]
        decide
      · have hascii := lt_of_isUpper hc
        rw [charToUppercase, if_pos hascii, ← (ascii_casing_of_lt hascii).2.1, h]
        rfl
    · decide +kernel

/-- Where a word has its `I`, a line may have a dotless one. -/
theorem spells_dotless_iff (front rear : Str) (hfront : front.all faithful = true)
    (hrear : rear.all faithful = true) {s : Str} : Spells s (front ++ 'I' :: rear) ↔
      SameKeyword s (front ++ 'I' :: rear) ∨
        s[front.length]? = some 'ı' ∧ SameKeyword (s.set front.length 'I') (front ++ 'I' :: rear) := by
  induction front generalizing s with
  | nil =>
      cases s with
      | nil =>
          refine iff_of_false not_spells_nil ?_
          rintro (h | ⟨-, h⟩)
          · exact not_sameKeyword_nil h
          · exact not_sameKeyword_nil h
      | cons i s =>
          simp only [List.nil_append, List.length_nil, List.set_cons_zero, List.getElem?_cons_zero,
            Option.some.injEq, spells_cons, sameKeyword_cons, charToUppercase_eq_i_iff,
            spells_iff hrear, or_and_right, true_and]
          rfl
  | cons x front ih =>
      rw [List.all_cons, Bool.and_eq_true] at hfront
      cases s with
      | nil =>
          refine iff_of_false not_spells_nil ?_
          rintro (h | ⟨-, h⟩)
          · exact not_sameKeyword_nil h
          · exact not_sameKeyword_nil h
      | cons c s =>
          rw [List.cons_append, List.length_cons, List.set_cons_succ, List.getElem?_cons_succ,
            spells_cons, sameKeyword_cons, sameKeyword_cons, charToUppercase_faithful hfront.1,
            ih hfront.2]
          tauto

/-- Up to ASCII case a dotless i is no i. -/
theorem not_dotless_of_sameKeyword {s : Str} (front rear : Str)
    (h : SameKeyword s (front ++ 'I' :: rear)) : s[front.length]? ≠ some 'ı' := by
  intro hdotless
  have hlower := congrArg (fun t : Str => t[front.length]?) h
  simp only [toAsciiLowercase, List.getElem?_map, hdotless, List.getElem?_append_right le_rfl,
    Nat.sub_self, List.getElem?_cons_zero, Option.map_some] at hlower
  exact absurd hlower (by decide)

theorem spells_mail_iff {v : Str} : Spells v "MAIL".toList ↔ SameKeyword v "MAIL".toList ∨
    v[2]? = some 'ı' ∧ SameKeyword (v.set 2 'I') "MAIL".toList := by
  exact spells_dotless_iff ['M', 'A'] ['L'] (by decide) (by decide)

theorem length_of_spells_mail {v : Str} (h : Spells v "MAIL".toList) : 2 < v.length := by
  have hlength : v.length = 4 := List.Forall₂.length_eq h
  omega

/-! ## The parsers -/

theorem parseMailFrom_eq_some_iff {validateEmail : Str → Bool} {line a : Str} :
    parseMailFrom validateEmail line = some a ↔
      Envelope Spells "MAIL".toList "FROM".toList line a ∧ (a = [] ∨ validateEmail a = true) := by
  rw [parseMailFrom, Option.filter_eq_some_iff, envelopeAddress_iff keyword_mail keyword_from]
  simp

/-- **The recipient parser accepts its grammar**, its letters being faithful. -/
theorem parseRcptTo_iff {validateEmail : Str → Bool} {line a : Str} :
    parseRcptTo validateEmail line = some a ↔ RcptTo validateEmail line a := by
  have hrcpt : ("RCPT".toList).all faithful = true := by decide
  have hto : ("TO".toList).all faithful = true := by decide
  have henvelope : Envelope Spells "RCPT".toList "TO".toList line a ↔
      Envelope SameKeyword "RCPT".toList "TO".toList line a := by
    simp only [Envelope, spells_iff hrcpt, spells_iff hto]
  rw [parseRcptTo, Option.filter_eq_some_iff, envelopeAddress_iff keyword_rcpt keyword_to,
    henvelope, RcptTo]
  simp

theorem not_dotless_of_envelope {cmd a : Str}
    (h : Envelope SameKeyword "MAIL".toList "FROM".toList cmd a) : cmd[2]? ≠ some 'ı' := by
  obtain ⟨v, gap, p, gap', rest, rfl, hv, -⟩ := h
  rw [List.getElem?_append_left (length_of_spells_mail (spells_mail_iff.mpr (Or.inl hv)))]
  exact not_dotless_of_sameKeyword ['M', 'A'] ['L'] hv

/-- A line without a dotless i is read as the grammar has it. -/
theorem envelope_spells_iff {cmd a : Str} (hcmd : cmd[2]? ≠ some 'ı') :
    Envelope Spells "MAIL".toList "FROM".toList cmd a ↔
      Envelope SameKeyword "MAIL".toList "FROM".toList cmd a := by
  have hfrom : ("FROM".toList).all faithful = true := by decide
  constructor
  · rintro ⟨v, gap, p, gap', rest, rfl, hv, hp, htail⟩
    rw [List.getElem?_append_left (length_of_spells_mail hv)] at hcmd
    rcases spells_mail_iff.mp hv with hsame | ⟨hdotless, -⟩
    · exact ⟨v, gap, p, gap', rest, rfl, hsame, (spells_iff hfrom).mp hp, htail⟩
    · exact absurd hdotless hcmd
  · rintro ⟨v, gap, p, gap', rest, rfl, hv, hp, htail⟩
    exact ⟨v, gap, p, gap', rest, rfl, spells_mail_iff.mpr (Or.inl hv),
      (spells_iff hfrom).mpr hp, htail⟩

/-- A dotless i is read as an `I`. -/
theorem envelope_spells_dotless_iff {cmd a : Str} (hcmd : cmd[2]? = some 'ı') :
    Envelope Spells "MAIL".toList "FROM".toList cmd a ↔
      Envelope SameKeyword "MAIL".toList "FROM".toList (cmd.set 2 'I') a := by
  have hfrom : ("FROM".toList).all faithful = true := by decide
  constructor
  · rintro ⟨v, gap, p, gap', rest, rfl, hv, hp, htail⟩
    have hlength := length_of_spells_mail hv
    rw [List.getElem?_append_left hlength] at hcmd
    refine ⟨v.set 2 'I', gap, p, gap', rest, List.set_append_left 2 'I' hlength, ?_,
      (spells_iff hfrom).mp hp, htail⟩
    rcases spells_mail_iff.mp hv with hsame | ⟨-, hdotless⟩
    · exact absurd hcmd (not_dotless_of_sameKeyword ['M', 'A'] ['L'] hsame)
    · exact hdotless
  · rintro ⟨v, gap, p, gap', rest, hset, hv, hp, htail⟩
    have hlength := length_of_spells_mail (spells_mail_iff.mpr (Or.inl hv))
    obtain ⟨hlt, hget⟩ := List.getElem?_eq_some_iff.mp hcmd
    have hcapital : v[2]? = some 'I' := by
      rw [← List.getElem?_append_left hlength, ← hset, List.getElem?_set_self hlt]
    obtain ⟨_, hget'⟩ := List.getElem?_eq_some_iff.mp hcapital
    have hline : cmd = v.set 2 'ı' ++ (gap ++ (p ++ (gap' ++ ':' :: rest))) := by
      rw [← List.set_append_left 2 'ı' hlength, ← hset, List.set_set, ← hget, List.set_getElem_self]
    refine ⟨v.set 2 'ı', gap, p, gap', rest, hline, ?_, (spells_iff hfrom).mpr hp, htail⟩
    rw [spells_mail_iff]
    refine Or.inr ⟨List.getElem?_set_self hlength, ?_⟩
    rw [List.set_set, ← hget', List.set_getElem_self]
    exact hv

/-! ## The address in the line -/

theorem infix_of_address {text a : Str} (h : Address text a) : a <:+: text := by
  cases h with
  | @path a after ha =>
      exact ⟨['<'], '>' :: after, by simp⟩
  | @word a after ha hopen hafter =>
      exact ⟨[], after, rfl⟩

theorem infix_of_envelope {keyword : Str → Str → Prop} {verb preposition line a : Str}
    (h : Envelope keyword verb preposition line a) : a <:+: line := by
  obtain ⟨v, gap, p, gap', rest, rfl, -, -, -, -, haddress⟩ := h
  have hrest : rest <:+: v ++ (gap ++ (p ++ (gap' ++ ':' :: rest))) :=
    ⟨v ++ gap ++ p ++ gap' ++ [':'], [], by simp⟩
  exact (infix_of_address haddress).trans ((trim_isSubstring rest).trans hrest)

/-! ## Exactness -/

/-- The parsers accept their grammars, and what they return stands in the line. -/
structure Exact (validateEmail : Str → Bool) (cmd : Str) : Prop where
  mail : ∀ a, parseMailFrom validateEmail cmd = some a ↔ MailFrom validateEmail cmd a
  rcpt : ∀ a, parseRcptTo validateEmail cmd = some a ↔ RcptTo validateEmail cmd a
  substring : ∀ a, parseMailFrom validateEmail cmd = some a ∨
    parseRcptTo validateEmail cmd = some a → a <:+: cmd

/-- **The parsers are exact** but for a dotless i in `MAIL`. -/
theorem exact_iff_not_dotless (validateEmail : Str → Bool) (cmd : Str) :
    Exact validateEmail cmd ↔
      (cmd[2]? = some 'ı' → ∀ a, ¬ MailFrom validateEmail (cmd.set 2 'I') a) := by
  constructor
  · intro h hcmd a ha
    have hparse : parseMailFrom validateEmail cmd = some a := by
      rw [parseMailFrom_eq_some_iff, envelope_spells_dotless_iff hcmd]
      exact ha
    exact not_dotless_of_envelope ((h.mail a).mp hparse).1 hcmd
  · intro h
    constructor
    · intro a
      rw [parseMailFrom_eq_some_iff]
      by_cases hcmd : cmd[2]? = some 'ı'
      · rw [envelope_spells_dotless_iff hcmd]
        constructor
        · intro ha
          exact absurd ha (h hcmd a)
        · intro ha
          exact absurd hcmd (not_dotless_of_envelope ha.1)
      · rw [envelope_spells_iff hcmd]
        rfl
    · intro a
      exact parseRcptTo_iff
    · rintro a (ha | ha)
      · exact infix_of_envelope (parseMailFrom_eq_some_iff.mp ha).1
      · exact infix_of_envelope (parseRcptTo_iff.mp ha).1

/-- `MAıL` is no `MAIL` up to ASCII case, and is accepted. -/
theorem dotless_mail_accepted : ¬ Exact (fun addr => addr.contains '@')
    "MAıL FROM:<user@example.com>".toList := by
  intro h
  have hparse : parseMailFrom (fun addr => addr.contains '@')
      "MAıL FROM:<user@example.com>".toList = some "user@example.com".toList := by
    decide +kernel
  exact not_dotless_of_envelope ((h.mail _).mp hparse).1 rfl

end Smtp
end ChimneyPost
