import ChimneyPost.Smtp.Visible

/-!
# Escaped text

`escape` writes a text as HTML writes it.  No element and no tag begins in what it
writes, and each of its entities is decoded to the character it was written for
(`decodeEntities_escape`).  So the reduction of escaped text is the text itself, tidied.
-/

namespace ChimneyPost
namespace Smtp

open Search (avoids_of_not_mem)

/-- What is written for a character. -/
def escapeChar (c : Char) : Str :=
  if c = '&' then "&amp;".toList
  else if c = '<' then "&lt;".toList
  else if c = '>' then "&gt;".toList
  else if c = '"' then "&quot;".toList
  else if c = '\'' then "&#39;".toList
  else [c]

def escape (text : Str) : Str :=
  text.flatMap escapeChar

/-- A character is written as it is, or as a short entity that denotes it. -/
theorem escapeChar_cases (c : Char) : (escapeChar c = [c] ∧ c ≠ '&' ∧ c ≠ '<') ∨
    ∃ body, escapeChar c = '&' :: (body ++ [';']) ∧ Denotes body c ∧ byteLen body ≤ 9 := by
  rw [escapeChar]
  split_ifs with hamp hlt hgt hquot hapos
  · subst hamp
    exact Or.inr ⟨"amp".toList, rfl, .name (by decide) rfl, by decide⟩
  · subst hlt
    exact Or.inr ⟨"lt".toList, rfl, .name (by decide) rfl, by decide⟩
  · subst hgt
    exact Or.inr ⟨"gt".toList, rfl, .name (by decide) rfl, by decide⟩
  · subst hquot
    exact Or.inr ⟨"quot".toList, rfl, .name (by decide) rfl, by decide⟩
  · subst hapos
    exact Or.inr ⟨"#39".toList, rfl, .decimal ⟨by decide, by decide⟩, by decide⟩
  · exact Or.inl ⟨rfl, hamp, hlt⟩

theorem escape_cons (c : Char) (text : Str) : escape (c :: text) = escapeChar c ++ escape text := by
  rfl

/-- What is decoded is not looked at again. -/
theorem decodeEntities_escapeChar (c : Char) (rest : Str) :
    decodeEntities (escapeChar c ++ rest) = c :: decodeEntities rest := by
  rcases escapeChar_cases c with ⟨hsame, hamp, -⟩ | ⟨body, hwritten, hdenotes, hclose⟩
  · rw [hsame, List.singleton_append, decodeEntities_cons hamp]
  · have hsemicolon : ';' ∉ body := fun hmem => (hdenotes.entityChar ';' hmem).1.2 rfl
    rw [hwritten, List.cons_append, List.append_assoc, List.singleton_append,
      decodeEntities_close hsemicolon hclose, decodeEntity_of_denotes hdenotes,
      List.singleton_append]

theorem decodeEntities_escape (text : Str) : decodeEntities (escape text) = text := by
  induction text with
  | nil =>
      exact decodeEntities_nil
  | cons c text ih =>
      rw [escape_cons, decodeEntities_escapeChar, ih]

/-- No tag begins in escaped text. -/
theorem not_mem_escape (text : Str) : '<' ∉ escape text := by
  induction text with
  | nil =>
      exact List.not_mem_nil
  | cons c text ih =>
      have hchar : '<' ∉ escapeChar c := by
        rw [escapeChar]
        split_ifs with hamp hlt
        · decide
        · decide
        · decide
        · decide
        · decide
        · rw [List.mem_singleton]
          exact Ne.symm hlt
      rw [escape_cons, List.mem_append, not_or]
      exact ⟨hchar, ih⟩

/-! ## Text without tags -/

theorem removeElement_of_not_mem {text : Str} (h : '<' ∉ text) (name : Str) :
    removeElement text name = text := by
  have havoids : '<' ∉ toAsciiLowercase text := mt (mem_toAsciiLowercase rfl rfl).mp h
  have hpass : removeElement (text ++ []) name = text ++ removeElement [] name :=
    removeElement_append (avoids_of_not_mem havoids)
  rw [removeElement_nil, List.append_nil] at hpass
  exact hpass

theorem stripElements_of_not_mem {text : Str} (h : '<' ∉ text) (names : List Str) :
    stripElements text names = text := by
  induction names with
  | nil =>
      rfl
  | cons name names ih =>
      rw [stripElements, List.foldl_cons, removeElement_of_not_mem h]
      exact ih

theorem stripTags_of_not_mem {text : Str} (h : '<' ∉ text) : stripTags none text = text := by
  have htext : stripTags none (text ++ []) = text ++ stripTags none [] := stripTags_text h
  rw [List.append_nil, stripTags, List.append_nil] at htext
  exact htext

/-- Text without tags is reduced to what its entities denote. -/
theorem htmlToText_of_not_mem {text : Str} (h : '<' ∉ text) :
    htmlToText text = tidy (decodeEntities text) := by
  rw [htmlToText, stripElements_of_not_mem h, stripTags_of_not_mem h]

/-- **Escaped text survives the reduction.** -/
theorem htmlToText_escape (text : Str) : htmlToText (escape text) = tidy text := by
  rw [htmlToText_of_not_mem (not_mem_escape text), decodeEntities_escape]

end Smtp
end ChimneyPost
