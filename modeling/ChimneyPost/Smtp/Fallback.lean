import ChimneyPost.Smtp.Headers

/-!
# Two readings of a plain message

`mime::parse` reads a message through `mailparse`, and `extract_subject_and_body` is what
remains when that fails.  On a plain message both should read the same subject and body.
They do not: of several subjects one takes the first and the other the last, a folded line of
blanks ends the headers for one of them only, and they differ in the spaces of a fold.
-/

namespace ChimneyPost
namespace Smtp

/-! ## What `mailparse` reads -/

/-- How `mailparse` treats blanks where its documentation does not say so. -/
structure Unfolding where
  /-- blanks before the colon are no part of the name -/
  trimsNames : Bool
  /-- blanks before the end of a folded line are no part of the fold -/
  keepsBlanks : Bool

namespace Unfolding

variable (u : Unfolding)

/-- Whether `get_first_value("Subject")` stops at the header. -/
def isSubject (h : Header) : Bool :=
  h.isSubject && (u.trimsNames || h.gap = [])

def kept (line : Str) : Str :=
  if u.keepsBlanks then line else trimEnd line

/-- The value of a header, with a space for each fold, trimmed. -/
def value (h : Header) : Str :=
  trim (u.kept h.value.text ++
    (h.folds.map HeaderLine.text).flatMap (fun line => ' ' :: trimStart (u.kept line)))

/-- A plain message as `parse_mail` gives it. -/
def mail (headers : List Header) (body : Str) : ParsedMail :=
  .mk
    { subject := (headers.find? u.isSubject).map u.value
      mimetype := "text/plain".toList
      ctypeParams := []
      disposition := .inline
      dispositionParams := []
      body := some body }
    []

theorem parse_mail {parseMail : Str → Option ParsedMail} {headers : List Header}
    {data body : Str} (hparse : parseMail data = some (u.mail headers body)) :
    parse parseMail data =
      some
        { subject := (headers.find? u.isSubject).map u.value
          body := join ['\n'] (lines body) } := by
  rw [parse, hparse]
  rfl

end Unfolding

/-! ## Where the readings agree -/

/-- A folded subject has text on its first line and no blanks before its folds. -/
def FoldsAgree (u : Unfolding) (h : Header) : Prop :=
  h.texts = [] ∨ trim h.value.text ≠ [] ∧
    (u.keepsBlanks = true → ∀ line ∈ (h.value.text :: h.texts).dropLast, trimEnd line = line)

/-- A subject has to be written so that it is read alike, and the last of several subjects has
to be what is read of the first. -/
def SubjectsAgree (u : Unfolding) (headers : List Header) : Prop :=
  match headers.filter Header.isSubject with
  | [] => True
  | [h] => u.isSubject h = true ∧ FoldsAgree u h
  | subjects =>
      (subjects.find? u.isSubject).map u.value = subjects.getLast?.map Header.spaced

/-- Of two texts with longer and with shorter parts. -/
theorem append_flatMap_inj {α β : Type} {f g : α → List β} {as : List α}
    (hparts : ∀ a ∈ as, (f a).length ≤ (g a).length) {x y z : List β}
    (hxy : x.length ≤ y.length) (heq : y ++ (as.flatMap g ++ z) = x ++ (as.flatMap f ++ z)) :
    y = x ∧ ∀ a ∈ as, g a = f a := by
  induction as generalizing x y with
  | nil =>
      exact ⟨List.append_cancel_right heq, fun a ha => absurd ha List.not_mem_nil⟩
  | cons a as ih =>
      have hrest := fun b hb => hparts b (List.mem_cons_of_mem a hb)
      have hle : ∀ {bs : List α}, (∀ b ∈ bs, (f b).length ≤ (g b).length) →
          (bs.flatMap f).length ≤ (bs.flatMap g).length := by
        intro bs hbs
        rw [List.length_flatMap, List.length_flatMap]
        exact List.sum_le_sum hbs
      have hlength := congrArg List.length heq
      have hall := hle hparts
      simp only [List.length_append] at hlength
      obtain ⟨rfl, htail⟩ := List.append_inj heq (by omega)
      rw [List.flatMap_cons, List.flatMap_cons, List.append_assoc, List.append_assoc] at htail
      obtain ⟨ha, has⟩ := ih hrest (hparts a List.mem_cons_self) htail
      refine ⟨rfl, ?_⟩
      intro b hb
      rcases List.mem_cons.mp hb with rfl | hb
      · exact ha
      · exact has b hb

namespace Unfolding

variable (u : Unfolding)

theorem trim_kept (line : Str) : trim (u.kept line) = trim line := by
  rw [kept]
  split_ifs
  · rfl
  · exact trim_trimEnd line

/-- A line without blanks at its end leaves none before a fold. -/
theorem trimStart_kept_iff {line : Str} (hline : trim line ≠ []) :
    trimStart (u.kept line) = trim line ↔ (u.keepsBlanks = true → trimEnd line = line) := by
  rw [kept]
  cases u.keepsBlanks with
  | false =>
      rw [if_neg Bool.false_ne_true, trimStart_trimEnd]
      simp
  | true =>
      obtain ⟨gap, hgap, -⟩ := exists_blank_trimStart line
      have hend : trimEnd line = gap ++ trim line := by
        conv_lhs => rw [hgap]
        exact trimEnd_append hline gap
      rw [if_pos rfl, hend]
      constructor
      · intro h _
        rw [← h, ← hgap]
      · intro h
        have hsame := h rfl
        conv_rhs at hsame => rw [hgap]
        exact (List.append_cancel_left hsame).symm

/-- Lines without text at the end of a header do not show in its value. -/
theorem value_eq {h : Header} {tail : List Str}
    (hfolds : h.folds.map HeaderLine.text = h.texts ++ tail)
    (htail : ∀ line ∈ tail, hasText line = false) :
    u.value h = trim (u.kept h.value.text ++
      h.texts.flatMap (fun line => ' ' :: trimStart (u.kept line))) := by
  have hblank : ∀ c ∈ tail.flatMap (fun line => ' ' :: trimStart (u.kept line)),
      isWhitespace c = true := by
    intro c hc
    obtain ⟨line, hline, hc⟩ := List.mem_flatMap.mp hc
    have hempty := htail line hline
    rw [hasText, decide_eq_false_iff_not, not_not, ← u.trim_kept, trim_eq_nil_iff] at hempty
    rcases List.mem_cons.mp hc with rfl | hc
    · decide
    · exact hempty c (mem_of_mem_trimStart hc)
  rw [value, hfolds, List.flatMap_append, ← List.append_assoc, ← trimStart_trimEnd,
    trimEnd_append_blank hblank, trimStart_trimEnd]

/-- **A subject is read alike** when its folds are written so. -/
theorem value_eq_spaced_iff {h : Header} {tail : List Str}
    (hfolds : h.folds.map HeaderLine.text = h.texts ++ tail)
    (htail : ∀ line ∈ tail, hasText line = false) :
    u.value h = h.spaced ↔ FoldsAgree u h := by
  have hsolid : ∀ line ∈ h.texts, trim line ≠ [] := by
    intro line hline
    have htext := (List.mem_filter.mp hline).2
    rwa [hasText, decide_eq_true_eq] at htext
  rw [u.value_eq hfolds htail, Header.spaced, FoldsAgree]
  cases htexts : h.texts using List.reverseRecOn with
  | nil =>
      simp [u.trim_kept]
  | append_singleton init f =>
      rw [htexts] at hsolid
      have hf : trim f ≠ [] := hsolid f (by simp)
      -- trimming stops in the last line
      have hend : trimEnd (trimStart (u.kept f)) = trim f := u.trim_kept f
      have hvalue : trim (u.kept h.value.text ++
          (init ++ [f]).flatMap (fun line => ' ' :: trimStart (u.kept line))) =
            trimStart (u.kept h.value.text ++
              (init.flatMap (fun line => ' ' :: trimStart (u.kept line)) ++ ' ' :: trim f)) := by
        have hne : trimEnd (trimStart (u.kept f)) ≠ [] := by
          rw [hend]
          exact hf
        have hregroup : ∀ last : Str, u.kept h.value.text ++
            (init.flatMap (fun line => ' ' :: trimStart (u.kept line)) ++ ' ' :: last) =
              (u.kept h.value.text ++
                (init.flatMap (fun line => ' ' :: trimStart (u.kept line)) ++ [' '])) ++ last := by
          intro last
          simp
        rw [List.flatMap_append, List.flatMap_singleton, hregroup (trimStart (u.kept f)),
          ← trimStart_trimEnd, trimEnd_append hne, hend, hregroup (trim f)]
      rw [hvalue, List.flatMap_append, List.flatMap_singleton, ← List.cons_append,
        List.dropLast_concat]
      by_cases hfirst : trim h.value.text = []
      · -- only one of them begins with the space of a fold
        constructor
        · intro heq
          exfalso
          have hspace : isWhitespace ' ' = true := by decide
          have hhead : (trim (u.kept h.value.text ++
              (init ++ [f]).flatMap (fun line => ' ' :: trimStart (u.kept line)))).head? =
                some ' ' := by
            rw [hvalue, heq, hfirst]
            cases init with
            | nil =>
                rfl
            | cons line init =>
                rfl
          rw [head_trim hhead] at hspace
          cases hspace
        · rintro (hnil | ⟨hne, -⟩)
          · exact absurd hnil (by simp)
          · exact absurd hfirst hne
      · have hstart : trimStart (u.kept h.value.text) ≠ [] := by
          intro hnil
          have htrim := u.trim_kept h.value.text
          rw [trim, hnil] at htrim
          exact hfirst htrim.symm
        rw [trimStart_append hstart]
        constructor
        · intro heq
          right
          refine ⟨hfirst, ?_⟩
          have hshort : ∀ line : Str, (trim line).length ≤ (trimStart (u.kept line)).length := by
            intro line
            rw [← u.trim_kept line]
            exact (List.rdropWhile_prefix _ _).length_le
          obtain ⟨hhead, hinit⟩ := append_flatMap_inj (f := fun line => ' ' :: trim line)
            (g := fun line => ' ' :: trimStart (u.kept line))
              (fun line _ => Nat.succ_le_succ (hshort line)) (hshort h.value.text) heq
          intro hkeeps line hline
          rcases List.mem_cons.mp hline with rfl | hline
          · exact (u.trimStart_kept_iff hfirst).mp hhead hkeeps
          · have hne := hsolid line (List.mem_append_left _ hline)
            exact (u.trimStart_kept_iff hne).mp (List.tail_eq_of_cons_eq (hinit line hline)) hkeeps
        · rintro (hnil | ⟨-, hall⟩)
          · exact absurd hnil (by simp)
          · have hhead := (u.trimStart_kept_iff hfirst).mpr
              (fun hkeeps => hall hkeeps _ List.mem_cons_self)
            have hinit : ∀ line ∈ init, ' ' :: trimStart (u.kept line) = ' ' :: trim line := by
              intro line hline
              have hne := hsolid line (List.mem_append_left _ hline)
              rw [(u.trimStart_kept_iff hne).mpr
                (fun hkeeps => hall hkeeps line (List.mem_cons_of_mem _ hline))]
            rw [hhead, List.flatMap_congr hinit]

end Unfolding

/-- A header of such a block has its lines without text at its end. -/
theorem exists_tail_of_blocksAgree {headers : List Header} {body : Str}
    (hagree : BlocksAgree headers body) {h : Header} (hh : h ∈ headers) :
    ∃ tail, h.folds.map HeaderLine.text = h.texts ++ tail ∧
      ∀ line ∈ tail, hasText line = false := by
  obtain ⟨pre, post, rfl⟩ := List.append_of_mem hh
  have hform : headerTexts (pre ++ h :: post) =
      headerTexts pre ++ (h.first.text :: (h.folds.map HeaderLine.text ++ headerTexts post)) := by
    simp [headerTexts, Header.lines]
  rw [Header.texts]
  cases hfolds : h.folds.map HeaderLine.text using List.reverseRecOn with
  | nil =>
      exact ⟨[], rfl, fun line hline => absurd hline List.not_mem_nil⟩
  | append_singleton front last =>
      rw [hfolds] at hform
      have hregroup : headerTexts (pre ++ h :: post) =
          (headerTexts pre ++ (h.first.text :: front)) ++ (last :: headerTexts post) := by
        rw [hform]
        simp
      have hfront : ∀ line ∈ front, hasText line = true := by
        intro line hline
        have hmem : line ∈ (headerTexts (pre ++ h :: post)).dropLast := by
          rw [hregroup, List.dropLast_append_of_ne_nil (List.cons_ne_nil _ _)]
          simp [hline]
        rcases hagree with hall | ⟨-, hall⟩
        · exact hall line (List.mem_of_mem_dropLast hmem)
        · exact hall line hmem
      rw [List.filter_append, List.filter_eq_self.mpr hfront]
      cases hlast : hasText last with
      | true =>
          refine ⟨[], ?_, fun line hline => absurd hline List.not_mem_nil⟩
          rw [List.filter_cons_of_pos hlast, List.filter_nil, List.append_nil]
      | false =>
          refine ⟨[last], ?_, ?_⟩
          · rw [List.filter_cons_of_neg (by simp [hlast]), List.filter_nil, List.append_nil]
          · intro line hline
            rw [List.mem_singleton.mp hline]
            exact hlast

theorem subjects_iff (u : Unfolding) {headers : List Header} {body : Str}
    (hagree : BlocksAgree headers body) :
    (headers.filter Header.isSubject).getLast?.map Header.spaced =
      (headers.find? u.isSubject).map u.value ↔ SubjectsAgree u headers := by
  have hfind : headers.find? u.isSubject = (headers.filter Header.isSubject).find? u.isSubject := by
    rw [List.find?_filter]
    congr 1
    funext h
    rw [Unfolding.isSubject]
    cases h.isSubject with
    | true =>
        simp
    | false =>
        simp
  have hmem : ∀ h ∈ headers.filter Header.isSubject, h ∈ headers :=
    fun h hh => (List.mem_filter.mp hh).1
  rw [hfind, SubjectsAgree, eq_comm]
  cases hsubjects : headers.filter Header.isSubject with
  | nil =>
      simp
  | cons h rest =>
      cases rest with
      | nil =>
          obtain ⟨tail, hfolds, htail⟩ := exists_tail_of_blocksAgree hagree
            (hmem h (by rw [hsubjects]; exact List.mem_cons_self))
          have hvalue := u.value_eq_spaced_iff hfolds htail
          cases hsubject : u.isSubject h with
          | true =>
              simp [hsubject, hvalue]
          | false =>
              simp [hsubject]
      | cons other rest =>
          rfl

/-- A subject with a fold, and another header. -/
def foldedHeaders : List Header :=
  [{ name := "Subject".toList
     gap := []
     value := { text := " disk full".toList, crlf := true }
     folds := [{ text := "  on sda".toList, crlf := true }] },
   { name := "X-Host".toList
     gap := []
     value := { text := " omv".toList, crlf := true }
     folds := [] }]

/-- A subject that is given twice. -/
def repeatedHeaders : List Header :=
  [{ name := "Subject".toList
     gap := []
     value := { text := " disk full".toList, crlf := true }
     folds := [] },
   { name := "Subject".toList
     gap := []
     value := { text := " backup done".toList, crlf := true }
     folds := [] }]

theorem plain_foldedHeaders : ∀ h ∈ foldedHeaders, h.Plain := by
  have hall : foldedHeaders.all Header.isPlain = true := by
    decide
  intro h hh
  exact Header.plain_of_isPlain (List.all_eq_true.mp hall h hh)

end Smtp
end ChimneyPost
