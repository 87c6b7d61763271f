import ChimneyPost.Smtp.Tidy

/-!
# What of a message is shown

The three recursions of `src/smtp/mime.rs` over the tree see its leaves only, in
depth-first order.  The text that is shown is that of one leaf (`Shown`), which is no
attachment; the note lists the attachment leaves.
-/

namespace ChimneyPost
namespace Smtp

/-! ## Leaves -/

mutual

/-- The leaf parts, depth-first. -/
def leaves : ParsedMail → List Part
  | .mk part subparts => if subparts.isEmpty then [part] else leavesIn subparts

def leavesIn : List ParsedMail → List Part
  | [] => []
  | mail :: mails => leaves mail ++ leavesIn mails

end

/-- The part at the top. -/
def ParsedMail.part : ParsedMail → Part
  | .mk part _ => part

/-- A leaf of type `want` that is content. -/
def isContent (want : Str) (part : Part) : Bool :=
  eqIgnoreAsciiCase part.mimetype want && !isAttachment part

/-- An attachment is one by its disposition, or by a type that is neither text nor
multipart. -/
theorem isAttachment_iff {part : Part} :
    isAttachment part = true ↔ part.disposition = .attachment ∨
      ¬ "text/".toList <+: toAsciiLowercase part.mimetype ∧
        ¬ "multipart/".toList <+: toAsciiLowercase part.mimetype := by
  rw [isAttachment]
  split_ifs with hdisposition
  · simp [hdisposition]
  · simp [hdisposition, ← List.isPrefixOf_iff_prefix]

theorem isContent_iff {want : Str} {part : Part} :
    isContent want part = true ↔
      toAsciiLowercase part.mimetype = toAsciiLowercase want ∧ isAttachment part = false := by
  simp [isContent, eqIgnoreAsciiCase]

mutual

/-- A search finds the first leaf. -/
theorem findText_eq (want : Str) : (mail : ParsedMail) →
    findText want mail = (leaves mail).find? (isContent want)
  | .mk part subparts => by
      rw [findText, leaves]
      cases subparts with
      | nil =>
          rw [List.isEmpty_nil, if_pos rfl, if_pos rfl, List.find?_singleton]
          rfl
      | cons mail mails =>
          rw [List.isEmpty_cons, if_neg Bool.false_ne_true, if_neg Bool.false_ne_true]
          exact findTextIn_eq want (mail :: mails)

theorem findTextIn_eq (want : Str) : (mails : List ParsedMail) →
    findTextIn want mails = (leavesIn mails).find? (isContent want)
  | [] => by
      rfl
  | mail :: mails => by
      rw [findTextIn, leavesIn, List.find?_append, findText_eq want mail,
        findTextIn_eq want mails]
      cases (leaves mail).find? (isContent want) <;> rfl

end

/-- The names the note lists. -/
def listing (L : List Part) : List Str :=
  (L.filter isAttachment).map attachmentName

mutual

/-- The collection lists the attachment leaves. -/
theorem collectAttachments_eq : (mail : ParsedMail) →
    collectAttachments mail = listing (leaves mail)
  | .mk part subparts => by
      rw [collectAttachments, leaves]
      cases subparts with
      | nil =>
          cases hattachment : isAttachment part <;> simp [listing, hattachment]
      | cons mail mails =>
          rw [List.isEmpty_cons, if_neg Bool.false_ne_true, if_neg Bool.false_ne_true]
          exact collectAttachmentsIn_eq (mail :: mails)

theorem collectAttachmentsIn_eq : (mails : List ParsedMail) →
    collectAttachmentsIn mails = listing (leavesIn mails)
  | [] => by
      rfl
  | mail :: mails => by
      rw [collectAttachmentsIn, leavesIn, collectAttachments_eq mail,
        collectAttachmentsIn_eq mails]
      simp [listing]

end

/-! ## The text -/

/-- Leaf `i` is the first one of type `want` that is content. -/
structure FirstContent (want : Str) (L : List Part) (i : Nat) (part : Part) : Prop where
  leaf : L[i]? = some part
  content : isContent want part = true
  first : ∀ j, j < i → ∀ q, L[j]? = some q → isContent want q = false

theorem find?_isContent {want : Str} {L : List Part} {part : Part} :
    L.find? (isContent want) = some part ↔ ∃ i, FirstContent want L i part := by
  rw [List.find?_eq_some_iff_getElem]
  constructor
  · rintro ⟨hcontent, i, hi, rfl, hbefore⟩
    refine ⟨i, List.getElem?_eq_getElem hi, hcontent, ?_⟩
    intro j hj q hq
    obtain ⟨_, rfl⟩ := List.getElem?_eq_some_iff.mp hq
    simpa using hbefore j hj
  · rintro ⟨i, hfirst⟩
    obtain ⟨hi, hleaf⟩ := List.getElem?_eq_some_iff.mp hfirst.leaf
    refine ⟨hfirst.content, i, hi, hleaf, ?_⟩
    intro j hj
    rw [hfirst.first j hj _ (List.getElem?_eq_getElem (hj.trans hi))]
    rfl

theorem FirstContent.unique {want : Str} {L : List Part} {i j : Nat} {part q : Part}
    (h : FirstContent want L i part) (h' : FirstContent want L j q) : i = j ∧ part = q := by
  have hij : i = j := by
    rcases Nat.lt_trichotomy i j with hlt | heq | hlt
    · have hnot := h'.first i hlt part h.leaf
      rw [h.content] at hnot
      cases hnot
    · exact heq
    · have hnot := h.first j hlt q h'.leaf
      rw [h'.content] at hnot
      cases hnot
  subst hij
  exact ⟨rfl, Option.some.inj (h.leaf.symm.trans h'.leaf)⟩

/-- Leaf `i` is shown, as `text`: the first plain text if it can be decoded, or else the
first HTML text if that can be. -/
inductive Shown (L : List Part) : Nat → Str → Prop
  | plain {i : Nat} {part : Part} {body : Str}
      (hfirst : FirstContent "text/plain".toList L i part) (hbody : part.body = some body) :
      Shown L i (normaliseNewlines body)
  | html {i : Nat} {part : Part} {body : Str}
      (hplain : ∀ j q, FirstContent "text/plain".toList L j q → q.body = none)
      (hfirst : FirstContent "text/html".toList L i part) (hbody : part.body = some body) :
      Shown L i (htmlToText body)

/-- The leaf that is shown is content. -/
theorem Shown.leaf {L : List Part} {i : Nat} {text : Str} (h : Shown L i text) :
    ∃ part, L[i]? = some part ∧ isAttachment part = false := by
  cases h with
  | plain hfirst hbody => exact ⟨_, hfirst.leaf, (isContent_iff.mp hfirst.content).2⟩
  | html hplain hfirst hbody => exact ⟨_, hfirst.leaf, (isContent_iff.mp hfirst.content).2⟩

theorem Shown.unique {L : List Part} {i j : Nat} {text text' : Str} (h : Shown L i text)
    (h' : Shown L j text') : i = j ∧ text = text' := by
  cases h with
  | plain hfirst hbody =>
      cases h' with
      | plain hfirst' hbody' =>
          obtain ⟨rfl, rfl⟩ := hfirst.unique hfirst'
          obtain rfl := Option.some.inj (hbody.symm.trans hbody')
          exact ⟨rfl, rfl⟩
      | html hplain hfirst' hbody' =>
          rw [hplain _ _ hfirst] at hbody
          cases hbody
  | html hplain hfirst hbody =>
      cases h' with
      | plain hfirst' hbody' =>
          rw [hplain _ _ hfirst'] at hbody'
          cases hbody'
      | html hplain' hfirst' hbody' =>
          obtain ⟨rfl, rfl⟩ := hfirst.unique hfirst'
          obtain rfl := Option.some.inj (hbody.symm.trans hbody')
          exact ⟨rfl, rfl⟩

/-- The text is that of the leaf that is shown. -/
theorem selectText_eq_some {mail : ParsedMail} {text : Str} :
    selectText mail = some text ↔ ∃ i, Shown (leaves mail) i text := by
  have hdecodes : ∀ want body, (findText want mail).bind Part.body = some body ↔
      ∃ i part, FirstContent want (leaves mail) i part ∧ part.body = some body := by
    intro want body
    rw [findText_eq, Option.bind_eq_some_iff]
    constructor
    · rintro ⟨part, hfind, hbody⟩
      obtain ⟨i, hfirst⟩ := find?_isContent.mp hfind
      exact ⟨i, part, hfirst, hbody⟩
    · rintro ⟨i, part, hfirst, hbody⟩
      exact ⟨part, find?_isContent.mpr ⟨i, hfirst⟩, hbody⟩
  rw [selectText, Option.map_eq_some_iff]
  constructor
  · rintro ⟨body, hbody, rfl⟩
    rw [Option.or_eq_some_iff] at hbody
    rcases hbody with hplain | ⟨hnone, hhtml⟩
    · obtain ⟨i, part, hfirst, hpart⟩ := (hdecodes _ _).mp hplain
      exact ⟨i, .plain hfirst hpart⟩
    · obtain ⟨html, hdecoded, rfl⟩ := Option.map_eq_some_iff.mp hhtml
      obtain ⟨i, part, hfirst, hpart⟩ := (hdecodes _ _).mp hdecoded
      rw [normaliseNewlines_htmlToText]
      refine ⟨i, .html ?_ hfirst hpart⟩
      intro j q hq
      by_contra hsome
      obtain ⟨other, hother⟩ := Option.ne_none_iff_exists'.mp hsome
      rw [(hdecodes _ _).mpr ⟨j, q, hq, hother⟩] at hnone
      cases hnone
  · rintro ⟨i, hshown⟩
    cases hshown with
    | plain hfirst hbody =>
        refine ⟨_, ?_, rfl⟩
        rw [(hdecodes _ _).mpr ⟨i, _, hfirst, hbody⟩, Option.some_or]
    | html hplain hfirst hbody =>
        have hnone : (findText "text/plain".toList mail).bind Part.body = none := by
          rw [Option.eq_none_iff_forall_ne_some]
          intro other hother
          obtain ⟨j, q, hq, hdecoded⟩ := (hdecodes _ _).mp hother
          rw [hplain j q hq] at hdecoded
          cases hdecoded
        refine ⟨_, ?_, normaliseNewlines_htmlToText _⟩
        rw [hnone, (hdecodes _ _).mpr ⟨i, _, hfirst, hbody⟩]
        rfl

/-! ## The note and the body -/

/-- The line at the end of the body: how many attachments there are, and their names. -/
def noteLine (L : List Part) : Str :=
  '[' :: natToStr (L.countP isAttachment) ++
    (if L.countP isAttachment = 1 then " attachment: ".toList else " attachments: ".toList) ++
    join ", ".toList (listing L) ++ [']']

/-- A text with the note below it, if there is an attachment. -/
def withNote (text : Str) (L : List Part) : Str :=
  if L.countP isAttachment = 0 then text
  else (if text = [] then text else text ++ ['\n', '\n']) ++ noteLine L

theorem length_listing (L : List Part) : (listing L).length = L.countP isAttachment := by
  rw [listing, List.length_map, List.countP_eq_length_filter]

theorem listing_eq_nil {L : List Part} :
    listing L = [] ↔ ∀ part ∈ L, isAttachment part = false := by
  simp [listing]

/-- The note is about the attachment leaves. -/
theorem describeAttachments_listing (L : List Part) :
    describeAttachments (listing L) =
      if L.countP isAttachment = 0 then none else some (noteLine L) := by
  have hlength := length_listing L
  rw [noteLine]
  rcases hnames : listing L with _ | ⟨name, _ | ⟨next, names⟩⟩
  · rw [hnames, List.length_nil] at hlength
    rw [if_pos hlength.symm]
    rfl
  · rw [hnames, List.length_singleton] at hlength
    rw [← hlength, if_neg Nat.one_ne_zero, if_pos rfl, join, List.intercalate_singleton]
    rfl
  · rw [hnames, List.length_cons, List.length_cons] at hlength
    rw [if_neg (by omega), if_neg (by omega), ← hlength]
    simp [describeAttachments]

/-- What `parse` makes of a tree. -/
theorem parse_eq {parseMail : Str → Option ParsedMail} {data : Str} {mail : ParsedMail}
    (hmail : parseMail data = some mail) :
    parse parseMail data =
      if selectText mail = none ∧ listing (leaves mail) = [] then none
      else some
        { subject := mail.part.subject
          body := withNote ((selectText mail).getD []) (leaves mail) } := by
  obtain ⟨part, subparts⟩ := mail
  rw [parse, hmail]
  dsimp only
  rw [collectAttachments_eq, describeAttachments_listing, withNote]
  by_cases hcount : (leaves (.mk part subparts)).countP isAttachment = 0
  · rw [if_pos hcount, if_pos hcount]
    rfl
  · rw [if_neg hcount, if_neg hcount]
    rfl

/-- How the leaves of a message and its subject make up its parse. -/
structure Selects (L : List Part) (subject : Option Str) (outcome : Option MimeMessage) :
    Prop where
  shown : ∀ i text, Shown L i text →
    outcome = some { subject := subject, body := withNote text L }
  unshown : (∀ i text, ¬ Shown L i text) → (∃ part ∈ L, isAttachment part = true) →
    outcome = some { subject := subject, body := withNote [] L }
  nothing : outcome = none ↔
    (∀ i text, ¬ Shown L i text) ∧ ∀ part ∈ L, isAttachment part = false
  /-- no leaf is both shown and listed -/
  apart : ∀ i text part, Shown L i text → L[i]? = some part → isAttachment part = false

/-- The same leaf, but for what an attachment holds. -/
def SameOutside (part q : Part) : Prop :=
  q = part ∨ isAttachment part = true ∧ ∃ body, q = { part with body := body }

theorem SameOutside.same {part q : Part} (h : SameOutside part q) :
    isAttachment q = isAttachment part ∧ attachmentName q = attachmentName part ∧
      q.mimetype = part.mimetype ∧ (isAttachment part = false → q = part) := by
  rcases h with rfl | ⟨hattachment, body, rfl⟩
  · exact ⟨rfl, rfl, rfl, fun _ => rfl⟩
  · refine ⟨rfl, rfl, rfl, ?_⟩
    intro hcontent
    rw [hattachment] at hcontent
    cases hcontent

section Contents

variable {L L' : List Part}

theorem listing_congr (h : List.Forall₂ SameOutside L L') : listing L' = listing L := by
  induction h with
  | nil =>
      rfl
  | cons hsame _ ih =>
      obtain ⟨hattachment, hname, _, _⟩ := hsame.same
      rw [listing, listing, List.filter_cons, List.filter_cons, hattachment]
      split_ifs
      · rw [List.map_cons, List.map_cons, hname]
        exact congrArg _ ih
      · exact ih

/-- A search finds content, which is the same. -/
theorem find?_congr (want : Str) (h : List.Forall₂ SameOutside L L') :
    L'.find? (isContent want) = L.find? (isContent want) := by
  induction h with
  | nil =>
      rfl
  | @cons part q L L' hsame _ ih =>
      obtain ⟨hattachment, _, htype, hcontent⟩ := hsame.same
      have hwant : isContent want q = isContent want part := by
        rw [isContent, isContent, hattachment, htype]
      rw [List.find?_cons, List.find?_cons, hwant]
      cases hfound : isContent want part with
      | true => rw [hcontent (isContent_iff.mp hfound).2]
      | false => exact ih

end Contents

section Parse

variable {parseMail parseMail' : Str → Option ParsedMail} {data : Str}
  {mail mail' : ParsedMail}

theorem selects (hmail : parseMail data = some mail) :
    Selects (leaves mail) mail.part.subject (parse parseMail data) := by
  have hparse := parse_eq hmail
  have htext : (∀ i text, ¬ Shown (leaves mail) i text) → selectText mail = none := by
    intro hnone
    rw [Option.eq_none_iff_forall_ne_some]
    intro text htext
    obtain ⟨i, hshown⟩ := selectText_eq_some.mp htext
    exact hnone i text hshown
  constructor
  · intro i text hshown
    rw [hparse, selectText_eq_some.mpr ⟨i, hshown⟩]
    rfl
  · rintro hnone ⟨part, hpart, hattachment⟩
    have hlisted : listing (leaves mail) ≠ [] := by
      intro hnil
      rw [listing_eq_nil.mp hnil part hpart] at hattachment
      cases hattachment
    rw [hparse, htext hnone, if_neg (fun h => hlisted h.2)]
    rfl
  · rw [hparse]
    constructor
    · intro hnothing
      split_ifs at hnothing with hboth
      refine ⟨?_, listing_eq_nil.mp hboth.2⟩
      intro i text hshown
      rw [selectText_eq_some.mpr ⟨i, hshown⟩] at hboth
      cases hboth.1
    · rintro ⟨hnone, hcontent⟩
      rw [if_pos ⟨htext hnone, listing_eq_nil.mpr hcontent⟩]
  · intro i text part hshown hleaf
    obtain ⟨q, hq, hcontent⟩ := hshown.leaf
    rw [Option.some.inj (hleaf.symm.trans hq)]
    exact hcontent

/-- What the attachments hold is not looked at. -/
theorem parse_congr (hmail : parseMail data = some mail)
    (hmail' : parseMail' data = some mail') (hsubject : mail'.part.subject = mail.part.subject)
    (hleaves : List.Forall₂ SameOutside (leaves mail) (leaves mail')) :
    parse parseMail' data = parse parseMail data := by
  have htext : selectText mail' = selectText mail := by
    simp only [selectText, findText_eq, find?_congr _ hleaves]
  have hlisting := listing_congr hleaves
  have hcount : (leaves mail').countP isAttachment = (leaves mail).countP isAttachment := by
    rw [← length_listing, ← length_listing, hlisting]
  rw [parse_eq hmail', parse_eq hmail, htext, hlisting, hsubject, withNote, withNote, noteLine,
    noteLine, hcount, hlisting]

/--
**What of a message is shown.**  Over every tree: the text is that of the first plain
leaf that is content, if it can be decoded, or else that of the first HTML leaf; the
note lists the attachment leaves, none of which is shown; without either there is no
message; and what the attachments hold does not matter.
-/
theorem parse_selects (parseMail : Str → Option ParsedMail) (data : Str) (mail : ParsedMail)
    (hmail : parseMail data = some mail) :
    Selects (leaves mail) mail.part.subject (parse parseMail data) ∧
      ∀ parseMail' mail', parseMail' data = some mail' →
        mail'.part.subject = mail.part.subject →
        List.Forall₂ SameOutside (leaves mail) (leaves mail') →
        parse parseMail' data = parse parseMail data := by
  refine ⟨selects hmail, ?_⟩
  intro parseMail' mail' hmail' hsubject hleaves
  exact parse_congr hmail hmail' hsubject hleaves

end Parse

/-- A leaf of the given type without parameters. -/
def plainPart (mimetype body : String) : Part where
  subject := none
  mimetype := mimetype.toList
  ctypeParams := []
  disposition := .inline
  dispositionParams := []
  body := some body.toList

/-- HTML before plain text, a text attachment between them, and a PDF. -/
def mixedMail : ParsedMail :=
  .mk (plainPart "multipart/mixed" "")
    [ .mk (plainPart "multipart/alternative" "")
        [ .mk (plainPart "TEXT/HTML" "<p>rich</p>") [],
          .mk { plainPart "text/plain" "log" with disposition := .attachment } [],
          .mk (plainPart "Text/Plain" "poor\r\n") [] ],
      .mk (plainPart "multipart/mixed" "") [],
      .mk (plainPart "application/pdf" "%PDF") [] ]

theorem mixedMail_selects :
    Selects (leaves mixedMail) none (parse (fun _ => some mixedMail) []) ∧
      ∀ parseMail' mail', parseMail' [] = some mail' →
        mail'.part.subject = none →
        List.Forall₂ SameOutside (leaves mixedMail) (leaves mail') →
        parse parseMail' [] = parse (fun _ => some mixedMail) [] := by
  exact parse_selects _ [] mixedMail rfl

example : parse (fun _ => some mixedMail) [] =
    some
      { subject := none
        body := "poor\n\n[2 attachments: unnamed, unnamed]".toList } := by
  decide +kernel

end Smtp
end ChimneyPost
