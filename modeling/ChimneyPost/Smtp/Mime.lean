import ChimneyPost.Text.Str

/-!
# MIME extraction

`src/smtp/mime.rs`.  The tree comes from the `mailparse` crate: `ParsedMail` holds
what the server asks of it, and `parse_mail` itself is a parameter.

The loops of `strip_elements` and `decode_entities` consume their text; they are
given fuel here, and any amount beyond the length of the text gives the same result
(`removeElementLoop_fuel`, `decodeEntitiesLoop_fuel`).
-/

namespace ChimneyPost
namespace Smtp

/-- `mailparse::DispositionType`. -/
inductive DispositionType where
  | inline
  | attachment
  | formData
  | extension (name : Str)
deriving DecidableEq

/-- One part of a message as `mailparse` reports it. -/
structure Part where
  /-- `headers.get_first_value("Subject")` -/
  subject : Option Str
  mimetype : Str
  ctypeParams : List (Str × Str)
  disposition : DispositionType
  dispositionParams : List (Str × Str)
  /-- `get_body`; `none` when decoding fails -/
  body : Option Str
deriving DecidableEq

/-- `mailparse::ParsedMail`. -/
inductive ParsedMail where
  | mk (part : Part) (subparts : List ParsedMail)

/-- The subject and body recovered from a MIME message. -/
structure MimeMessage where
  subject : Option Str
  body : Str
deriving DecidableEq

/-! ## Entities -/

/-- `char::to_digit`. -/
def toDigit (radix : Nat) (c : Char) : Option Nat :=
  let value :=
    if '0' ≤ c ∧ c ≤ '9' then some (c.toNat - 48)
    else if 'a' ≤ c ∧ c ≤ 'z' then some (c.toNat - 87)
    else if 'A' ≤ c ∧ c ≤ 'Z' then some (c.toNat - 55)
    else none
  value.filter (fun d => d < radix)

def readDigits (radix : Nat) : Nat → Str → Option Nat
  | value, [] => some value
  | value, c :: cs =>
      match toDigit radix c with
      | some d => readDigits radix (value * radix + d) cs
      | none => none

/-- `u32::from_str_radix`: a leading `+` is allowed, an empty number is not. -/
def u32FromStrRadix (radix : Nat) (s : Str) : Option Nat :=
  let digits := (stripPrefix ['+'] s).getD s
  if digits = [] then none
  else (readDigits radix 0 digits).filter (fun n => n < 4294967296)

/-- `char::from_u32`. -/
def charFromU32 (n : Nat) : Option Char :=
  if n.isValidChar then some (Char.ofNat n) else none

def namedEntity (entity : Str) : Option Str :=
  let name := toAsciiLowercase entity
  if name = "amp".toList then some ['&']
  else if name = "lt".toList then some ['<']
  else if name = "gt".toList then some ['>']
  else if name = "quot".toList then some ['"']
  else if name = "apos".toList ∨ name = "#39".toList then some ['\'']
  else if name = "nbsp".toList then some [' ']
  else none

def numericEntity (entity : Str) : Option Char :=
  match stripPrefix ['#'] entity with
  | none => none
  | some digits =>
      let code :=
        match digits with
        | 'x' :: hex => u32FromStrRadix 16 hex
        | 'X' :: hex => u32FromStrRadix 16 hex
        | _ => u32FromStrRadix 10 digits
      code.bind charFromU32

/-- Length in bytes, as UTF-8. -/
def byteLen (s : Str) : Nat :=
  (s.map Char.utf8Size).sum

/-- What replaces `&entity;`. -/
def decodeEntity (entity : Str) : Str :=
  match namedEntity entity with
  | some decoded => decoded
  | none =>
      match numericEntity entity with
      | some decoded => [decoded]
      | none => '&' :: (entity ++ [';'])

/-- The loop of `decode_entities`; `tail` is the text after an ampersand. -/
def decodeEntitiesLoop : Nat → Str → Str
  | 0, rest => rest
  | fuel + 1, rest =>
      match rest.dropWhile (fun c => c ≠ '&') with
      | [] => rest
      | _ :: tail =>
          let entity := tail.takeWhile (fun c => c ≠ ';')
          rest.takeWhile (fun c => c ≠ '&') ++
            -- the semicolon stands at most ten bytes after the ampersand
            if ';' ∈ tail ∧ byteLen entity + 1 ≤ 10 then
              decodeEntity entity ++
                decodeEntitiesLoop fuel (tail.drop (entity.length + 1))
            else
              '&' :: decodeEntitiesLoop fuel tail

def decodeEntities (text : Str) : Str :=
  decodeEntitiesLoop (text.length + 1) text

/-! ## HTML -/

/-- `str::find` with a string, as a number of characters. -/
def findStr (pat : Str) : Str → Option Nat
  | [] => if pat = [] then some 0 else none
  | c :: s =>
      if pat.isPrefixOf (c :: s) then some 0 else (findStr pat s).map (fun i => i + 1)

/--
The loop of `strip_elements` for one element, on the text from the cursor on.  An
element that is not closed takes the rest of the text with it.
-/
def removeElementLoop (opener closer : Str) : Nat → Str → Str
  | 0, rest => rest
  | fuel + 1, rest =>
      let lower := toAsciiLowercase rest
      match findStr opener lower with
      | none => rest
      | some start =>
          rest.take start ++
            match findStr closer (lower.drop start) with
            | none => []
            | some stop =>
                match findStr ['>'] (lower.drop (start + stop)) with
                | none => []
                | some gt =>
                    removeElementLoop opener closer fuel
                      (rest.drop (start + stop + gt + 1))

def removeElement (out name : Str) : Str :=
  removeElementLoop ('<' :: name) ('<' :: '/' :: name) (out.length + 1) out

/-- Remove the named elements along with their content. -/
def stripElements (html : Str) (names : List Str) : Str :=
  names.foldl removeElement html

/-- Whether a tag becomes a line break. -/
def breaksLine (tag : Str) : Bool :=
  let name := toAsciiLowercase ((tag.dropWhile (fun c => c = '/')).takeWhile
    (fun c => !(isWhitespace c || c == '/' || c == '>')))
  ["br", "p", "div", "tr", "li", "h1", "h2", "h3", "h4", "h5", "h6", "table",
    "blockquote", "hr"].any (fun s => s.toList = name)

/-- What a finished tag leaves in the text. -/
def tagText (tag : Str) : Str :=
  if breaksLine tag then ['\n'] else []

/-- The loop of `html_to_text`; `some tag` inside of a tag. -/
def stripTags : Option Str → Str → Str
  | none, [] => []
  | some tag, [] => tagText tag
  | none, ch :: chars =>
      if ch = '<' then stripTags (some []) chars else ch :: stripTags none chars
  | some tag, ch :: chars =>
      if ch = '>' then tagText tag ++ stripTags none chars
      else stripTags (some (tag ++ [ch])) chars

def collapseSpaces (line : Str) : Str :=
  join [' '] (splitWhitespace line)

/-- One line of `tidy`: the lines kept so far and the run of blank lines. -/
def tidyLine (kept : List Str × Nat) (line : Str) : List Str × Nat :=
  if trim line = [] then
    if kept.2 + 1 > 1 ∨ kept.1 = [] then (kept.1, kept.2 + 1)
    else (kept.1 ++ [[]], kept.2 + 1)
  else
    (kept.1 ++ [collapseSpaces (trim line)], 0)

/-- Collapse the whitespace that stripping tags leaves behind. -/
def tidy (text : Str) : Str :=
  join ['\n'] (((lines text).foldl tidyLine ([], 0)).1.rdropWhile (fun l => l = []))

/-- Reduce an HTML part to something readable in a chat message. -/
def htmlToText (html : Str) : Str :=
  tidy (decodeEntities (stripTags none
    (stripElements html ["script".toList, "style".toList, "head".toList])))

/-! ## The tree -/

/-- Whether a leaf part is an attachment rather than content. -/
def isAttachment (part : Part) : Bool :=
  if part.disposition = .attachment then
    true
  else
    let mimetype := toAsciiLowercase part.mimetype
    !("text/".toList.isPrefixOf mimetype) && !("multipart/".toList.isPrefixOf mimetype)

mutual

/-- The first leaf part of type `want`, depth-first. -/
def findText (want : Str) : ParsedMail → Option Part
  | .mk part subparts =>
      if subparts.isEmpty then
        if eqIgnoreAsciiCase part.mimetype want && !isAttachment part then some part
        else none
      else
        findTextIn want subparts

def findTextIn (want : Str) : List ParsedMail → Option Part
  | [] => none
  | mail :: mails =>
      match findText want mail with
      | some part => some part
      | none => findTextIn want mails

end

/-- The name under which an attachment is listed. -/
def attachmentName (part : Part) : Str :=
  let named := (part.dispositionParams.lookup "filename".toList).or
    (part.ctypeParams.lookup "name".toList)
  ((named.map trim).filter (fun name => name ≠ [])).getD "unnamed".toList

mutual

/-- The file names of every attachment leaf, depth-first. -/
def collectAttachments : ParsedMail → List Str
  | .mk part subparts =>
      if subparts.isEmpty then
        if isAttachment part then [attachmentName part] else []
      else
        collectAttachmentsIn subparts

def collectAttachmentsIn : List ParsedMail → List Str
  | [] => []
  | mail :: mails => collectAttachments mail ++ collectAttachmentsIn mails

end

/-- The line appended to the body. -/
def describeAttachments (names : List Str) : Option Str :=
  match names with
  | [] => none
  | [name] => some ("[1 attachment: ".toList ++ name ++ [']'])
  | _ => some ('[' :: natToStr names.length ++ " attachments: ".toList ++
      join ", ".toList names ++ [']'])

/-- `\n` line endings and no trailing newline. -/
def normaliseNewlines (body : Str) : Str :=
  join ['\n'] (lines body)

/-- The text of a message: a plain part, or else an HTML part. -/
def selectText (mail : ParsedMail) : Option Str :=
  let plain := (findText "text/plain".toList mail).bind Part.body
  let html := (findText "text/html".toList mail).bind Part.body
  (plain.or (html.map htmlToText)).map normaliseNewlines

/-- `mime::parse`; `none` leaves the caller to the raw header and body split. -/
def parse (parseMail : Str → Option ParsedMail) (data : Str) : Option MimeMessage :=
  match parseMail data with
  | none => none
  | some (.mk part subparts) =>
      let mail := ParsedMail.mk part subparts
      let text := selectText mail
      let attachments := collectAttachments mail
      if text = none ∧ attachments = [] then
        none
      else
        let body := text.getD []
        some
          { subject := part.subject
            body :=
              match describeAttachments attachments with
              | none => body
              | some note => (if body = [] then body else body ++ ['\n', '\n']) ++ note }

/-! ## Enough fuel -/

/-- What is left after a closing tag is shorter. -/
theorem length_after_closer {rest : Str} {start stop gt : Nat}
    (hgt : findStr ['>'] ((toAsciiLowercase rest).drop (start + stop)) = some gt) :
    (rest.drop (start + stop + gt + 1)).length < rest.length := by
  have hne : rest ≠ [] := by
    rintro rfl
    simp [toAsciiLowercase, findStr] at hgt
  have hpos := List.length_pos_of_ne_nil hne
  rw [List.length_drop]
  omega

/-- Each round of `strip_elements` moves the cursor on, so enough fuel is enough. -/
theorem removeElementLoop_fuel (opener closer : Str) {fuel fuel' : Nat} {rest : Str}
    (h : rest.length < fuel) (h' : rest.length < fuel') :
    removeElementLoop opener closer fuel rest = removeElementLoop opener closer fuel' rest := by
  induction fuel generalizing fuel' rest with
  | zero => omega
  | succ fuel ih =>
      obtain ⟨fuel', rfl⟩ : ∃ n, fuel' = n + 1 := ⟨fuel' - 1, by omega⟩
      unfold removeElementLoop
      dsimp only
      cases findStr opener (toAsciiLowercase rest) with
      | none =>
          rfl
      | some start =>
          dsimp only
          cases findStr closer ((toAsciiLowercase rest).drop start) with
          | none =>
              rfl
          | some stop =>
              dsimp only
              cases hgt : findStr ['>'] ((toAsciiLowercase rest).drop (start + stop)) with
              | none =>
                  rfl
              | some gt =>
                  dsimp only
                  have hshort := length_after_closer hgt
                  have hsame := ih (Nat.lt_of_lt_of_le hshort (Nat.le_of_lt_succ h))
                    (Nat.lt_of_lt_of_le hshort (Nat.le_of_lt_succ h'))
                  rw [hsame]

/-- Each round of `decode_entities` shortens the text, so enough fuel is enough. -/
theorem decodeEntitiesLoop_fuel {fuel fuel' : Nat} {rest : Str}
    (h : rest.length < fuel) (h' : rest.length < fuel') :
    decodeEntitiesLoop fuel rest = decodeEntitiesLoop fuel' rest := by
  induction fuel generalizing fuel' rest with
  | zero => omega
  | succ fuel ih =>
      obtain ⟨fuel', rfl⟩ : ∃ n, fuel' = n + 1 := ⟨fuel' - 1, by omega⟩
      unfold decodeEntitiesLoop
      cases htail : rest.dropWhile (fun c => c ≠ '&') with
      | nil =>
          rfl
      | cons amp tail =>
          have hle : (amp :: tail).length ≤ rest.length := by
            rw [← htail]
            exact (List.dropWhile_suffix _).length_le
          rw [List.length_cons] at hle
          have hsame : ∀ n, decodeEntitiesLoop fuel (tail.drop n) =
              decodeEntitiesLoop fuel' (tail.drop n) := by
            intro n
            have hdrop : (tail.drop n).length ≤ tail.length := by
              rw [List.length_drop]
              omega
            exact ih (by omega) (by omega)
          have hwhole := hsame 0
          rw [List.drop_zero] at hwhole
          dsimp only
          rw [hwhole, hsame]

end Smtp
end ChimneyPost
