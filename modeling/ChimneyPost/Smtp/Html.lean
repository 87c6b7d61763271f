import ChimneyPost.Lib.Search
import ChimneyPost.Smtp.Tidy
import ChimneyPost.Text.Casing

/-!
# HTML documents

A document is a tree of elements and text.  `strip_elements` looks for the text `<head`
and the text `</head`, not for the tags of that name: a pass removes the elements of its
name from a document in which no other name begins with it (`removeElement_render`).
-/

namespace ChimneyPost
namespace Smtp

open Search (Avoids avoids_append avoids_cons avoids_of_not_mem prefix_append_cons_iff position
  position_append position_here position_later)

/-! ## Names -/

/-- Letters and digits neither end nor separate names. -/
theorem plain_of_isAlphanum {c : Char} (h : c.isAlphanum = true) :
    c ≠ '<' ∧ c ≠ '>' ∧ c ≠ '/' ∧ isWhitespace c = false := by
  have hrange : (48 ≤ c.toNat ∧ c.toNat ≤ 57) ∨ (65 ≤ c.toNat ∧ c.toNat ≤ 90) ∨
      (97 ≤ c.toNat ∧ c.toNat ≤ 122) := by
    simp only [Char.isAlphanum, Char.isAlpha, Char.isDigit, Char.isUpper, Char.isLower,
      UInt32.le_iff_toNat_le, ge_iff_le, Char.toNat_val, Bool.or_eq_true, Bool.and_eq_true,
      decide_eq_true_eq, UInt32.reduceToNat, Char.reduceVal] at h
    omega
  refine ⟨?_, ?_, ?_, ?_⟩
  · rintro rfl
    revert hrange
    decide
  · rintro rfl
    revert hrange
    decide
  · rintro rfl
    revert hrange
    decide
  · by_contra hspace
    rw [Bool.not_eq_false] at hspace
    simp only [isWhitespace, Bool.or_eq_true, Bool.and_eq_true, decide_eq_true_eq,
      beq_iff_eq] at hspace
    omega

/-! ## Searching -/

theorem findStr_eq_position (pat s : Str) : findStr pat s = position pat s := by
  induction s with
  | nil =>
      rfl
  | cons c s ih =>
      rw [findStr, position, ih]

theorem findStr_cons_later {pat s : Str} {c : Char} (h : ¬ pat <+: c :: s) :
    findStr pat (c :: s) = (findStr pat s).map (fun i => i + 1) := by
  rw [findStr_eq_position, findStr_eq_position]
  exact position_later h

/-- A search passes over what the pattern avoids. -/
theorem findStr_append {pat s t : Str} (havoids : Avoids pat s t) (h : pat <+: t) :
    findStr pat (s ++ t) = some s.length := by
  rw [findStr_eq_position, position_append havoids, position_here h, Option.map_some,
    Nat.zero_add]

/-- What the passes of `strip_elements` look for. -/
def opener (name : Str) : Str := '<' :: name

def closer (name : Str) : Str := '<' :: '/' :: name

/-- One round of a pass, with fuel left out. -/
theorem removeElement_eq (rest name : Str) :
    removeElement rest name =
      match findStr (opener name) (toAsciiLowercase rest) with
      | none => rest
      | some start =>
          rest.take start ++
            match findStr (closer name) ((toAsciiLowercase rest).drop start) with
            | none => []
            | some stop =>
                match findStr ['>'] ((toAsciiLowercase rest).drop (start + stop)) with
                | none => []
                | some gt => removeElement (rest.drop (start + stop + gt + 1)) name := by
  rw [removeElement, removeElementLoop, opener, closer]
  cases findStr ('<' :: name) (toAsciiLowercase rest) with
  | none =>
      rfl
  | some start =>
      dsimp only
      cases findStr ('<' :: '/' :: name) ((toAsciiLowercase rest).drop start) with
      | none =>
          rfl
      | some stop =>
          dsimp only
          cases hgt : findStr ['>'] ((toAsciiLowercase rest).drop (start + stop)) with
          | none =>
              rfl
          | some gt =>
              dsimp only
              rw [removeElement, removeElementLoop_fuel _ _ (length_after_closer hgt)
                (Nat.lt_succ_self _)]

theorem removeElement_nil (name : Str) : removeElement [] name = [] := by
  rfl

/-- The cursor moves over a character where no element begins. -/
theorem removeElement_cons {name rest : Str} {c : Char}
    (h : ¬ opener name <+: toAsciiLowercase (c :: rest)) :
    removeElement (c :: rest) name = c :: removeElement rest name := by
  rw [removeElement_eq (c :: rest), removeElement_eq rest]
  rw [toAsciiLowercase_cons] at h ⊢
  rw [findStr_cons_later h]
  cases findStr (opener name) (toAsciiLowercase rest) with
  | none =>
      rfl
  | some start =>
      have hstart : (c.toLower :: toAsciiLowercase rest).drop (start + 1) =
          (toAsciiLowercase rest).drop start := by
        rw [List.drop_succ_cons]
      have hstop : ∀ stop, (c.toLower :: toAsciiLowercase rest).drop (start + 1 + stop) =
          (toAsciiLowercase rest).drop (start + stop) := by
        intro stop
        rw [Nat.add_right_comm, List.drop_succ_cons]
      have hrest : ∀ stop gt, (c :: rest).drop (start + 1 + stop + gt + 1) =
          rest.drop (start + stop + gt + 1) := by
        intro stop gt
        rw [List.drop_succ_cons, Nat.add_right_comm start 1 stop,
          Nat.add_right_comm (start + stop) 1 gt]
      simp only [Option.map_some, List.take_succ_cons, List.cons_append, hstart, hstop, hrest]

/-- The cursor moves over a text in which no element begins. -/
theorem removeElement_append {name s rest : Str}
    (h : Avoids (opener name) (toAsciiLowercase s) (toAsciiLowercase rest)) :
    removeElement (s ++ rest) name = s ++ removeElement rest name := by
  induction s with
  | nil =>
      rfl
  | cons c s ih =>
      rw [toAsciiLowercase_cons, avoids_cons, ← toAsciiLowercase_append] at h
      rw [List.cons_append, removeElement_cons h.1, ih h.2]
      rfl

/-- The cursor moves past the closing tag of an element. -/
theorem removeElement_section {name inner tag rest : Str}
    (hopens : opener name <+: toAsciiLowercase (inner ++ (tag ++ '>' :: rest)))
    (havoids : Avoids (closer name) (toAsciiLowercase inner)
      (toAsciiLowercase (tag ++ '>' :: rest)))
    (hcloses : closer name <+: toAsciiLowercase (tag ++ '>' :: rest)) (htag : '>' ∉ tag) :
    removeElement (inner ++ (tag ++ '>' :: rest)) name = removeElement rest name := by
  have hgt : findStr ['>'] (toAsciiLowercase (tag ++ '>' :: rest)) = some tag.length := by
    rw [toAsciiLowercase_append, ← length_toAsciiLowercase tag]
    apply findStr_append
    · exact avoids_of_not_mem (mt (mem_toAsciiLowercase rfl rfl).mp htag)
    · exact List.prefix_append ['>'] _
  have hstop : findStr (closer name) (toAsciiLowercase (inner ++ (tag ++ '>' :: rest))) =
      some inner.length := by
    rw [toAsciiLowercase_append, ← length_toAsciiLowercase inner]
    exact findStr_append havoids hcloses
  have hdrop : (inner ++ (tag ++ '>' :: rest)).drop inner.length = tag ++ '>' :: rest := by
    rw [List.drop_left]
  have hrest : (inner ++ (tag ++ '>' :: rest)).drop (inner.length + tag.length + 1) = rest := by
    rw [Nat.add_assoc, ← List.drop_drop, hdrop, ← List.drop_drop, List.drop_left]
    rfl
  rw [removeElement_eq, findStr_eq_position, position_here hopens]
  dsimp only
  rw [List.take_zero, List.nil_append, List.drop_zero, hstop]
  dsimp only
  rw [Nat.zero_add, ← toAsciiLowercase_drop, hdrop, hgt]
  dsimp only
  rw [hrest]

/-! ## Documents -/

/-- A node of a document; names are as they are written in the tags. -/
inductive Node where
  | text (s : Str)
  /-- a tag without a closing tag, as of a line break or of a paragraph left open -/
  | unclosed (name attrs : Str)
  | element (name attrs : Str) (children : List Node) (closing : Str)

def openingTag (name attrs : Str) : Str :=
  '<' :: (name ++ (attrs ++ ['>']))

def closingTag (name : Str) : Str :=
  '<' :: '/' :: (name ++ ['>'])

mutual

/-- The document as it is sent. -/
def render : Node → Str
  | .text s => s
  | .unclosed name attrs => openingTag name attrs
  | .element name attrs children closing =>
      openingTag name attrs ++ (renderIn children ++ closingTag closing)

def renderIn : List Node → Str
  | [] => []
  | node :: nodes => render node ++ renderIn nodes

end

theorem renderIn_append (xs ys : List Node) :
    renderIn (xs ++ ys) = renderIn xs ++ renderIn ys := by
  induction xs with
  | nil =>
      rfl
  | cons x xs ih =>
      rw [List.cons_append, renderIn, renderIn, ih, List.append_assoc]

mutual

/-- The names in the tags, in lower case. -/
def names : Node → List Str
  | .text _ => []
  | .unclosed name _ => [toAsciiLowercase name]
  | .element name _ children _ => toAsciiLowercase name :: namesIn children

def namesIn : List Node → List Str
  | [] => []
  | node :: nodes => names node ++ namesIn nodes

end

/-- The elements `strip_elements` is to remove. -/
def sections : List Str :=
  ["script".toList, "style".toList, "head".toList]

/-- A tag name, such as a letter with letters and digits after it. -/
structure TagName (name : Str) : Prop where
  ne_nil : name ≠ []
  plain : ∀ c ∈ name, c ≠ '<' ∧ c ≠ '>' ∧ c ≠ '/' ∧ isWhitespace c = false

/-- What stands in a tag after the name, set off from it. -/
structure Attributes (attrs : Str) : Prop where
  setOff : ∀ c ∈ attrs.head?, isWhitespace c = true ∨ c = '/'
  plain : ∀ c ∈ attrs, c ≠ '<' ∧ c ≠ '>'

mutual

/-- The node is well written: each script, style and head element is closed, and inside
of it no element of the same name is. -/
def Written : Node → Prop
  | .text s => ∀ c ∈ s, c ≠ '<' ∧ c ≠ '>' ∧ c ≠ '&'
  | .unclosed name attrs =>
      TagName name ∧ toAsciiLowercase name ∉ sections ∧ Attributes attrs
  | .element name attrs children closing =>
      TagName name ∧ TagName closing ∧ toAsciiLowercase closing = toAsciiLowercase name ∧
        Attributes attrs ∧
        (toAsciiLowercase name ∈ sections → toAsciiLowercase name ∉ namesIn children) ∧
        WrittenIn children

def WrittenIn : List Node → Prop
  | [] => True
  | node :: nodes => Written node ∧ WrittenIn nodes

end

-- quantifiers over the characters of a text are decided by going through the text
instance {name : Str} : Decidable (TagName name) :=
  have : Decidable (∀ c ∈ name, c ≠ '<' ∧ c ≠ '>' ∧ c ≠ '/' ∧ isWhitespace c = false) :=
    List.decidableBAll _ name
  decidable_of_iff (name ≠ [] ∧ ∀ c ∈ name, c ≠ '<' ∧ c ≠ '>' ∧ c ≠ '/' ∧ isWhitespace c = false)
    ⟨fun h => ⟨h.1, h.2⟩, fun h => ⟨h.ne_nil, h.plain⟩⟩

instance {attrs : Str} : Decidable (Attributes attrs) :=
  have : Decidable (∀ c ∈ attrs.head?, isWhitespace c = true ∨ c = '/') :=
    match attrs with
    | [] => .isTrue (by simp)
    | c :: _ => decidable_of_iff (isWhitespace c = true ∨ c = '/') (by simp)
  have : Decidable (∀ c ∈ attrs, c ≠ '<' ∧ c ≠ '>') := List.decidableBAll _ attrs
  decidable_of_iff ((∀ c ∈ attrs.head?, isWhitespace c = true ∨ c = '/') ∧
      ∀ c ∈ attrs, c ≠ '<' ∧ c ≠ '>')
    ⟨fun h => ⟨h.1, h.2⟩, fun h => ⟨h.setOff, h.plain⟩⟩

mutual

def decidableWritten : (node : Node) → Decidable (Written node)
  | .text s => List.decidableBAll (fun c => c ≠ '<' ∧ c ≠ '>' ∧ c ≠ '&') s
  | .unclosed name attrs =>
      inferInstanceAs
        (Decidable (TagName name ∧ toAsciiLowercase name ∉ sections ∧ Attributes attrs))
  | .element name attrs children closing =>
      have := decidableWrittenIn children
      inferInstanceAs (Decidable (TagName name ∧ TagName closing ∧
        toAsciiLowercase closing = toAsciiLowercase name ∧ Attributes attrs ∧
        (toAsciiLowercase name ∈ sections → toAsciiLowercase name ∉ namesIn children) ∧
        WrittenIn children))

def decidableWrittenIn : (nodes : List Node) → Decidable (WrittenIn nodes)
  | [] => .isTrue trivial
  | node :: nodes =>
      have := decidableWritten node
      have := decidableWrittenIn nodes
      inferInstanceAs (Decidable (Written node ∧ WrittenIn nodes))

end

instance (node : Node) : Decidable (Written node) := decidableWritten node

instance (nodes : List Node) : Decidable (WrittenIn nodes) := decidableWrittenIn nodes

/-- No name merely begins with `name`. -/
def NoLookalike (name : Str) (doc : List Node) : Prop :=
  ∀ other ∈ namesIn doc, name <+: other → other = name

instance (name : Str) (doc : List Node) : Decidable (NoLookalike name doc) :=
  inferInstanceAs (Decidable (∀ other ∈ namesIn doc, name <+: other → other = name))

mutual

/-- The document without the elements of the given name. -/
def prune (name : Str) : Node → List Node
  | .text s => [.text s]
  | .unclosed other attrs => [.unclosed other attrs]
  | .element other attrs children closing =>
      if toAsciiLowercase other = name then []
      else [.element other attrs (pruneIn name children) closing]

def pruneIn (name : Str) : List Node → List Node
  | [] => []
  | node :: nodes => prune name node ++ pruneIn name nodes

end

/-- A letter with letters and digits after it names a tag. -/
theorem tagName_of_letters {c : Char} {cs : Str} (hc : c.isAlpha = true)
    (hcs : ∀ d ∈ cs, d.isAlphanum = true) : TagName (c :: cs) := by
  refine ⟨List.cons_ne_nil c cs, ?_⟩
  intro d hd
  apply plain_of_isAlphanum
  rcases List.mem_cons.mp hd with rfl | hd
  · rw [Char.isAlphanum, hc, Bool.true_or]
  · exact hcs d hd

/-! ## One pass -/

section Pass

variable {name : Str}

theorem isLower_of_mem_sections (hname : name ∈ sections) : ∀ d ∈ name, d.isLower = true := by
  have hall : ∀ m ∈ sections, m.all Char.isLower = true := by
    decide
  intro d hd
  exact List.all_eq_true.mp (hall name hname) d hd

theorem ne_nil_of_mem_sections (hname : name ∈ sections) : name ≠ [] := by
  rintro rfl
  exact absurd hname (by decide)

/-- What follows the name in a tag sets it off. -/
theorem begins_iff (hname : name ∈ sections) {other attrs rest : Str}
    (hattrs : Attributes attrs) :
    name <+: toAsciiLowercase (other ++ (attrs ++ '>' :: rest)) ↔
      name <+: toAsciiLowercase other := by
  obtain ⟨d, v, hsplit, hd⟩ : ∃ d v, attrs ++ '>' :: rest = d :: v ∧ d.toLower ∉ name := by
    have hletter : ∀ d : Char, d.isUpper = false → d.isLower = false → d.toLower ∉ name := by
      intro d hupper hlower hmem
      rw [(toLower_eq_iff hlower hupper).mpr rfl] at hmem
      rw [isLower_of_mem_sections hname d hmem] at hlower
      cases hlower
    cases attrs with
    | nil => exact ⟨'>', rest, rfl, hletter '>' rfl rfl⟩
    | cons c cs =>
        refine ⟨c, cs ++ '>' :: rest, rfl, ?_⟩
        rcases hattrs.setOff c rfl with hspace | rfl
        · exact hletter c (not_letter_of_isWhitespace hspace).1
            (not_letter_of_isWhitespace hspace).2
        · exact hletter '/' rfl rfl
  rw [hsplit, toAsciiLowercase_append, toAsciiLowercase_cons]
  exact prefix_append_cons_iff hd

theorem attributes_nil : Attributes [] := by
  constructor
  · intro c hc
    cases hc
  · intro c hc
    cases hc

theorem not_mem_openingTag {other attrs : Str} (hother : TagName other)
    (hattrs : Attributes attrs) : '<' ∉ toAsciiLowercase (other ++ (attrs ++ ['>'])) := by
  rw [mem_toAsciiLowercase rfl rfl]
  simp only [List.mem_append, List.mem_singleton, not_or]
  refine ⟨?_, ?_, by decide⟩
  · intro hmem
    exact (hother.plain _ hmem).1 rfl
  · intro hmem
    exact (hattrs.plain _ hmem).1 rfl

theorem not_mem_closingTag {closing : Str} (hclosing : TagName closing) :
    '<' ∉ toAsciiLowercase ('/' :: (closing ++ ['>'])) := by
  rw [mem_toAsciiLowercase rfl rfl]
  simp only [List.mem_cons, List.mem_append, not_or]
  refine ⟨by decide, ?_, by decide, by simp⟩
  intro hmem
  exact (hclosing.plain _ hmem).1 rfl

theorem avoids_text {pat s rest : Str} (hs : '<' ∉ s) :
    Avoids ('<' :: pat) (toAsciiLowercase s) rest := by
  apply avoids_of_not_mem
  rw [mem_toAsciiLowercase rfl rfl]
  exact hs

theorem avoids_opener_openingTag (hname : name ∈ sections) {other attrs : Str}
    (hother : TagName other) (hattrs : Attributes attrs)
    (hnot : ¬ name <+: toAsciiLowercase other) (rest : Str) :
    Avoids (opener name) (toAsciiLowercase (openingTag other attrs)) (toAsciiLowercase rest) := by
  refine ⟨?_, avoids_of_not_mem (not_mem_openingTag hother hattrs)⟩
  intro hprefix
  have hbegins : name <+:
      toAsciiLowercase (other ++ (attrs ++ ['>'])) ++ toAsciiLowercase rest :=
    (List.cons_prefix_cons.mp hprefix).2
  rw [← toAsciiLowercase_append, List.append_assoc, List.append_assoc, List.singleton_append,
    begins_iff hname hattrs] at hbegins
  exact hnot hbegins

theorem avoids_opener_closingTag (hname : name ∈ sections) {closing : Str}
    (hclosing : TagName closing) (rest : Str) :
    Avoids (opener name) (toAsciiLowercase (closingTag closing)) (toAsciiLowercase rest) := by
  refine ⟨?_, avoids_of_not_mem (not_mem_closingTag hclosing)⟩
  intro hprefix
  have hbegins := (List.cons_prefix_cons.mp hprefix).2
  obtain ⟨d, ds, rfl⟩ := List.exists_cons_of_ne_nil (ne_nil_of_mem_sections hname)
  have hslash : d = '/' := (List.cons_prefix_cons.mp hbegins).1
  have hlower := isLower_of_mem_sections hname d List.mem_cons_self
  rw [hslash] at hlower
  cases hlower

theorem avoids_closer_openingTag {other attrs : Str} (hother : TagName other)
    (hattrs : Attributes attrs) (rest : Str) :
    Avoids (closer name) (toAsciiLowercase (openingTag other attrs)) (toAsciiLowercase rest) := by
  refine ⟨?_, avoids_of_not_mem (not_mem_openingTag hother hattrs)⟩
  intro hprefix
  have hbegins := (List.cons_prefix_cons.mp hprefix).2
  obtain ⟨d, ds, rfl⟩ := List.exists_cons_of_ne_nil hother.ne_nil
  have hslash : '/' = d.toLower := (List.cons_prefix_cons.mp hbegins).1
  have hd := (toLower_eq_iff rfl rfl).mp hslash.symm
  exact (hother.plain d List.mem_cons_self).2.2.1 hd

theorem avoids_closer_closingTag (hname : name ∈ sections) {closing : Str}
    (hclosing : TagName closing) (hnot : ¬ name <+: toAsciiLowercase closing) (rest : Str) :
    Avoids (closer name) (toAsciiLowercase (closingTag closing)) (toAsciiLowercase rest) := by
  refine ⟨?_, avoids_of_not_mem (not_mem_closingTag hclosing)⟩
  intro hprefix
  have hbegins : name <+: toAsciiLowercase (closing ++ ['>']) ++ toAsciiLowercase rest :=
    (List.cons_prefix_cons.mp (List.cons_prefix_cons.mp hprefix).2).2
  rw [← toAsciiLowercase_append, List.append_assoc, List.singleton_append] at hbegins
  exact hnot ((begins_iff hname attributes_nil).mp hbegins)

mutual

/-- No closing tag is found in a node that has no element of such a name. -/
theorem avoids_closer_render (hname : name ∈ sections) : (node : Node) → Written node →
    (∀ other ∈ names node, ¬ name <+: other) → (rest : Str) →
    Avoids (closer name) (toAsciiLowercase (render node)) (toAsciiLowercase rest)
  | .text s, hwritten, _, rest => by
      apply avoids_text
      intro hmem
      exact (hwritten _ hmem).1 rfl
  | .unclosed other attrs, hwritten, _, rest =>
      avoids_closer_openingTag hwritten.1 hwritten.2.2 rest
  | .element other attrs children closing, hwritten, hnone, rest => by
      obtain ⟨hother, hclosing, hsame, hattrs, _, hchildren⟩ := hwritten
      rw [render, toAsciiLowercase_append, toAsciiLowercase_append, avoids_append, avoids_append]
      refine ⟨?_, ?_, ?_⟩
      · rw [← toAsciiLowercase_append, ← toAsciiLowercase_append]
        exact avoids_closer_openingTag hother hattrs _
      · rw [← toAsciiLowercase_append]
        refine avoids_closer_renderIn hname children hchildren ?_ _
        intro inner hinner
        exact hnone inner (List.mem_cons_of_mem _ hinner)
      · refine avoids_closer_closingTag hname hclosing ?_ rest
        rw [hsame]
        exact hnone _ List.mem_cons_self

theorem avoids_closer_renderIn (hname : name ∈ sections) : (nodes : List Node) →
    WrittenIn nodes → (∀ other ∈ namesIn nodes, ¬ name <+: other) → (rest : Str) →
    Avoids (closer name) (toAsciiLowercase (renderIn nodes)) (toAsciiLowercase rest)
  | [], _, _, _ => by
      trivial
  | node :: nodes, hwritten, hnone, rest => by
      rw [renderIn, toAsciiLowercase_append, avoids_append, ← toAsciiLowercase_append]
      constructor
      · refine avoids_closer_render hname node hwritten.1 ?_ _
        intro other hother
        exact hnone other (List.mem_append_left _ hother)
      · refine avoids_closer_renderIn hname nodes hwritten.2 ?_ rest
        intro other hother
        exact hnone other (List.mem_append_right _ hother)

end

/-- An element whose name begins with the name is removed from its opening tag to its
closing tag. -/
theorem removeElement_element (hname : name ∈ sections) {other attrs closing : Str}
    {children : List Node} (hwritten : Written (.element other attrs children closing))
    (hbegins : name <+: toAsciiLowercase other)
    (hnone : ∀ inner ∈ namesIn children, ¬ name <+: inner) (rest : Str) :
    removeElement (render (.element other attrs children closing) ++ rest) name =
      removeElement rest name := by
  obtain ⟨hname', hclosing, hsame, hattrs, _, hchildren⟩ := hwritten
  have hsplit : render (.element other attrs children closing) ++ rest =
      (openingTag other attrs ++ renderIn children) ++
        (('<' :: '/' :: closing) ++ '>' :: rest) := by
    simp [render, closingTag]
  rw [hsplit]
  apply removeElement_section
  · have hopens : opener name <+: '<' :: toAsciiLowercase other :=
      List.cons_prefix_cons.mpr ⟨rfl, hbegins⟩
    refine hopens.trans ?_
    simp [openingTag, toAsciiLowercase]
  · rw [toAsciiLowercase_append, avoids_append, ← toAsciiLowercase_append]
    constructor
    · exact avoids_closer_openingTag hname' hattrs _
    · exact avoids_closer_renderIn hname children hchildren hnone _
  · rw [← hsame] at hbegins
    have hcloses : closer name <+: '<' :: '/' :: toAsciiLowercase closing :=
      List.cons_prefix_cons.mpr ⟨rfl, List.cons_prefix_cons.mpr ⟨rfl, hbegins⟩⟩
    refine hcloses.trans ?_
    simp [toAsciiLowercase]
  · simp only [List.mem_cons, not_or]
    refine ⟨by decide, by decide, ?_⟩
    intro hmem
    exact (hclosing.plain _ hmem).2.1 rfl

mutual

/-- A pass removes the elements of its name, if no other name begins with it. -/
theorem removeElement_node (hname : name ∈ sections) : (node : Node) → Written node →
    (∀ other ∈ names node, name <+: other → other = name) → (rest : Str) →
    removeElement (render node ++ rest) name =
      renderIn (prune name node) ++ removeElement rest name
  | .text s, hwritten, _, rest => by
      have hs : '<' ∉ s := by
        intro hmem
        exact (hwritten _ hmem).1 rfl
      rw [render, removeElement_append (avoids_text hs)]
      simp [prune, renderIn, render]
  | .unclosed other attrs, hwritten, hclear, rest => by
      have hnot : ¬ name <+: toAsciiLowercase other := by
        intro hbegins
        apply hwritten.2.1
        rw [hclear _ List.mem_cons_self hbegins]
        exact hname
      rw [render, removeElement_append
        (avoids_opener_openingTag hname hwritten.1 hwritten.2.2 hnot rest)]
      simp [prune, renderIn, render]
  | .element other attrs children closing, hwritten, hclear, rest => by
      have hown := hwritten
      obtain ⟨hother, hclosing, hsame, hattrs, hinside, hchildren⟩ := hwritten
      rw [names] at hclear
      by_cases hremoved : toAsciiLowercase other = name
      · have hnone : ∀ inner ∈ namesIn children, ¬ name <+: inner := by
          intro inner hinner hbegins
          obtain rfl := hclear inner (List.mem_cons_of_mem _ hinner) hbegins
          rw [hremoved] at hinside
          exact hinside hname hinner
        have hbegins : name <+: toAsciiLowercase other := by
          rw [hremoved]
        rw [removeElement_element hname hown hbegins hnone, prune, if_pos hremoved]
        rfl
      · have hnot : ¬ name <+: toAsciiLowercase other := by
          intro hbegins
          exact hremoved (hclear _ List.mem_cons_self hbegins)
        have hsplit : render (.element other attrs children closing) ++ rest =
            openingTag other attrs ++ (renderIn children ++ (closingTag closing ++ rest)) := by
          simp [render]
        rw [hsplit, removeElement_append (avoids_opener_openingTag hname hother hattrs hnot _),
          removeElement_nodes hname children hchildren
            (fun inner hinner => hclear inner (List.mem_cons_of_mem _ hinner)),
          removeElement_append (avoids_opener_closingTag hname hclosing rest), prune,
          if_neg hremoved]
        simp [renderIn, render]

theorem removeElement_nodes (hname : name ∈ sections) : (nodes : List Node) →
    WrittenIn nodes → NoLookalike name nodes → (rest : Str) →
    removeElement (renderIn nodes ++ rest) name =
      renderIn (pruneIn name nodes) ++ removeElement rest name
  | [], _, _, _ => by
      rfl
  | node :: nodes, hwritten, hclear, rest => by
      rw [renderIn, List.append_assoc,
        removeElement_node hname node hwritten.1
          (fun other hother => hclear other (List.mem_append_left _ hother)),
        removeElement_nodes hname nodes hwritten.2
          (fun other hother => hclear other (List.mem_append_right _ hother)),
        pruneIn, renderIn_append, List.append_assoc]

end

/-- **A pass removes the elements of its name from a document**, if no other element has
a name that begins with it. -/
theorem removeElement_render (hname : name ∈ sections) {doc : List Node}
    (hwritten : WrittenIn doc) (hclear : NoLookalike name doc) :
    removeElement (renderIn doc) name = renderIn (pruneIn name doc) := by
  have hpass := removeElement_nodes hname doc hwritten hclear []
  rw [List.append_nil, removeElement_nil, List.append_nil] at hpass
  exact hpass

end Pass

end Smtp
end ChimneyPost
