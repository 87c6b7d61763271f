import ChimneyPost.Smtp.Entities
import ChimneyPost.Smtp.Html

/-!
# Visible text

What a reader sees of a document is its text outside of the script, style and head
elements, on lines broken where the tags say.  From a document in which no pass of
`strip_elements` finds a lookalike, `html_to_text` keeps the visible text and nothing
else (`htmlToText_render`).
-/

namespace ChimneyPost
namespace Smtp

/-! ## What is left -/

mutual

/-- The text outside of script, style and head elements, and a newline for each tag that
breaks the line. -/
def visible : Node → Str
  | .text s => s
  | .unclosed name _ => tagText name
  | .element name _ children closing =>
      if toAsciiLowercase name ∈ sections then []
      else tagText name ++ (visibleIn children ++ tagText closing)

def visibleIn : List Node → Str
  | [] => []
  | node :: nodes => visible node ++ visibleIn nodes

end

theorem visibleIn_append (xs ys : List Node) :
    visibleIn (xs ++ ys) = visibleIn xs ++ visibleIn ys := by
  induction xs with
  | nil =>
      rfl
  | cons x xs ih =>
      rw [List.cons_append, visibleIn, visibleIn, ih, List.append_assoc]

theorem namesIn_append (xs ys : List Node) :
    namesIn (xs ++ ys) = namesIn xs ++ namesIn ys := by
  induction xs with
  | nil =>
      rfl
  | cons x xs ih =>
      rw [List.cons_append, namesIn, namesIn, ih, List.append_assoc]

theorem writtenIn_append {xs ys : List Node} :
    WrittenIn (xs ++ ys) ↔ WrittenIn xs ∧ WrittenIn ys := by
  induction xs with
  | nil =>
      simp [WrittenIn]
  | cons x xs ih =>
      rw [List.cons_append, WrittenIn, WrittenIn, ih, and_assoc]

section Prune

variable {name : Str}

mutual

/-- Pruning adds no names. -/
theorem mem_names_prune : (node : Node) → ∀ other ∈ namesIn (prune name node),
    other ∈ names node
  | .text s => by
      intro other hother
      cases hother
  | .unclosed other' attrs => by
      intro other hother
      rw [prune, namesIn, namesIn, List.append_nil] at hother
      exact hother
  | .element other' attrs children closing => by
      intro other hother
      rw [prune] at hother
      split_ifs at hother
      · cases hother
      · rw [namesIn, names, namesIn, List.append_nil] at hother
        rcases List.mem_cons.mp hother with rfl | hother
        · exact List.mem_cons_self
        · exact List.mem_cons_of_mem _ (mem_namesIn_prune children other hother)

theorem mem_namesIn_prune : (nodes : List Node) → ∀ other ∈ namesIn (pruneIn name nodes),
    other ∈ namesIn nodes
  | [] => by
      intro other hother
      cases hother
  | node :: nodes => by
      intro other hother
      rw [pruneIn, namesIn_append] at hother
      rcases List.mem_append.mp hother with hother | hother
      · exact List.mem_append_left _ (mem_names_prune node other hother)
      · exact List.mem_append_right _ (mem_namesIn_prune nodes other hother)

end

mutual

/-- Pruning removes the name. -/
theorem not_mem_names_prune (hname : name ∈ sections) : (node : Node) → Written node →
    name ∉ namesIn (prune name node)
  | .text s, _ => by
      simp [prune, namesIn, names]
  | .unclosed other attrs, hwritten => by
      rw [prune, namesIn, names, namesIn, List.append_nil, List.mem_singleton]
      rintro rfl
      exact hwritten.2.1 hname
  | .element other attrs children closing, hwritten => by
      rw [prune]
      split_ifs with hremoved
      · simp [namesIn]
      · rw [namesIn, names, namesIn, List.append_nil, List.mem_cons, not_or]
        exact ⟨Ne.symm hremoved,
          not_mem_namesIn_prune hname children hwritten.2.2.2.2.2⟩

theorem not_mem_namesIn_prune (hname : name ∈ sections) : (nodes : List Node) →
    WrittenIn nodes → name ∉ namesIn (pruneIn name nodes)
  | [], _ => by
      simp [pruneIn, namesIn]
  | node :: nodes, hwritten => by
      rw [pruneIn, namesIn_append, List.mem_append, not_or]
      exact ⟨not_mem_names_prune hname node hwritten.1,
        not_mem_namesIn_prune hname nodes hwritten.2⟩

end

mutual

theorem written_prune : (node : Node) → Written node → WrittenIn (prune name node)
  | .text s, hwritten => ⟨hwritten, trivial⟩
  | .unclosed other attrs, hwritten => ⟨hwritten, trivial⟩
  | .element other attrs children closing, hwritten => by
      obtain ⟨hother, hclosing, hsame, hattrs, hinside, hchildren⟩ := hwritten
      rw [prune]
      split_ifs with hremoved
      · trivial
      · refine ⟨⟨hother, hclosing, hsame, hattrs, ?_, writtenIn_prune children hchildren⟩,
          trivial⟩
        intro hsection hmem
        exact hinside hsection (mem_namesIn_prune children _ hmem)

theorem writtenIn_prune : (nodes : List Node) → WrittenIn nodes →
    WrittenIn (pruneIn name nodes)
  | [], _ => trivial
  | node :: nodes, hwritten =>
      writtenIn_append.mpr
        ⟨written_prune node hwritten.1, writtenIn_prune nodes hwritten.2⟩

end

mutual

/-- Nothing visible is pruned. -/
theorem visible_prune (hname : name ∈ sections) : (node : Node) →
    visibleIn (prune name node) = visible node
  | .text s => by
      simp [prune, visibleIn]
  | .unclosed other attrs => by
      simp [prune, visibleIn]
  | .element other attrs children closing => by
      rw [prune]
      split_ifs with hremoved
      · rw [visible, hremoved, if_pos hname]
        rfl
      · rw [visibleIn, visible, visible, visibleIn, List.append_nil,
          visibleIn_prune hname children]

theorem visibleIn_prune (hname : name ∈ sections) : (nodes : List Node) →
    visibleIn (pruneIn name nodes) = visibleIn nodes
  | [] => by
      rfl
  | node :: nodes => by
      rw [pruneIn, visibleIn_append, visible_prune hname node, visibleIn_prune hname nodes,
        visibleIn]

end

end Prune

/-! ## Tags and entities -/

theorem stripTags_text {s rest : Str} (hs : '<' ∉ s) :
    stripTags none (s ++ rest) = s ++ stripTags none rest := by
  induction s with
  | nil =>
      rfl
  | cons c s ih =>
      rw [List.mem_cons, not_or] at hs
      rw [List.cons_append, stripTags, if_neg (Ne.symm hs.1), ih hs.2]
      rfl

theorem stripTags_inside {tag rest : Str} (htag : '>' ∉ tag) (read : Str) :
    stripTags (some read) (tag ++ '>' :: rest) =
      tagText (read ++ tag) ++ stripTags none rest := by
  induction tag generalizing read with
  | nil =>
      rw [List.nil_append, stripTags, if_pos rfl, List.append_nil]
  | cons c tag ih =>
      rw [List.mem_cons, not_or] at htag
      rw [List.cons_append, stripTags, if_neg (Ne.symm htag.1), ih htag.2, List.append_assoc]
      rfl

theorem stripTags_tag {tag rest : Str} (htag : '>' ∉ tag) :
    stripTags none ('<' :: (tag ++ '>' :: rest)) = tagText tag ++ stripTags none rest := by
  rw [stripTags, if_pos rfl, stripTags_inside htag, List.nil_append]

/-- The tag breaks the line as its name does. -/
theorem tagText_opening {other attrs : Str} (hother : TagName other)
    (hattrs : Attributes attrs) : tagText (other ++ attrs) = tagText other := by
  have hplain : ∀ c ∈ other, (!(isWhitespace c || c == '/' || c == '>')) = true := by
    intro c hc
    obtain ⟨_, hgt, hslash, hspace⟩ := hother.plain c hc
    simp [hgt, hslash, hspace]
  have hend : attrs.takeWhile (fun c => !(isWhitespace c || c == '/' || c == '>')) = [] := by
    cases attrs with
    | nil =>
        rfl
    | cons c cs =>
        rw [List.takeWhile_cons_of_neg]
        rcases hattrs.setOff c rfl with hspace | rfl
        · simp [hspace]
        · simp
  have hslash : ∀ rest : Str, (other ++ rest).dropWhile (fun c => decide (c = '/')) =
      other ++ rest := by
    intro rest
    obtain ⟨d, ds, rfl⟩ := List.exists_cons_of_ne_nil hother.ne_nil
    rw [List.cons_append, List.dropWhile_cons_of_neg]
    simpa using (hother.plain d List.mem_cons_self).2.2.1
  have hbare := hslash []
  rw [List.append_nil] at hbare
  have hname : ∀ rest : Str, (other ++ rest).takeWhile
      (fun c => !(isWhitespace c || c == '/' || c == '>')) =
      other ++ rest.takeWhile (fun c => !(isWhitespace c || c == '/' || c == '>')) := by
    intro rest
    exact List.takeWhile_append_of_pos hplain
  have halone := hname []
  rw [List.append_nil, List.takeWhile_nil] at halone
  rw [tagText, tagText, breaksLine, breaksLine, hslash, hbare, hname, hend, halone]

theorem tagText_closing (closing : Str) : tagText ('/' :: closing) = tagText closing := by
  rw [tagText, tagText, breaksLine, breaksLine, List.dropWhile_cons_of_pos (by decide)]

theorem stripTags_openingTag {other attrs : Str} (hother : TagName other)
    (hattrs : Attributes attrs) (rest : Str) :
    stripTags none (openingTag other attrs ++ rest) = tagText other ++ stripTags none rest := by
  have htag : '>' ∉ other ++ attrs := by
    rw [List.mem_append, not_or]
    constructor
    · intro hmem
      exact (hother.plain _ hmem).2.1 rfl
    · intro hmem
      exact (hattrs.plain _ hmem).2 rfl
  have hsplit : openingTag other attrs ++ rest = '<' :: ((other ++ attrs) ++ '>' :: rest) := by
    simp [openingTag]
  rw [hsplit, stripTags_tag htag, tagText_opening hother hattrs]

theorem stripTags_closingTag {closing : Str} (hclosing : TagName closing) (rest : Str) :
    stripTags none (closingTag closing ++ rest) = tagText closing ++ stripTags none rest := by
  have htag : '>' ∉ '/' :: closing := by
    rw [List.mem_cons, not_or]
    refine ⟨by decide, ?_⟩
    intro hmem
    exact (hclosing.plain _ hmem).2.1 rfl
  have hsplit : closingTag closing ++ rest = '<' :: (('/' :: closing) ++ '>' :: rest) := by
    simp [closingTag]
  rw [hsplit, stripTags_tag htag, tagText_closing]

mutual

/-- Stripping the tags of a document without sections leaves what is visible. -/
theorem stripTags_node : (node : Node) → Written node → (∀ other ∈ names node,
    other ∉ sections) → (rest : Str) →
    stripTags none (render node ++ rest) = visible node ++ stripTags none rest
  | .text s, hwritten, _, rest => by
      apply stripTags_text
      intro hmem
      exact (hwritten _ hmem).1 rfl
  | .unclosed other attrs, hwritten, _, rest => by
      rw [render, visible, stripTags_openingTag hwritten.1 hwritten.2.2]
  | .element other attrs children closing, hwritten, hsections, rest => by
      obtain ⟨hother, hclosing, _, hattrs, _, hchildren⟩ := hwritten
      have hown : toAsciiLowercase other ∉ sections := hsections _ List.mem_cons_self
      rw [render, visible, if_neg hown, List.append_assoc, List.append_assoc,
        stripTags_openingTag hother hattrs,
        stripTags_nodes children hchildren
          (fun inner hinner => hsections inner (List.mem_cons_of_mem _ hinner)),
        stripTags_closingTag hclosing, List.append_assoc, List.append_assoc]

theorem stripTags_nodes : (nodes : List Node) → WrittenIn nodes → (∀ other ∈ namesIn nodes,
    other ∉ sections) → (rest : Str) →
    stripTags none (renderIn nodes ++ rest) = visibleIn nodes ++ stripTags none rest
  | [], _, _, _ => by
      rfl
  | node :: nodes, hwritten, hsections, rest => by
      rw [renderIn, visibleIn, List.append_assoc,
        stripTags_node node hwritten.1
          (fun other hother => hsections other (List.mem_append_left _ hother)),
        stripTags_nodes nodes hwritten.2
          (fun other hother => hsections other (List.mem_append_right _ hother)),
        List.append_assoc]

end

theorem not_mem_tagText (tag : Str) : '&' ∉ tagText tag := by
  rw [tagText]
  split_ifs
  · decide
  · simp

mutual

theorem not_mem_visible : (node : Node) → Written node → '&' ∉ visible node
  | .text s, hwritten => by
      intro hmem
      exact (hwritten _ hmem).2.2 rfl
  | .unclosed other attrs, _ => not_mem_tagText other
  | .element other attrs children closing, hwritten => by
      rw [visible]
      split_ifs
      · simp
      · simp only [List.mem_append, not_or]
        exact ⟨not_mem_tagText other, not_mem_visibleIn children hwritten.2.2.2.2.2,
          not_mem_tagText closing⟩

theorem not_mem_visibleIn : (nodes : List Node) → WrittenIn nodes → '&' ∉ visibleIn nodes
  | [], _ => by
      simp [visibleIn]
  | node :: nodes, hwritten => by
      rw [visibleIn, List.mem_append, not_or]
      exact ⟨not_mem_visible node hwritten.1, not_mem_visibleIn nodes hwritten.2⟩

end

/-! ## All passes -/

/-- No pass finds an element whose name merely begins with the name it looks for. -/
def Clear : List Str → List Node → Prop
  | [], _ => True
  | name :: names, doc => NoLookalike name doc ∧ Clear names (pruneIn name doc)

instance decidableClear : (passes : List Str) → (doc : List Node) → Decidable (Clear passes doc)
  | [], _ => .isTrue trivial
  | name :: passes, doc =>
      have := decidableClear passes (pruneIn name doc)
      inferInstanceAs (Decidable (NoLookalike name doc ∧ Clear passes (pruneIn name doc)))

def pruneAll (names : List Str) (doc : List Node) : List Node :=
  names.foldl (fun doc name => pruneIn name doc) doc

/-- What `html_to_text` should make of a document. -/
def Reduced (doc : List Node) : Prop :=
  htmlToText (renderIn doc) = tidy (visibleIn doc)

section Passes

variable {doc : List Node} {passes : List Str}

theorem stripElements_render (hpasses : ∀ name ∈ passes, name ∈ sections)
    (hwritten : WrittenIn doc) (hclear : Clear passes doc) :
    stripElements (renderIn doc) passes = renderIn (pruneAll passes doc) := by
  induction passes generalizing doc with
  | nil =>
      rfl
  | cons name passes ih =>
      have hpass := removeElement_render (hpasses name List.mem_cons_self) hwritten hclear.1
      rw [stripElements, List.foldl_cons, hpass]
      exact ih (fun other hother => hpasses other (List.mem_cons_of_mem _ hother))
        (writtenIn_prune doc hwritten) hclear.2

theorem writtenIn_pruneAll (passes : List Str) (hwritten : WrittenIn doc) :
    WrittenIn (pruneAll passes doc) := by
  induction passes generalizing doc with
  | nil =>
      exact hwritten
  | cons name passes ih =>
      exact ih (writtenIn_prune doc hwritten)

theorem visibleIn_pruneAll (hpasses : ∀ name ∈ passes, name ∈ sections) :
    visibleIn (pruneAll passes doc) = visibleIn doc := by
  induction passes generalizing doc with
  | nil =>
      rfl
  | cons name passes ih =>
      rw [← visibleIn_prune (hpasses name List.mem_cons_self) doc]
      exact ih (fun other hother => hpasses other (List.mem_cons_of_mem _ hother))

theorem mem_namesIn_pruneAll {other : Str} (h : other ∈ namesIn (pruneAll passes doc)) :
    other ∈ namesIn doc := by
  induction passes generalizing doc with
  | nil =>
      exact h
  | cons name passes ih =>
      exact mem_namesIn_prune doc other (ih h)

/-- The passes remove the names. -/
theorem not_mem_namesIn_pruneAll (hpasses : ∀ name ∈ passes, name ∈ sections)
    (hwritten : WrittenIn doc) {other : Str} (hother : other ∈ passes) :
    other ∉ namesIn (pruneAll passes doc) := by
  induction passes generalizing doc with
  | nil =>
      cases hother
  | cons name passes ih =>
      have hhead := hpasses name List.mem_cons_self
      rcases List.mem_cons.mp hother with rfl | hlater
      · intro hmem
        exact not_mem_namesIn_prune hhead doc hwritten (mem_namesIn_pruneAll hmem)
      · exact ih (fun m hm => hpasses m (List.mem_cons_of_mem _ hm))
          (writtenIn_prune doc hwritten) hlater

/-- What is left after the passes is turned into its visible text. -/
theorem htmlToText_of_stripElements {rest : List Node} (hwritten : WrittenIn rest)
    (hsections : ∀ other ∈ namesIn rest, other ∉ sections)
    (hstrip : stripElements (renderIn doc) sections = renderIn rest) :
    htmlToText (renderIn doc) = tidy (visibleIn rest) := by
  have htags := stripTags_nodes rest hwritten hsections []
  have hnil : stripTags none [] = [] := by
    rfl
  rw [List.append_nil, hnil, List.append_nil] at htags
  rw [sections] at hstrip
  rw [htmlToText, hstrip, htags, decodeEntities_of_not_mem (not_mem_visibleIn rest hwritten)]

/-- **The visible text is kept and no other**, from documents in which no pass finds a
lookalike. -/
theorem htmlToText_render (hwritten : WrittenIn doc) (hclear : Clear sections doc) :
    Reduced doc := by
  have hstrip := stripElements_render (fun _ h => h) hwritten hclear
  rw [Reduced, htmlToText_of_stripElements (writtenIn_pruneAll sections hwritten)
    (fun other hother hsection =>
      not_mem_namesIn_pruneAll (fun _ h => h) hwritten hsection hother) hstrip,
    visibleIn_pruneAll (fun _ h => h)]

end Passes

end Smtp
end ChimneyPost
