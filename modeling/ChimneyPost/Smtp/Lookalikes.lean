import ChimneyPost.Smtp.Visible

/-!
# Lookalikes

An element whose name merely begins with that of a section, such as a `<header>`, is
removed with its text, wherever in the document it stands.
-/

namespace ChimneyPost
namespace Smtp

/-! ## Lookalikes -/

/-- The name merely begins with the name of a section. -/
def Lookalike (other : Str) : Prop :=
  ∃ name ∈ sections, name <+: toAsciiLowercase other ∧ toAsciiLowercase other ≠ name

/-- No section has a name that begins with that of another. -/
theorem sections_apart : ∀ name ∈ sections, ∀ other ∈ sections, name <+: other → other = name := by
  decide

theorem Lookalike.not_mem {other : Str} (h : Lookalike other) :
    toAsciiLowercase other ∉ sections := by
  obtain ⟨name, hname, hbegins, hne⟩ := h
  intro hmem
  exact hne (sections_apart name hname _ hmem hbegins)

/-- The second document is the first with an element added somewhere outside of the
sections. -/
inductive Inserted (element : Node) : List Node → List Node → Prop
  | here (nodes : List Node) : Inserted element nodes (element :: nodes)
  | later (node : Node) {nodes nodes' : List Node} (h : Inserted element nodes nodes') :
      Inserted element (node :: nodes) (node :: nodes')
  | inside {name attrs closing : Str} {children children' : List Node} (nodes : List Node)
      (hname : toAsciiLowercase name ∉ sections) (h : Inserted element children children') :
      Inserted element (.element name attrs children closing :: nodes)
        (.element name attrs children' closing :: nodes)

/-- No tag among the nodes has a name that begins with that of a section. -/
def Bland (nodes : List Node) : Prop :=
  ∀ inner ∈ namesIn nodes, ∀ name ∈ sections, ¬ name <+: inner

instance (nodes : List Node) : Decidable (Bland nodes) :=
  inferInstanceAs (Decidable (∀ inner ∈ namesIn nodes, ∀ name ∈ sections, ¬ name <+: inner))

theorem Bland.prune {nodes : List Node} (h : Bland nodes) (name : Str) :
    Bland (pruneIn name nodes) := by
  intro inner hinner
  exact h inner (mem_namesIn_prune nodes inner hinner)

namespace Inserted

variable {element : Node} {doc doc' children : List Node} {other attrs closing name : Str}
  {passes : List Str}

theorem append_left (nodes : List Node) (h : Inserted element doc doc') :
    Inserted element (nodes ++ doc) (nodes ++ doc') := by
  induction nodes with
  | nil =>
      exact h
  | cons node nodes ih =>
      exact .later node ih

theorem mem_names (h : Inserted element doc doc') :
    ∀ inner ∈ namesIn doc', inner ∈ namesIn doc ∨ inner ∈ names element := by
  induction h with
  | here nodes =>
      intro inner hinner
      rw [namesIn] at hinner
      exact (List.mem_append.mp hinner).symm
  | later node h ih =>
      intro inner hinner
      rw [namesIn, List.mem_append] at hinner ⊢
      rcases hinner with hinner | hinner
      · exact .inl (.inl hinner)
      · exact (ih inner hinner).imp_left .inr
  | inside nodes hname h ih =>
      intro inner hinner
      simp only [namesIn, names, List.mem_append, List.mem_cons] at hinner ⊢
      rcases hinner with (hinner | hinner) | hinner
      · exact .inl (.inl (.inl hinner))
      · exact (ih inner hinner).imp_left fun hmem => .inl (.inr hmem)
      · exact .inl (.inr hinner)

theorem written (h : Inserted element doc doc') (helement : Written element)
    (hwritten : WrittenIn doc) : WrittenIn doc' := by
  induction h with
  | here nodes =>
      exact ⟨helement, hwritten⟩
  | later node h ih =>
      exact ⟨hwritten.1, ih hwritten.2⟩
  | inside nodes hname h ih =>
      obtain ⟨⟨hopening, hclosing, hsame, hattrs, _, hchildren⟩, hnodes⟩ := hwritten
      refine ⟨⟨hopening, hclosing, hsame, hattrs, ?_, ih hchildren⟩, hnodes⟩
      intro hsection
      exact absurd hsection hname

/-- The text of the element is added to what is visible. -/
theorem solid_visible (h : Inserted element doc doc') :
    (solid (visibleIn doc')).length =
      (solid (visibleIn doc)).length + (solid (visible element)).length := by
  induction h with
  | here nodes =>
      rw [visibleIn, solid_append, List.length_append, Nat.add_comm]
  | later node h ih =>
      rw [visibleIn, visibleIn, solid_append, solid_append, List.length_append,
        List.length_append, ih, Nat.add_assoc]
  | inside nodes hname h ih =>
      simp only [visibleIn, visible, if_neg hname, solid_append, List.length_append, ih]
      omega

/-- An element without lookalikes adds none. -/
theorem noLookalike (h : Inserted (.element other attrs children closing) doc doc')
    (hname : name ∈ sections)
    (hother : name <+: toAsciiLowercase other → toAsciiLowercase other = name)
    (hbland : Bland children) (hclear : NoLookalike name doc) : NoLookalike name doc' := by
  intro inner hinner hprefix
  rcases h.mem_names inner hinner with hmem | hmem
  · exact hclear inner hmem hprefix
  · rw [names] at hmem
    rcases List.mem_cons.mp hmem with rfl | hmem
    · exact hother hprefix
    · exact absurd hprefix (hbland inner hmem name hname)

/-- A pass removes an element whose name begins with the name it looks for. -/
theorem removeElement_found (hname : name ∈ sections)
    (h : Inserted (.element other attrs children closing) doc doc')
    (helement : Written (.element other attrs children closing))
    (hbegins : name <+: toAsciiLowercase other)
    (hnone : ∀ inner ∈ namesIn children, ¬ name <+: inner)
    (hwritten : WrittenIn doc) (hclear : NoLookalike name doc) (rest : Str) :
    removeElement (renderIn doc' ++ rest) name =
      renderIn (pruneIn name doc) ++ removeElement rest name := by
  induction h generalizing rest with
  | here nodes =>
      rw [renderIn, List.append_assoc, removeElement_element hname helement hbegins hnone,
        removeElement_nodes hname nodes hwritten hclear]
  | later node h ih =>
      rw [renderIn, List.append_assoc,
        removeElement_node hname node hwritten.1
          (fun inner hinner => hclear inner (List.mem_append_left _ hinner)),
        ih hwritten.2 (fun inner hinner => hclear inner (List.mem_append_right _ hinner)),
        pruneIn, renderIn_append, List.append_assoc]
  | @inside outer attrs' closing' nodes nodes' after hsection h ih =>
      obtain ⟨⟨houter, hclosing, _, hattrs, _, hnodes⟩, hafter⟩ := hwritten
      have hne : toAsciiLowercase outer ≠ name := (ne_of_mem_of_not_mem hname hsection).symm
      have hnot : ¬ name <+: toAsciiLowercase outer := by
        intro hprefix
        exact hne (hclear _ List.mem_cons_self hprefix)
      have hinner : NoLookalike name nodes := fun inner hinner =>
        hclear inner (List.mem_append_left _ (List.mem_cons_of_mem _ hinner))
      have hothers : NoLookalike name after := fun inner hinner =>
        hclear inner (List.mem_append_right _ hinner)
      have hsplit : renderIn (.element outer attrs' nodes' closing' :: after) ++ rest =
          openingTag outer attrs' ++ (renderIn nodes' ++
            (closingTag closing' ++ (renderIn after ++ rest))) := by
        simp [renderIn, render]
      rw [hsplit, removeElement_append (avoids_opener_openingTag hname houter hattrs hnot _),
        ih hnodes hinner,
        removeElement_append (avoids_opener_closingTag hname hclosing _),
        removeElement_nodes hname after hafter hothers, pruneIn, prune, if_neg hne]
      simp [renderIn, render]

/-- An element of another name is still there after a pass. -/
theorem prune (hname : name ∈ sections)
    (h : Inserted (.element other attrs children closing) doc doc')
    (hne : toAsciiLowercase other ≠ name) :
    Inserted (.element other attrs (pruneIn name children) closing) (pruneIn name doc)
      (pruneIn name doc') := by
  induction h with
  | here nodes =>
      rw [pruneIn, Smtp.prune, if_neg hne]
      exact .here _
  | later node h ih =>
      exact ih.append_left _
  | @inside outer attrs' closing' nodes nodes' after hsection h ih =>
      have hkept : toAsciiLowercase outer ≠ name := (ne_of_mem_of_not_mem hname hsection).symm
      rw [pruneIn, pruneIn, Smtp.prune, Smtp.prune, if_neg hkept, if_neg hkept]
      exact .inside _ hsection ih

/-- An element of the name is not. -/
theorem prune_same (hname : name ∈ sections)
    (h : Inserted (.element other attrs children closing) doc doc')
    (hsame : toAsciiLowercase other = name) : pruneIn name doc' = pruneIn name doc := by
  induction h with
  | here nodes =>
      rw [pruneIn, Smtp.prune, if_pos hsame]
      rfl
  | later node h ih =>
      rw [pruneIn, pruneIn, ih]
  | @inside outer attrs' closing' nodes nodes' after hsection h ih =>
      have hkept : toAsciiLowercase outer ≠ name := (ne_of_mem_of_not_mem hname hsection).symm
      rw [pruneIn, pruneIn, Smtp.prune, Smtp.prune, if_neg hkept, if_neg hkept, ih]

/-- An element without lookalikes leaves the document clear. -/
theorem clear (h : Inserted (.element other attrs children closing) doc doc')
    (hpasses : ∀ name ∈ passes, name ∈ sections)
    (hother : ∀ name ∈ passes, name <+: toAsciiLowercase other → toAsciiLowercase other = name)
    (hbland : Bland children) (hclear : Clear passes doc) : Clear passes doc' := by
  induction passes generalizing doc doc' children with
  | nil =>
      trivial
  | cons name passes ih =>
      have hname := hpasses name List.mem_cons_self
      have hlater : ∀ m ∈ passes, m ∈ sections := fun m hm =>
        hpasses m (List.mem_cons_of_mem _ hm)
      obtain ⟨hnone, hrest⟩ := hclear
      refine ⟨h.noLookalike hname (hother name List.mem_cons_self) hbland hnone, ?_⟩
      by_cases hsame : toAsciiLowercase other = name
      · rw [h.prune_same hname hsame]
        exact hrest
      · exact ih (h.prune hname hsame) hlater
          (fun m hm => hother m (List.mem_cons_of_mem _ hm)) (hbland.prune name) hrest

/-- The passes remove an element that is a lookalike for one of them. -/
theorem stripElements_found (h : Inserted (.element other attrs children closing) doc doc')
    (hpasses : ∀ name ∈ passes, name ∈ sections)
    (hown : toAsciiLowercase other ∉ sections)
    (hbegins : ∃ name ∈ passes, name <+: toAsciiLowercase other)
    (helement : Written (.element other attrs children closing)) (hbland : Bland children)
    (hwritten : WrittenIn doc) (hclear : Clear passes doc) :
    stripElements (renderIn doc') passes = renderIn (pruneAll passes doc) := by
  induction passes generalizing doc doc' children with
  | nil =>
      obtain ⟨name, hname, _⟩ := hbegins
      cases hname
  | cons name passes ih =>
      have hname := hpasses name List.mem_cons_self
      have hlater : ∀ m ∈ passes, m ∈ sections := fun m hm =>
        hpasses m (List.mem_cons_of_mem _ hm)
      obtain ⟨hnone, hrest⟩ := hclear
      have hpruned : WrittenIn (pruneIn name doc) := writtenIn_prune doc hwritten
      rw [stripElements, List.foldl_cons, pruneAll, List.foldl_cons]
      by_cases hfound : name <+: toAsciiLowercase other
      · have hpass := h.removeElement_found hname helement hfound
          (fun inner hinner => hbland inner hinner name hname) hwritten hnone []
        rw [List.append_nil, removeElement_nil, List.append_nil] at hpass
        rw [hpass]
        exact stripElements_render hlater hpruned hrest
      · have hne : toAsciiLowercase other ≠ name := by
          rintro rfl
          exact hown hname
        have hnone' : NoLookalike name doc' :=
          h.noLookalike hname (fun hprefix => absurd hprefix hfound) hbland hnone
        rw [removeElement_render hname (h.written helement hwritten) hnone']
        obtain ⟨m, hm, hmbegins⟩ := hbegins
        rcases List.mem_cons.mp hm with rfl | hm
        · exact absurd hmbegins hfound
        · have helement' : Written (.element other attrs (pruneIn name children) closing) := by
            have hwhole : WrittenIn (Smtp.prune name (.element other attrs children closing)) :=
              written_prune _ helement
            rw [Smtp.prune, if_neg hne] at hwhole
            exact hwhole.1
          exact ih (h.prune hname hne) hlater ⟨m, hm, hmbegins⟩ helement' (hbland.prune name)
            hpruned hrest

/-- The text of a lookalike is lost. -/
theorem not_reduced (h : Inserted (.element other attrs children closing) doc doc')
    (hlookalike : Lookalike other)
    (helement : Written (.element other attrs children closing)) (hbland : Bland children)
    (hvisible : solid (visibleIn children) ≠ [])
    (hwritten : WrittenIn doc) (hclear : Clear sections doc) : ¬ Reduced doc' := by
  intro hreduced
  have hown := hlookalike.not_mem
  obtain ⟨name, hname, hbegins, _⟩ := hlookalike
  have hstrip := h.stripElements_found (fun _ h => h) hown ⟨name, hname, hbegins⟩ helement
    hbland hwritten hclear
  rw [Reduced, htmlToText_of_stripElements (writtenIn_pruneAll sections hwritten)
    (fun inner hinner hsection =>
      not_mem_namesIn_pruneAll (fun _ h => h) hwritten hsection hinner) hstrip,
    visibleIn_pruneAll (fun _ h => h)] at hreduced
  -- the reduction has fewer characters than are visible
  have hsolid := congrArg (fun text => (solid text).length) hreduced
  simp only [solid_tidy, h.solid_visible, visible, if_neg hown, solid_append,
    List.length_append] at hsolid
  have hpos := List.length_pos_of_ne_nil hvisible
  omega

end Inserted

/-! ## Reduction -/

/-- **The visible text is kept and no other**: of a document in which no pass finds a
lookalike.  An element with text in it that is added to such a document outside of the
sections is reduced with it if and only if its name does not merely begin with that of a
section. -/
theorem html_reduction {doc : List Node} (hwritten : WrittenIn doc)
    (hclear : Clear sections doc) :
    Reduced doc ∧
      ∀ (other attrs closing : Str) (children doc' : List Node),
        Written (.element other attrs children closing) → Bland children →
        solid (visibleIn children) ≠ [] →
        Inserted (.element other attrs children closing) doc doc' →
        (Reduced doc' ↔ ¬ Lookalike other) := by
  refine ⟨htmlToText_render hwritten hclear, ?_⟩
  intro other attrs closing children doc' helement hbland hvisible hinserted
  constructor
  · intro hreduced hlookalike
    exact hinserted.not_reduced hlookalike helement hbland hvisible hwritten hclear hreduced
  · intro hapart
    have hother : ∀ name ∈ sections, name <+: toAsciiLowercase other →
        toAsciiLowercase other = name := by
      intro name hname hbegins
      by_contra hne
      exact hapart ⟨name, hname, hbegins, hne⟩
    exact htmlToText_render (hinserted.written helement hwritten)
      (hinserted.clear (fun _ h => h) hother hbland hclear)

/-- A page with a style inside of its head and a line break in its body. -/
def diskPage (body : List Node) : List Node :=
  [.element "html".toList [] [
    .element "Head".toList [] [
      .element "style".toList [] [.text "p {}".toList] "style".toList] "head".toList,
    .element "body".toList " class=x".toList body "BODY".toList] "html".toList]

def diskBody : List Node :=
  [.element "script".toList [] [.text "load()".toList] "script".toList,
    .unclosed "br".toList [], .text "nas".toList]

theorem diskPage_reduced :
    Reduced (diskPage diskBody) ∧
      ¬ Reduced (diskPage
        (.element "header".toList [] [.text "Disk full".toList] "header".toList :: diskBody)) := by
  have hreduction := html_reduction (show WrittenIn (diskPage diskBody) by decide)
    (by decide)
  refine ⟨hreduction.1, ?_⟩
  have hheader := hreduction.2 "header".toList [] "header".toList [.text "Disk full".toList] _
    (by decide) (by decide) (by decide)
    (.inside _ (by decide)
      (.later _ (.inside _ (by decide) (.here _))))
  intro hreduced
  exact hheader.mp hreduced ⟨"head".toList, by decide⟩

def headerPage : List Node :=
  [.element "header".toList [] [.text "Disk full".toList] "header".toList]

/-- The text of a header is lost. -/
theorem headerPage_lost :
    WrittenIn headerPage ∧ htmlToText (renderIn headerPage) = [] ∧
      tidy (visibleIn headerPage) = "Disk full".toList ∧ ¬ Reduced headerPage := by
  have hreduction : htmlToText (renderIn headerPage) = [] := by
    decide +kernel
  have hvisible : tidy (visibleIn headerPage) = "Disk full".toList := by
    decide +kernel
  refine ⟨by decide, hreduction, hvisible, ?_⟩
  rw [Reduced, hreduction, hvisible]
  decide

end Smtp
end ChimneyPost
