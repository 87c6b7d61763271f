import ChimneyPost.Lib.Loop
import ChimneyPost.Smtp.Entities
import ChimneyPost.Smtp.Html
import ChimneyPost.Text.Offset

/-!
# Slices that may panic

`html_to_text` cuts strings at byte offsets, and the release profile aborts the server when a
cut panics.  `Checked` has its functions with the offsets and the slices of the source, where
`none` is a panic or a loop without an end.
-/

namespace ChimneyPost
namespace Smtp

open Search

namespace Checked

/-! ## The functions -/

/-- A round of the loop of `strip_elements`; the state is the cursor and the result so far. -/
def stripRound (out lower opener closer : Str) (state : Nat × Str) :
    Option (Loop.Turn (Nat × Str) Str) := do
  let (cursor, result) := state
  match find opener (← sliceFrom lower cursor) with
  | none =>
      return .stop (result ++ (← sliceFrom out cursor))
  | some start =>
      let start := cursor + start
      let result := result ++ (← slice out cursor start)
      match find closer (← sliceFrom lower start) with
      | some stop =>
          let stop := start + stop
          match find ['>'] (← sliceFrom lower stop) with
          | some gt =>
              return .go (stop + gt + 1, result)
          | none =>
              return .go (len out, result)
      | none =>
          -- an unclosed element takes the rest with it
          return .go (len out, result)

/-- The loop body for one name, with the lowercase copy and the tags to look for. -/
def elementRound (out name : Str) : Nat × Str → Option (Loop.Turn (Nat × Str) Str) :=
  stripRound out (toAsciiLowercase out) (opener name) (closer name)

/-- The pass of `strip_elements` for one name. -/
def removeElement (out name : Str) : Option Str :=
  Loop.run (elementRound out name) (len out + 1) (0, [])

/-- `strip_elements`. -/
def stripElements (html : Str) (names : List Str) : Option Str :=
  names.foldlM removeElement html

/-- What is written for an entity; an unknown one is written as it stands. -/
def decoded (tail entity : Str) (stop : Nat) : Option Str :=
  match namedEntity entity with
  | some decoded => some decoded
  | none =>
      match numericEntity entity with
      | some decoded => some [decoded]
      | none => sliceTo tail (stop + 1)

/-- A round of the loop of `decode_entities`; the state is the rest and the output so far. -/
def decodeRound (state : Str × Str) : Option (Loop.Turn (Str × Str) Str) := do
  let (rest, out) := state
  match find ['&'] rest with
  | none =>
      return .stop (out ++ rest)
  | some start =>
      let out := out ++ (← sliceTo rest start)
      let tail ← sliceFrom rest start
      match ((find [';'] (← sliceFrom tail 1)).map (fun i => i + 1)).filter (fun i => i ≤ 10) with
      | none =>
          return .go (← sliceFrom tail 1, out ++ ['&'])
      | some stop =>
          let entity ← slice tail 1 stop
          let decoded ← decoded tail entity stop
          return .go (← sliceFrom tail (stop + 1), out ++ decoded)

/-- `decode_entities`. -/
def decodeEntities (text : Str) : Option Str :=
  Loop.run decodeRound (len text + 1) (text, [])

/-- `html_to_text`. -/
def htmlToText (html : Str) : Option Str := do
  let withoutScripts ← stripElements html ["script".toList, "style".toList, "head".toList]
  let text ← decodeEntities (stripTags none withoutScripts)
  return tidy text

/-! ## The lowercase copy -/

/-- An offset found in the lowercase copy of a string is one of the string. -/
theorem find_lowercase {pat : Str} (hpat : Ascii pat) (hne : pat ≠ []) (s : Str) :
    findStr pat (toAsciiLowercase s) = none ∧ find pat (toAsciiLowercase s) = none ∨
      ∃ a b, s = a ++ b ∧ pat <+: toAsciiLowercase b ∧
        findStr pat (toAsciiLowercase s) = some a.length ∧
          find pat (toAsciiLowercase s) = some (len a) := by
  rw [find_eq hpat hne, findStr_eq_position]
  cases hposition : position pat (toAsciiLowercase s) with
  | none =>
      exact Or.inl ⟨rfl, rfl⟩
  | some n =>
      obtain ⟨hle, -, hhere⟩ := of_position hposition
      rw [length_toAsciiLowercase] at hle
      rw [← toAsciiLowercase_drop] at hhere
      refine Or.inr ⟨s.take n, s.drop n, (List.take_append_drop n s).symm, hhere, ?_, ?_⟩
      · rw [List.length_take, Nat.min_eq_left hle]
      · have htake : (toAsciiLowercase s).take n = toAsciiLowercase (s.take n) := by
          exact List.map_take.symm
        rw [Option.map_some, htake, len_toAsciiLowercase]

/-- The lowercase copy is cut where the string is. -/
theorem sliceFrom_lowercase {s front rear : Str} {i : Nat} (hs : s = front ++ rear)
    (hi : i = len front) : sliceFrom (toAsciiLowercase s) i = some (toAsciiLowercase rear) := by
  rw [hs, hi, toAsciiLowercase_append, ← len_toAsciiLowercase front]
  exact sliceFrom_append _ _

theorem drop_lowercase {s front rear : Str} {n : Nat} (hs : s = front ++ rear)
    (hn : n = front.length) : (toAsciiLowercase s).drop n = toAsciiLowercase rear := by
  rw [hs, hn, ← toAsciiLowercase_drop, List.drop_left]

/-! ## The loop of `strip_elements` -/

theorem ascii_opener {name : Str} (hname : Ascii name) : Ascii (opener name) := by
  intro c hc
  rcases List.mem_cons.mp hc with rfl | hc
  · decide
  · exact hname c hc

theorem ascii_closer {name : Str} (hname : Ascii name) : Ascii (closer name) := by
  intro c hc
  rcases List.mem_cons.mp hc with rfl | hc
  · decide
  · rcases List.mem_cons.mp hc with rfl | hc
    · decide
    · exact hname c hc

/-- What each state of the loop will return. -/
def stripDue (out name : Str) (state : Nat × Str) : Str :=
  state.2 ++ Smtp.removeElement ((sliceFrom out state.1).getD []) name

theorem stripDue_append (front rest name result : Str) :
    stripDue (front ++ rest) name (len front, result) =
      result ++ Smtp.removeElement rest name := by
  rw [stripDue, sliceFrom_append]
  rfl

theorem stripDue_end (out name result : Str) :
    stripDue out name (len out, result) = result := by
  have hdue := stripDue_append out [] name result
  rw [List.append_nil, removeElement_nil, List.append_nil] at hdue
  exact hdue

/-- A round that ends the text: no further element, or one that is not closed. -/
theorem removeElement_round_end {name a b : Str}
    (hopen : findStr (opener name) (toAsciiLowercase (a ++ b)) = some a.length)
    (hclose : findStr (closer name) (toAsciiLowercase b) = none ∨ ∃ c d, b = c ++ d ∧
      findStr (closer name) (toAsciiLowercase b) = some c.length ∧
        findStr ['>'] (toAsciiLowercase d) = none) :
    Smtp.removeElement (a ++ b) name = a := by
  rw [removeElement_eq, hopen]
  dsimp only
  rw [drop_lowercase rfl rfl, List.take_left]
  rcases hclose with hclose | ⟨c, d, rfl, hclose, hgt⟩
  · rw [hclose]
    exact List.append_nil a
  · have hdrop := drop_lowercase (List.append_assoc a c d).symm List.length_append.symm
    rw [hclose]
    dsimp only
    rw [hdrop, hgt]
    exact List.append_nil a

/-- A round that removes an element. -/
theorem removeElement_round {name a c e f : Str}
    (hopen : findStr (opener name) (toAsciiLowercase (a ++ (c ++ (e ++ '>' :: f)))) =
      some a.length)
    (hclose : findStr (closer name) (toAsciiLowercase (c ++ (e ++ '>' :: f))) = some c.length)
    (hgt : findStr ['>'] (toAsciiLowercase (e ++ '>' :: f)) = some e.length) :
    Smtp.removeElement (a ++ (c ++ (e ++ '>' :: f))) name = a ++ Smtp.removeElement f name := by
  have hdrop := drop_lowercase (List.append_assoc a c (e ++ '>' :: f)).symm
    List.length_append.symm
  have hrest : (a ++ (c ++ (e ++ '>' :: f))).drop (a.length + c.length + e.length + 1) = f := by
    have hfront : a ++ (c ++ (e ++ '>' :: f)) = (a ++ c ++ e ++ ['>']) ++ f := by
      simp
    have hlength : (a ++ c ++ e ++ ['>']).length = a.length + c.length + e.length + 1 := by
      simp only [List.length_append, List.length_singleton]
    rw [hfront, List.drop_left' hlength]
  rw [removeElement_eq, hopen]
  dsimp only
  rw [drop_lowercase rfl rfl, hclose]
  dsimp only
  rw [hdrop, hgt]
  dsimp only
  rw [hrest, List.take_left]

theorem len_pos_of_begins {c : Char} {pat s : Str} (h : c :: pat <+: toAsciiLowercase s) :
    0 < len s := by
  cases s with
  | nil =>
      exact absurd (List.prefix_nil.mp h) (List.cons_ne_nil _ _)
  | cons d s =>
      rw [len_cons]
      exact Nat.add_pos_left d.utf8Size_pos _

theorem closed_of_begins {s : Str} (h : ['>'] <+: toAsciiLowercase s) : ∃ t, s = '>' :: t := by
  cases s with
  | nil =>
      exact absurd (List.prefix_nil.mp h) (List.cons_ne_nil _ _)
  | cons c s =>
      rw [toAsciiLowercase_cons, List.cons_prefix_cons] at h
      have hc := (toLower_eq_iff (d := '>') (by decide) (by decide)).mp h.1.symm
      exact ⟨s, by rw [hc]⟩

theorem closing_lt : '>'.toNat < 0x80 := by
  decide

theorem ampersand_lt : '&'.toNat < 0x80 := by
  decide

theorem isCharBoundary_len (s : Str) : isCharBoundary s (len s) = true := by
  exact isCharBoundary_iff.mpr ⟨s, [], (List.append_nil s).symm, rfl⟩

/-- **A round of `strip_elements`** slices at boundaries and moves the cursor on. -/
theorem elementRound_verified {name : Str} (hname : Ascii name) (out : Str) :
    Loop.Verified (elementRound out name) (fun state => isCharBoundary out state.1 = true)
      (fun state => len out - state.1) (stripDue out name) where
  turn := by
    rintro ⟨cursor, result⟩ hinv
    obtain ⟨front, rest, rfl, rfl⟩ := isCharBoundary_iff.mp hinv
    rw [stripDue_append, elementRound, stripRound]
    simp only [sliceFrom_lowercase rfl rfl, Option.bind_eq_bind, Option.bind_some,
      Option.pure_def]
    rcases find_lowercase (ascii_opener hname) (List.cons_ne_nil _ _) rest with
      ⟨hnone, hfind⟩ | ⟨a, b, rfl, hbegins, hopen, hfind⟩
    · left
      rw [hfind, removeElement_eq, hnone]
      simp only [sliceFrom_append, Option.bind_some]
    · right
      have hb := len_pos_of_begins hbegins
      have hcut := sliceFrom_lowercase (List.append_assoc front a b).symm
        (len_append front a).symm
      have hend : len (front ++ (a ++ b)) - len (front ++ (a ++ b)) <
          len (front ++ (a ++ b)) - len front := by
        rw [len_append, len_append]
        omega
      rw [hfind]
      simp only [slice_append, hcut, Option.bind_some]
      rcases find_lowercase (ascii_closer hname) (List.cons_ne_nil _ _) b with
        ⟨hnone, hfind'⟩ | ⟨c, d, rfl, hbegins', hclose, hfind'⟩
      · rw [hfind']
        refine ⟨_, rfl, isCharBoundary_len _, hend, ?_⟩
        rw [stripDue_end, removeElement_round_end hopen (Or.inl hnone)]
      · have hcut' : sliceFrom (toAsciiLowercase (front ++ (a ++ (c ++ d))))
            (len front + len a + len c) = some (toAsciiLowercase d) := by
          rw [← List.append_assoc, ← len_append]
          exact sliceFrom_lowercase (List.append_assoc (front ++ a) c d).symm (len_append _ c).symm
        rw [hfind']
        simp only [hcut', Option.bind_some]
        rcases find_lowercase (by decide) (List.cons_ne_nil '>' []) d with
          ⟨hnone, hfind''⟩ | ⟨e, f, rfl, hbegins'', hgt, hfind''⟩
        · rw [hfind'']
          refine ⟨_, rfl, isCharBoundary_len _, hend, ?_⟩
          rw [stripDue_end, removeElement_round_end hopen (Or.inr ⟨c, d, rfl, hclose, hnone⟩)]
        · obtain ⟨f, rfl⟩ := closed_of_begins hbegins''
          have hfront : front ++ (a ++ (c ++ (e ++ '>' :: f))) =
              (front ++ (a ++ (c ++ (e ++ ['>'])))) ++ f := by
            simp
          have hcursor : len front + len a + len c + len e + 1 =
              len (front ++ (a ++ (c ++ (e ++ ['>'])))) := by
            simp only [len_append, len_cons, len_nil, utf8Size_of_lt closing_lt]
            omega
          rw [hfind'']
          refine ⟨_, rfl, ?_, ?_, ?_⟩
          · exact isCharBoundary_iff.mpr ⟨_, f, hfront, hcursor⟩
          · dsimp only
            simp only [len_append, len_cons, utf8Size_of_lt closing_lt]
            omega
          · rw [hfront, hcursor, stripDue_append, removeElement_round hopen hclose hgt,
              List.append_assoc]

/-! ## The loop of `decode_entities` -/

theorem byteLen_eq_len (s : Str) : byteLen s = len s := by
  induction s with
  | nil =>
      rfl
  | cons c s ih =>
      rw [byteLen_cons, len_cons, ih]

theorem sliceFrom_cons {c : Char} (hc : c.toNat < 0x80) (s : Str) :
    sliceFrom (c :: s) 1 = some s := by
  have hlen : len [c] = 1 := by
    rw [len_cons, utf8Size_of_lt hc, len_nil]
  rw [← hlen]
  exact sliceFrom_append [c] s

/-- The slices of a closed entity, with the ampersand and the semicolon around it. -/
theorem slice_entity (body rest : Str) :
    slice ('&' :: (body ++ ';' :: rest)) 1 (len body + 1) = some body ∧
      sliceTo ('&' :: (body ++ ';' :: rest)) (len body + 1 + 1) =
        some ('&' :: (body ++ [';'])) ∧
          sliceFrom ('&' :: (body ++ ';' :: rest)) (len body + 1 + 1) = some rest := by
  have hamp : len ['&'] = 1 := by
    rfl
  have hsemi : len [';'] = 1 := by
    rfl
  have hwhole : len ('&' :: (body ++ [';'])) = len body + 1 + 1 := by
    rw [← List.singleton_append, len_append, len_append, hamp, hsemi, Nat.add_comm]
  have htext : '&' :: (body ++ ';' :: rest) = ('&' :: (body ++ [';'])) ++ rest := by
    simp
  refine ⟨?_, ?_, ?_⟩
  · rw [Nat.add_comm, ← hamp]
    exact slice_append ['&'] body (';' :: rest)
  · rw [htext, ← hwhole]
    exact sliceTo_append _ _
  · rw [htext, ← hwhole]
    exact sliceFrom_append _ _

theorem decoded_eq (body rest : Str) :
    decoded ('&' :: (body ++ ';' :: rest)) body (len body + 1) = some (decodeEntity body) := by
  rw [decoded, decodeEntity]
  cases namedEntity body with
  | some decoded =>
      rfl
  | none =>
      cases numericEntity body with
      | some decoded =>
          rfl
      | none =>
          exact (slice_entity body rest).2.1

/-- **A round of `decode_entities`** slices at boundaries and shortens the rest. -/
theorem decodeRound_verified : Loop.Verified decodeRound (fun _ => True)
    (fun state => len state.1) (fun state => state.2 ++ Smtp.decodeEntities state.1) where
  turn := by
    rintro ⟨rest, out⟩ -
    rw [decodeRound]
    simp only [Option.bind_eq_bind, Option.pure_def]
    by_cases hamp : '&' ∈ rest
    · right
      obtain ⟨front, tail, rfl, hfront⟩ := List.eq_append_cons_of_mem hamp
      have hdue : Smtp.decodeEntities (front ++ '&' :: tail) =
          front ++ Smtp.decodeEntities ('&' :: tail) := by
        rw [decodeEntities_append hfront, decodeEntities_amp]
      rw [find_char (by decide) hfront]
      simp only [sliceTo_append, sliceFrom_append, sliceFrom_cons ampersand_lt, Option.bind_some]
      by_cases hsemi : ';' ∈ tail
      · obtain ⟨body, rest, rfl, hbody⟩ := List.eq_append_cons_of_mem hsemi
        rw [find_char (by decide) hbody, Option.map_some]
        by_cases hclose : len body + 1 ≤ 10
        · obtain ⟨hentity, -, hrest⟩ := slice_entity body rest
          rw [Option.filter_some_pos (by simpa using hclose)]
          simp only [hentity, hrest, Option.bind_some, decoded_eq]
          refine ⟨_, rfl, trivial, ?_, ?_⟩
          · simp only [len_append, len_cons, utf8Size_of_lt ampersand_lt]
            omega
          · have hnine : byteLen body ≤ 9 := by
              rw [byteLen_eq_len]
              omega
            rw [hdue, decodeEntities_close hbody hnine]
            simp only [List.append_assoc]
        · rw [Option.filter_some_neg (by simpa using hclose)]
          refine ⟨_, rfl, trivial, ?_, ?_⟩
          · simp only [len_append, len_cons, utf8Size_of_lt ampersand_lt]
            omega
          · have hfar : ¬ (';' ∈ body ++ ';' :: rest ∧ byteLen ((body ++ ';' :: rest).takeWhile
                (fun c => c ≠ ';')) + 1 ≤ 10) := by
              rw [takeWhile_ne_append hbody, byteLen_eq_len]
              exact fun h => hclose h.2
            rw [hdue, decodeEntities_amp, if_neg hfar]
            simp only [List.append_assoc, List.singleton_append]
      · rw [find_char_none (by decide) hsemi]
        refine ⟨_, rfl, trivial, ?_, ?_⟩
        · simp only [len_append, len_cons, utf8Size_of_lt ampersand_lt]
          omega
        · rw [hdue, decodeEntities_amp, if_neg (fun h => hsemi h.1)]
          simp only [List.append_assoc, List.singleton_append]
    · left
      rw [find_char_none (by decide) hamp, decodeEntities_of_not_mem hamp]

/-! ## The functions return -/

theorem removeElement_eq_some {name : Str} (hname : Ascii name) (out : Str) :
    removeElement out name = some (Smtp.removeElement out name) := by
  have hstart : isCharBoundary out 0 = true := isCharBoundary_iff.mpr ⟨[], out, rfl, rfl⟩
  rw [removeElement, (elementRound_verified hname out).run_eq hstart (by dsimp only; omega)]
  exact congrArg some (stripDue_append [] out name [])

theorem stripElements_eq_some {names : List Str} (hnames : ∀ name ∈ names, Ascii name)
    (html : Str) : stripElements html names = some (Smtp.stripElements html names) := by
  induction names generalizing html with
  | nil =>
      rfl
  | cons name names ih =>
      have hrest := ih (fun other hother => hnames other (List.mem_cons_of_mem name hother))
        (Smtp.removeElement html name)
      rw [stripElements] at hrest ⊢
      rw [List.foldlM_cons, removeElement_eq_some (hnames name List.mem_cons_self),
        Option.bind_eq_bind, Option.bind_some, hrest]
      rfl

theorem decodeEntities_eq_some (text : Str) :
    decodeEntities text = some (Smtp.decodeEntities text) := by
  rw [decodeEntities, decodeRound_verified.run_eq trivial (by dsimp only; omega)]
  rfl

theorem ascii_of_mem_sections {name : Str} (hname : name ∈ sections) : Ascii name := by
  have hall : ∀ name ∈ sections, Ascii name := by
    decide
  exact hall name hname

/-- The loop of `strip_elements` runs within the string, and forward. -/
structure Advances (out name : Str) : Prop where
  /-- What is found in the lowercase copy is a place in the string. -/
  offset : ∀ pat ∈ [opener name, closer name, ['>']], ∀ cursor view i,
    sliceFrom (toAsciiLowercase out) cursor = some view → find pat view = some i →
      isCharBoundary out (cursor + i) = true
  boundary : ∀ state, Loop.Reaches (elementRound out name) (0, []) state →
    isCharBoundary out state.1 = true
  slices : ∀ state, Loop.Reaches (elementRound out name) (0, []) state →
    elementRound out name state ≠ none
  forward : ∀ state, Loop.Reaches (elementRound out name) (0, []) state → ∀ next,
    elementRound out name state = some (.go next) → state.1 < next.1

/-- The loop of `decode_entities` runs within the text, and shortens it. -/
structure Shortens (text : Str) : Prop where
  slices : ∀ state, Loop.Reaches decodeRound (text, []) state → decodeRound state ≠ none
  shorter : ∀ state, Loop.Reaches decodeRound (text, []) state → ∀ next,
    decodeRound state = some (.go next) → len next.1 < len state.1

theorem advances (out : Str) {name : Str} (hname : name ∈ sections) : Advances out name := by
  have hascii := ascii_of_mem_sections hname
  have hverified := elementRound_verified hascii out
  have hstart : isCharBoundary out 0 = true := isCharBoundary_iff.mpr ⟨[], out, rfl, rfl⟩
  constructor
  · intro pat hpat cursor view i hview hfind
    have hplain : Ascii pat ∧ pat ≠ [] := by
      simp only [List.mem_cons, List.not_mem_nil, or_false] at hpat
      rcases hpat with rfl | rfl | rfl
      · exact ⟨ascii_opener hascii, List.cons_ne_nil _ _⟩
      · exact ⟨ascii_closer hascii, List.cons_ne_nil _ _⟩
      · exact ⟨by decide, List.cons_ne_nil _ _⟩
    exact isCharBoundary_toAsciiLowercase.mp
      (isCharBoundary_of_find hplain.1 hplain.2 hview hfind)
  · intro state hstate
    exact hverified.inv_of_reaches hstart hstate
  · intro state hstate
    exact hverified.ne_none (hverified.inv_of_reaches hstart hstate)
  · intro state hstate next hnext
    have hlower := (hverified.of_go (hverified.inv_of_reaches hstart hstate) hnext).2
    omega

theorem shortens (text : Str) : Shortens text := by
  constructor
  · intro state _
    exact decodeRound_verified.ne_none trivial
  · intro state _ next hnext
    exact (decodeRound_verified.of_go trivial hnext).2

/-- Reducing an HTML part comes to an end without a panic. -/
structure Total (html : Str) : Prop where
  strips : ∀ name ∈ sections, ∀ out, Advances out name
  decodes : ∀ text, Shortens text
  returns : htmlToText html = some (Smtp.htmlToText html)

/-- **HTML reduction returns a string**, whatever it is given. -/
theorem total_htmlToText (html : Str) : Total html where
  strips := by
    intro name hname out
    exact advances out hname
  decodes := shortens
  returns := by
    have hsections : ∀ name ∈ ["script".toList, "style".toList, "head".toList], Ascii name :=
      fun name hname => ascii_of_mem_sections hname
    rw [htmlToText, stripElements_eq_some hsections, Option.bind_eq_bind, Option.bind_some,
      decodeEntities_eq_some, Option.bind_some]
    rfl

end Checked
end Smtp
end ChimneyPost
