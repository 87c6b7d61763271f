import ChimneyPost.Lib.Replay
import ChimneyPost.Text.Encoding

/-!
# Replies of a line protocol

A reply is a code of three digits with one or more lines of text; a hyphen after the code
tells that another line follows.  A client takes the replies byte by byte, in step with a
protocol `next` that says which codes may come in which phase.  It gives up at the first line
that is no line of a reply, and at the first reply the protocol does not have there.

What is rendered as the protocol has it is read back whole (`replay_take_render`), and of a
stream that breaks off anywhere all replies but the last are read (`replay_take_prefix`).
-/

namespace ChimneyPost
namespace Replies

/-- A reply: its code and the text of each of its lines. -/
structure Answer where
  code : Nat
  texts : List Str
deriving DecidableEq, Repr

/-- One line of a reply. -/
def lineText (code : Nat) (mark : Char) (text : Str) : Str :=
  natToStr code ++ mark :: (text ++ ['\r'])

/-- The lines of a reply; the last one has a blank after the code. -/
def renderLines (code : Nat) : List Str → Str
  | [] => []
  | [text] => lineText code ' ' text ++ ['\n']
  | text :: texts => lineText code '-' text ++ '\n' :: renderLines code texts

def Answer.render (a : Answer) : Str :=
  renderLines a.code a.texts

/-- A reply that can be rendered. -/
structure Answer.WellFormed (a : Answer) : Prop where
  code : (natToStr a.code).length = 3
  texts : a.texts ≠ []
  unbroken : ∀ text ∈ a.texts, '\n' ∉ text

/-- The code, whether another line follows, and the text. -/
def parseLine (line : Str) : Option (Nat × Bool × Str) :=
  let digits := line.take 3
  match line.drop 3 with
  | [] => none
  | mark :: text =>
      if digits.all Char.isDigit = true ∧ (mark = ' ' ∨ mark = '-') ∧
          text.getLast? = some '\r' then
        some (Nat.ofDigitChars 10 digits 0, decide (mark = '-'), text.dropLast)
      else
        none

/-- A client that reads replies. -/
structure Client (φ : Type) where
  phase : φ
  answers : List Answer
  /-- the lines so far of a reply that goes on -/
  pending : Option Answer
  /-- the bytes so far of a line that goes on -/
  line : List UInt8

/-- The texts before a line with this code: all lines of a reply have one code. -/
def textsBefore (pending : Option Answer) (code : Nat) : Option (List Str) :=
  match pending with
  | none => some []
  | some a => if a.code = code then some a.texts else none

section Reading

variable {φ : Type} (next : φ → Nat → Option φ)

/-- The client at the end of a line. -/
def Client.endLine (k : Client φ) : Option (Client φ) :=
  match (fromUtf8 k.line).bind parseLine with
  | none => none
  | some (code, more, text) =>
      match textsBefore k.pending code with
      | none => none
      | some before =>
          if more = true then
            some { k with pending := some ⟨code, before ++ [text]⟩, line := [] }
          else
            (next k.phase code).map fun phase =>
              { phase := phase
                answers := k.answers ++ [⟨code, before ++ [text]⟩]
                pending := none
                line := [] }

/-- The client takes one byte. -/
def Client.take (k : Client φ) (b : UInt8) : Option (Client φ) :=
  if b = 10 then k.endLine next else some { k with line := k.line ++ [b] }

/-- A client that has read nothing. -/
def Client.fresh (phase : φ) : Client φ where
  phase := phase
  answers := []
  pending := none
  line := []

variable {next} {k k' : Client φ}

/-! ## One line -/

theorem isDigit_of_mem_natToStr {n : Nat} {c : Char} (h : c ∈ natToStr n) : c.isDigit = true := by
  have hdigits : natToStr n = Nat.toDigits 10 n := by
    rw [natToStr, Nat.toString_eq_ofList_toDigits, String.toList_ofList]
  rw [hdigits] at h
  exact Nat.isDigit_of_mem_toDigits (by decide) (by decide) h

theorem ofDigitChars_natToStr (n : Nat) : Nat.ofDigitChars 10 (natToStr n) 0 = n := by
  rw [natToStr, Nat.toString_eq_ofList_toDigits, String.toList_ofList]
  exact Nat.ofDigitChars_ten_toDigits

theorem newline_not_mem_natToStr (n : Nat) : '\n' ∉ natToStr n := by
  intro h
  exact absurd (isDigit_of_mem_natToStr h) (by decide)

/-- A line is parsed as it was made. -/
theorem parseLine_lineText {code : Nat} (hcode : (natToStr code).length = 3) {mark : Char}
    (hmark : mark = ' ' ∨ mark = '-') (text : Str) :
    parseLine (lineText code mark text) = some (code, decide (mark = '-'), text) := by
  have htake : (lineText code mark text).take 3 = natToStr code := by
    rw [lineText, ← hcode, List.take_left]
  have hdrop : (lineText code mark text).drop 3 = mark :: (text ++ ['\r']) := by
    rw [lineText, ← hcode, List.drop_left]
  have hdigits : (natToStr code).all Char.isDigit = true :=
    List.all_eq_true.mpr fun c hc => isDigit_of_mem_natToStr hc
  rw [parseLine, htake, hdrop]
  dsimp only
  rw [if_pos ⟨hdigits, hmark, List.getLast?_concat⟩, ofDigitChars_natToStr, List.dropLast_concat]

/-- Bytes within a line are kept. -/
theorem replay_take_line {bs : List UInt8} (hbs : (10 : UInt8) ∉ bs) (k : Client φ) :
    Replay.replay (Client.take next) k bs = some { k with line := k.line ++ bs } := by
  induction bs generalizing k with
  | nil => simp
  | cons b bs ih =>
      have hb : b ≠ 10 := fun hb => hbs (hb ▸ List.mem_cons_self)
      have htake : k.take next b = some { k with line := k.line ++ [b] } := by
        rw [Client.take, if_neg hb]
      rw [Replay.replay_cons_eq_some]
      refine ⟨_, htake, ?_⟩
      rw [ih (fun hmem => hbs (List.mem_cons_of_mem _ hmem))]
      simp

/-- A whole line is read at its end. -/
theorem replay_take_lineText {code : Nat} (hcode : (natToStr code).length = 3) {mark : Char}
    (hmark : mark = ' ' ∨ mark = '-') {text : Str} (htext : '\n' ∉ text) (hline : k.line = [])
    {before : List Str} (hbefore : textsBefore k.pending code = some before)
    (h : (if mark = '-' then
        some { k with pending := some ⟨code, before ++ [text]⟩, line := [] }
      else
        (next k.phase code).map fun phase =>
          { phase := phase
            answers := k.answers ++ [⟨code, before ++ [text]⟩]
            pending := none
            line := [] }) = some k') :
    Replay.replay (Client.take next) k (utf8 (lineText code mark text) ++ [10]) = some k' := by
  have hfree : (10 : UInt8) ∉ utf8 (lineText code mark text) := by
    intro hmem
    rcases List.mem_append.mp (newline_mem_utf8 hmem) with hmem | hmem
    · exact newline_not_mem_natToStr code hmem
    rcases List.mem_cons.mp hmem with hmem | hmem
    · rcases hmark with rfl | rfl
      · exact absurd hmem (by decide)
      · exact absurd hmem (by decide)
    rcases List.mem_append.mp hmem with hmem | hmem
    · exact htext hmem
    · exact absurd (List.mem_singleton.mp hmem) (by decide)
  refine Replay.replay_concat_eq_some.mpr ⟨_, replay_take_line hfree k, ?_⟩
  rw [Client.take, if_pos rfl, Client.endLine, hline, List.nil_append, fromUtf8_utf8,
    Option.bind_some, parseLine_lineText hcode hmark]
  dsimp only
  rw [hbefore]
  simpa using h

/-! ## Whole replies -/

theorem utf8_newline : utf8 ['\n'] = [10] := by
  rfl

/-- The lines of a reply are gathered, and the protocol moves at the last one. -/
theorem replay_take_renderLines {code : Nat} (hcode : (natToStr code).length = 3)
    {texts : List Str} (hne : texts ≠ []) (htexts : ∀ text ∈ texts, '\n' ∉ text)
    (hline : k.line = []) {before : List Str}
    (hbefore : textsBefore k.pending code = some before) {phase : φ}
    (hphase : next k.phase code = some phase) :
    Replay.replay (Client.take next) k (utf8 (renderLines code texts)) =
      some
        { phase := phase
          answers := k.answers ++ [⟨code, before ++ texts⟩]
          pending := none
          line := [] } := by
  induction texts generalizing k before with
  | nil => exact absurd rfl hne
  | cons text texts ih =>
      have htext : '\n' ∉ text := htexts text List.mem_cons_self
      cases texts with
      | nil =>
          rw [renderLines, utf8_append, utf8_newline]
          refine replay_take_lineText hcode (Or.inl rfl) htext hline hbefore ?_
          rw [if_neg (by decide), hphase]
          rfl
      | cons second texts =>
          have hcut : renderLines code (text :: second :: texts) =
              (lineText code '-' text ++ ['\n']) ++ renderLines code (second :: texts) := by
            rw [renderLines]
            · simp
            · simp
          rw [hcut, utf8_append, utf8_append, utf8_newline]
          refine Replay.replay_append_eq_some.mpr
            ⟨{ k with pending := some ⟨code, before ++ [text]⟩, line := [] }, ?_, ?_⟩
          · refine replay_take_lineText hcode (Or.inr rfl) htext hline hbefore ?_
            rw [if_pos rfl]
          · have hmiddle : textsBefore (some ⟨code, before ++ [text]⟩) code =
                some (before ++ [text]) :=
              if_pos rfl
            have hrest := ih (k := { k with pending := some ⟨code, before ++ [text]⟩, line := [] })
              (List.cons_ne_nil _ _)
              (fun other hother => htexts other (List.mem_cons_of_mem _ hother)) rfl hmiddle hphase
            rw [hrest, List.append_assoc, List.singleton_append]

/-- **Rendered replies are read back**, as far as the protocol has them. -/
theorem replay_take_render {as : List Answer} (has : ∀ a ∈ as, a.WellFormed) {phase : φ}
    (hpending : k.pending = none) (hline : k.line = [])
    (hphase : Replay.replay next k.phase (as.map Answer.code) = some phase) :
    Replay.replay (Client.take next) k (utf8 (as.flatMap Answer.render)) =
      some
        { phase := phase
          answers := k.answers ++ as
          pending := none
          line := [] } := by
  induction as generalizing k with
  | nil =>
      obtain ⟨kphase, answers, pending, line⟩ := k
      dsimp only at hpending hline hphase
      obtain rfl := Option.some.inj hphase
      rw [hpending, hline, List.append_nil]
      rfl
  | cons a as ih =>
      obtain ⟨ha, has'⟩ := List.forall_mem_cons.mp has
      rw [List.map_cons, Replay.replay_cons_eq_some] at hphase
      obtain ⟨middle, hmiddle, hrest⟩ := hphase
      have hbefore : textsBefore k.pending a.code = some [] := by
        rw [hpending]
        rfl
      have hfirst := replay_take_renderLines ha.code ha.texts ha.unbroken hline hbefore hmiddle
      rw [List.flatMap_cons, utf8_append]
      refine Replay.replay_append_eq_some.mpr ⟨_, hfirst, ?_⟩
      rw [ih has' rfl rfl hrest, List.nil_append, List.append_assoc, List.singleton_append]

/-! ## Streams that break off -/

theorem answers_take {b : UInt8} (h : k.take next b = some k') : k.answers <+: k'.answers := by
  rw [Client.take] at h
  split_ifs at h with hb
  · rw [Client.endLine] at h
    split at h
    · cases h
    · split at h
      · cases h
      · split_ifs at h with hmore
        · obtain rfl := Option.some.inj h
          exact List.prefix_rfl
        · obtain ⟨phase, _, rfl⟩ := Option.map_eq_some_iff.mp h
          exact List.prefix_append _ _
  · obtain rfl := Option.some.inj h
    exact List.prefix_rfl

theorem answers_replay {bs : List UInt8} (h : Replay.replay (Client.take next) k bs = some k') :
    k.answers <+: k'.answers := by
  refine Replay.replay_invariant (I := fun _ (t : Client φ) => k.answers <+: t.answers)
    List.prefix_rfl ?_ h
  intro _ t b t' _ ht hstep
  exact ht.trans (answers_take hstep)

/-- **A stream that breaks off** is read up to there, and no reply is read otherwise. -/
theorem replay_take_prefix {front bs : List UInt8} (hfront : front <+: bs)
    (h : Replay.replay (Client.take next) k bs = some k') :
    ∃ t, Replay.replay (Client.take next) k front = some t ∧ t.answers <+: k'.answers := by
  obtain ⟨back, rfl⟩ := hfront
  obtain ⟨t, ht, hback⟩ := Replay.replay_append_eq_some.mp h
  exact ⟨t, ht, answers_replay hback⟩

end Reading

end Replies
end ChimneyPost
