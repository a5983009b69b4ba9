import ScriptLang.Proofs.Grammar.Progress
import ScriptLang.Proofs.Grammar.Relocation
import ScriptLang.Proofs.Token.Segmentation

/-!
Layout. The tokens of a text may be written anew with other gaps between them and with other
comments at the ends of lines. As long as two tokens of one line have a gap between them, the new
text has the same tokens at other places, and it spells the same program or has the same fault.
-/

set_option autoImplicit false
set_option relaxedAutoImplicit false

namespace ScriptLang

/-- That a text is a run of spaces, tabs and carriage returns, perhaps an empty one. -/
def IsGap (text : List Char) : Prop :=
  ∀ c ∈ text, c = ' ' ∨ c = '\t' ∨ c = '\r'

/-- That a text is empty or a comment that ends with its line. -/
def IsNote (text : List Char) : Prop :=
  text = [] ∨ ∃ said, text = '#' :: said ∧ said.head? ≠ some '\x7b' ∧ '\n' ∉ said

/-- That a text is a layout of tokens. A gap may stand anywhere; it must stand before a token which
follows another one on its line, as told by `fresh`. A note may stand at the end of each line. -/
inductive Laid : (fresh : Bool) → List Token → List Char → Prop where
  | finish {fresh : Bool} {t : Token} {gap note : List Char} : t.kind = .endOfInput →
      IsGap gap → IsNote note → Laid fresh [t] (gap ++ note)
  | newline {fresh : Bool} {t : Token} {tokens : List Token} {gap note text : List Char} :
      t.kind = .newline → IsGap gap → IsNote note → Laid true tokens text →
      Laid fresh (t :: tokens) (gap ++ (note ++ '\n' :: text))
  | token {fresh : Bool} {t : Token} {tokens : List Token} {gap text : List Char} :
      t.kind ≠ .newline → t.kind ≠ .endOfInput → IsGap gap → (fresh = false → gap ≠ []) →
      Laid false tokens text → Laid fresh (t :: tokens) (gap ++ (t.spelling ++ text))

/-- That a text begins with a character at which every token ends that is not closed by itself. -/
def Stops (text : List Char) : Prop :=
  ∀ c ∈ text.head?, c ∈ [' ', '\t', '\r', '#', '\n']

private theorem IsNote.stops_append {note text : List Char} (h : IsNote note)
    (behind : Stops text) : Stops (note ++ text) := by
  obtain rfl | ⟨said, rfl, -, -⟩ := h
  · exact behind
  · rintro c ⟨⟩
    decide

private theorem IsGap.stops_append {gap text : List Char} (h : IsGap gap)
    (behind : gap = [] → Stops text) : Stops (gap ++ text) := by
  cases gap with
  | nil => exact behind rfl
  | cons d gap =>
    rintro c ⟨⟩
    obtain rfl | rfl | rfl := h d List.mem_cons_self <;> decide

private theorem Laid.stops {tokens : List Token} {text : List Char} (h : Laid false tokens text) :
    Stops text := by
  cases h with
  | @finish _ t gap note atEnd blank said =>
    have behind : Stops (note ++ []) := said.stops_append nofun
    rw [List.append_nil] at behind
    exact blank.stops_append fun _ => behind
  | newline feed blank said _ =>
    refine blank.stops_append fun _ => said.stops_append ?_
    rintro c ⟨⟩
    decide
  | token line more blank apart _ =>
    exact blank.stops_append fun none => absurd none (apart rfl)

private theorem Token.longest_of_stops (t : Token) {text : List Char} (h : Stops text) :
    t.Longest text := by
  have all : [' ', '\t', '\r', '#', '\n'].all fun c =>
      !c.isDigit && !Lexeme.isWordPart c && c ≠ '>' && c ≠ '=' := by
    decide
  have apart : ∀ c ∈ text.head?, ¬ c.isDigit ∧ ¬ Lexeme.isWordPart c ∧ c ≠ '>' ∧ c ≠ '=' := by
    intro c next
    simpa [and_assoc] using List.all_eq_true.mp all c (h c next)
  unfold Longest
  split
  · exact fun c next => (apart c next).1
  · exact fun c next => (apart c next).2.1
  · exact fun c next => (apart c next).2.1
  · exact ⟨fun _ next => (apart _ next).2.2.1 rfl, fun _ next => (apart _ next).2.2.2 rfl⟩
  · trivial
  · trivial
  · trivial

namespace Segmented

variable {before rest : List Char} {tokens : List Token}

private theorem gap {text : List Char} (blank : IsGap text)
    (h : Segmented (before ++ text) rest tokens) : Segmented before (text ++ rest) tokens :=
  h.spaces fun c there => Lexeme.isSpace_iff.mpr (blank c there)

private theorem note {text : List Char} (said : IsNote text)
    (ends : rest = [] ∨ rest.head? = some '\n') (h : Segmented (before ++ text) rest tokens) :
    Segmented before (text ++ rest) tokens := by
  obtain rfl | ⟨said, rfl, marker, feed⟩ := said
  · simpa using h
  · exact .comment marker feed ends h

end Segmented

private theorem Segmented.placed {t : Token} {before rest : List Char} {tokens placed : List Token}
    (more : t.kind ≠ .endOfInput) (regular : t.Regular) (longest : t.Longest rest)
    (h : Segmented (before ++ t.spelling) rest placed)
    (same : placed.map Token.unplaced = tokens.map Token.unplaced) :
    ∃ placed, Segmented before (t.spelling ++ rest) placed ∧
      placed.map Token.unplaced = (t :: tokens).map Token.unplaced := by
  let u : Token := ⟨t.kind, t.text, .following before⟩
  have fits : u.Fits before rest := ⟨more, regular, rfl, regular.newline_or_string, longest⟩
  refine ⟨u :: placed, .token fits h, ?_⟩
  rw [List.map_cons, List.map_cons, same]
  rfl

/-- A layout of regular tokens is made up of these tokens, at places of its own. -/
private theorem Laid.segmented {fresh : Bool} {tokens : List Token} {text : List Char}
    (h : Laid fresh tokens text) (stream : Stream tokens) (before : List Char) :
    ∃ placed, Segmented before text placed ∧
      placed.map Token.unplaced = tokens.map Token.unplaced := by
  induction h generalizing before with
  | @finish fresh t gap note atEnd blank said =>
    have regular := stream.regular
    rw [Token.Regular, atEnd] at regular
    have ended : Segmented before (gap ++ (note ++ []))
        [⟨.endOfInput, "", .following (before ++ gap ++ note)⟩] :=
      .gap blank (.note said (.inl rfl) .finish)
    rw [List.append_nil] at ended
    refine ⟨_, ended, ?_⟩
    simp [Token.unplaced, Token.relocate, atEnd, regular]
  | @newline fresh t tokens gap note text feed blank said _ ih =>
    have more : t.kind ≠ .endOfInput := by simp [feed]
    have regular := stream.regular
    have spelling : t.spelling = ['\n'] := by
      rw [Token.Regular, feed] at regular
      simp [Token.spelling, feed, regular]
    have longest : t.Longest text := by simp [Token.Longest, feed]
    obtain ⟨placed, behind, same⟩ := ih (stream.tail more) (before ++ gap ++ note ++ t.spelling)
    obtain ⟨placed, line, same⟩ := behind.placed more regular longest same
    rw [spelling] at line
    exact ⟨placed, .gap blank (.note said (.inr rfl) line), same⟩
  | @token fresh t tokens gap text line more blank apart behind ih =>
    obtain ⟨placed, others, same⟩ := ih (stream.tail more) (before ++ gap ++ t.spelling)
    have longest := t.longest_of_stops behind.stops
    obtain ⟨placed, next, same⟩ := others.placed more stream.regular longest same
    exact ⟨placed, .gap blank next, same⟩

/-- Programs that are the same up to places, or faults of one cause: what a program or a fault says
without naming a place. -/
def Program.AlikeButPlaced : Except SourceError Program → Except SourceError Program → Prop
  | .ok p, .ok q => q.unplaced = p.unplaced
  | .error (.parse (.syntaxError e)), .error (.parse (.syntaxError f)) => f.cause = e.cause
  | _, _ => False

private theorem Program.ofTokens_alike {tokens placed : List Token} (mode : Terminators)
    (same : placed.map Token.unplaced = tokens.map Token.unplaced) :
    (∃ p q, ofTokens mode tokens = .ok p ∧ ofTokens mode placed = .ok q ∧
      q.unplaced = p.unplaced) ∨
    ∃ e f, ofTokens mode tokens = .error e ∧ ofTokens mode placed = .error f ∧
      f.relocate (fun _ => .first) = e.relocate fun _ => .first := by
  have moved := ofTokens_relocate (fun _ => .first) mode tokens
  have moved' := ofTokens_relocate (fun _ => .first) mode placed
  have one : placed.map (Token.relocate fun _ => .first) =
    tokens.map (Token.relocate fun _ => .first) := same
  rw [one, moved] at moved'
  cases read : ofTokens mode tokens with
  | ok p =>
    cases read' : ofTokens mode placed with
    | ok q =>
      rw [read, read'] at moved'
      exact .inl ⟨p, q, rfl, rfl, (Except.ok.inj moved').symm⟩
    | error f =>
      rw [read, read'] at moved'
      cases moved'
  | error e =>
    cases read' : ofTokens mode placed with
    | ok q =>
      rw [read, read'] at moved'
      cases moved'
    | error f =>
      rw [read, read'] at moved'
      exact .inr ⟨e, f, rfl, rfl, (Except.error.inj moved').symm⟩

/-- Layout does not matter. Any layout of the tokens of a text has the same tokens, apart from their
places; and with either kind of terminators it spells the same program up to places, or has a fault
of the same wording. -/
theorem Program.ofSource_of_laid {source laid : String} {tokens : List Token}
    (cut : tokenize source = .ok tokens) (layout : Laid true tokens laid.toList) :
    ∃ placed, tokenize laid = .ok placed ∧
      placed.map (fun t => (t.kind, t.text)) = tokens.map (fun t => (t.kind, t.text)) ∧
      ∀ mode, AlikeButPlaced (ofSource mode source) (ofSource mode laid) := by
  have stream := stream_of_tokenize cut
  obtain ⟨placed, segmented, same⟩ := layout.segmented stream []
  have found : tokenize laid = .ok placed := segmented.tokensFrom
  refine ⟨placed, found, ?_, fun mode => ?_⟩
  · have shown := congrArg (List.map fun t => (t.kind, t.text)) same
    rwa [List.map_map, List.map_map] at shown
  · unfold ofSource
    rw [cut, found]
    obtain ⟨p, q, read, read', alike⟩ | ⟨e, f, read, read', alike⟩ := ofTokens_alike mode same
    · simp only [read, read']
      exact alike
    · obtain ⟨e, rfl, -⟩ := exists_fault_of_ofTokens stream read
      obtain ⟨f, rfl, -⟩ := exists_fault_of_ofTokens (stream_of_tokenize found) read'
      simp only [read, read']
      have cause : f.cause = e.cause := by simpa [ParseFailure.relocate] using alike
      exact cause

/-- An assignment with gaps around its tokens and a comment behind it. -/
theorem Program.ofSource_of_laid_with_comment :
    let tokens : List Token := [⟨.identifier, "x", ⟨1, 1⟩⟩, ⟨.operator, "=", ⟨1, 2⟩⟩,
      ⟨.integer, "1", ⟨1, 3⟩⟩, ⟨.newline, "\n", ⟨1, 4⟩⟩, ⟨.endOfInput, "", ⟨2, 1⟩⟩]
    tokenize "x=1\n" = .ok tokens ∧ Laid true tokens "\tx =  1#=\n \r".toList ∧
      ∃ placed, tokenize "\tx =  1#=\n \r" = .ok placed ∧
        placed.map (fun t => (t.kind, t.text)) = tokens.map (fun t => (t.kind, t.text)) ∧
        ∀ mode, AlikeButPlaced (ofSource mode "x=1\n") (ofSource mode "\tx =  1#=\n \r") := by
  intro tokens
  have cut : tokenize "x=1\n" = .ok tokens := by
    show tokensFrom .first ['x', '=', '1', '\n'] = _
    iterate 4 refine tokensFrom_cons rfl rfl ?_
    exact tokensFrom_nil _
  have ended : Laid true [⟨.endOfInput, "", ⟨2, 1⟩⟩] ([' ', '\r'] ++ []) :=
    .finish rfl (by simp [IsGap]) (.inl rfl)
  have noted : Laid false [⟨.newline, "\n", ⟨1, 4⟩⟩, ⟨.endOfInput, "", ⟨2, 1⟩⟩]
      ([] ++ (['#', '='] ++ '\n' :: [' ', '\r'])) :=
    .newline rfl (by simp [IsGap]) (.inr ⟨['='], rfl, by decide, by decide⟩) ended
  have value : Laid false [⟨.integer, "1", ⟨1, 3⟩⟩, ⟨.newline, "\n", ⟨1, 4⟩⟩,
      ⟨.endOfInput, "", ⟨2, 1⟩⟩] ([' ', ' '] ++ (['1'] ++ ['#', '=', '\n', ' ', '\r'])) :=
    .token (by decide) (by decide) (by simp [IsGap]) (by simp) noted
  have sign : Laid false [⟨.operator, "=", ⟨1, 2⟩⟩, ⟨.integer, "1", ⟨1, 3⟩⟩,
      ⟨.newline, "\n", ⟨1, 4⟩⟩, ⟨.endOfInput, "", ⟨2, 1⟩⟩]
      ([' '] ++ (['='] ++ [' ', ' ', '1', '#', '=', '\n', ' ', '\r'])) :=
    .token (by decide) (by decide) (by simp [IsGap]) (by simp) value
  have layout : Laid true tokens
      (['\t'] ++ (['x'] ++ [' ', '=', ' ', ' ', '1', '#', '=', '\n', ' ', '\r'])) :=
    .token (by decide) (by decide) (by simp [IsGap]) (by simp) sign
  exact ⟨cut, layout, ofSource_of_laid cut layout⟩

end ScriptLang
