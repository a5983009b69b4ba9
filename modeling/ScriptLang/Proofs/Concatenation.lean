import ScriptLang.Proofs.Grammar.Locality
import ScriptLang.Proofs.Grammar.Progress
import ScriptLang.Proofs.Grammar.Recognition
import ScriptLang.Proofs.Grammar.Relocation
import ScriptLang.Proofs.Token.Concatenation

/-!
Sources one after the other: how the reading of a program goes on when more tokens follow in place
of its end, and what becomes of a source that another is appended to.
-/

set_option autoImplicit false
set_option relaxedAutoImplicit false

namespace ScriptLang

/-! ## Continuations

Programs that go on. When the end mark of a program is replaced by a newline and more tokens, the
statements of the program are read as before, and the reading then does with the other tokens what
it does with them alone: it reads further statements, or it fails in the same way.
-/

section Continuation

open Attempt

namespace Reading

private theorem itemsWithin_mono {α : Type} {test : Reading Bool} {item : Reading α} {m n : Nat}
    (le : m ≤ n) {ts : List Token}
    (bounded : (itemsWithin test item m ts).1 ≠ .error .unbounded) :
    itemsWithin test item n ts = itemsWithin test item m ts := by
  induction m generalizing n ts with
  | zero => exact absurd rfl bounded
  | succ m ih =>
    obtain ⟨n, rfl⟩ : ∃ k, n = k + 1 := ⟨n - 1, by omega⟩
    rw [itemsWithin, bind_apply] at bounded ⊢
    rw [itemsWithin, bind_apply]
    rcases looked : test ts with ⟨_ | more, mid⟩
    · rfl
    · cases more with
      | false => rfl
      | true =>
        simp only [looked, if_true, bind_apply] at bounded ⊢
        rcases read : item mid with ⟨_ | a, left⟩
        · rfl
        · have inner : (itemsWithin test item m left).1 ≠ .error .unbounded := by
            intro unbounded
            rcases found : itemsWithin test item m left with ⟨_ | as, last⟩
            · simp only [read, found] at bounded unbounded
              exact bounded unbounded
            · rw [found] at unbounded
              cases unbounded
          simp only [ih (Nat.le_of_succ_le_succ le) inner]

private theorem skipNewlines_cons {n : Token} (newline : n.kind = .newline) (ts : List Token) :
    skipNewlines (n :: ts) = skipNewlines ts := by
  have dropped : (n :: ts).dropWhile (fun t => decide (t.kind = .newline)) =
      ts.dropWhile fun t => decide (t.kind = .newline) :=
    List.dropWhile_cons_of_pos (by simpa using newline)
  simp only [skipNewlines, skipWhile, bind_apply, modify_apply, dropped]

private theorem exists_skipNewlines {ts : List Token} (stream : Stream ts) :
    ∃ rest, skipNewlines ts = (.ok (), rest) ∧ rest.length ≤ ts.length := by
  induction stream with
  | @last t atEnd _ =>
    exact ⟨[t], skipNewlines_of_run .none (by simp [atEnd]), le_rfl⟩
  | @cons t rest _ _ _ ih =>
    by_cases newline : t.kind = .newline
    · obtain ⟨last, skip, le⟩ := ih
      exact ⟨last, (skipNewlines_cons newline rest).trans skip, le.trans (Nat.le_succ _)⟩
    · exact ⟨t :: rest, skipNewlines_of_run .none newline, le_rfl⟩

end Reading

namespace Grammar

open Reading

variable {mode : Terminators}

def topLevel (mode : Terminators) : Reading (List Stmt) :=
  statements (statement mode) (seesNone [])

private theorem program_eq (mode : Terminators) : program mode = Program.mk <$> topLevel mode :=
  rfl

private theorem topLevel_ne_unbounded {ts : List Token} (stream : Stream ts) :
    (topLevel mode ts).1 ≠ .error .unbounded := by
  intro unbounded
  have failed : Program.ofTokens mode ts = .error .unbounded := by
    rcases found : topLevel mode ts with ⟨failure | body, rest⟩
    · rw [found] at unbounded
      cases unbounded
      rw [Program.ofTokens, program_eq, map_eq_pure_bind, bind_apply, found]
    · rw [found] at unbounded
      cases unbounded
  obtain ⟨e, same, -⟩ := Program.exists_fault_of_ofTokens stream failed
  cases same

private theorem topLevel_cons {n : Token} (newline : n.kind = .newline) (ts : List Token) :
    topLevel mode (n :: ts) = topLevel mode ts := by
  simp only [topLevel, statements, bind_apply, skipNewlines_cons newline]

private theorem topLevel_of_newlines {ts rest : List Token} (blank : Newlines ts rest) :
    topLevel mode ts = topLevel mode rest := by
  induction blank with
  | none => rfl
  | more newline _ ih => exact (topLevel_cons newline _).trans ih

private theorem topLevel_of_statement {s : Stmt} {t : Token} {ts rest : List Token}
    (starts : Starts t) (stream : Stream (t :: ts)) (stream' : Stream rest)
    (read : statement mode (t :: ts) = (.ok s, rest)) (shorter : rest.length < (t :: ts).length) :
    topLevel mode (t :: ts) = (List.cons s <$> topLevel mode) rest := by
  obtain ⟨last, skip, le⟩ := exists_skipNewlines stream'
  have item : (do let s ← statement mode; skipNewlines; return s) (t :: ts) = (.ok s, last) := by
    rw [bind_apply_ok read, bind_apply_ok skip]
    rfl
  have behind : topLevel mode rest =
      itemsWhile (seesNone []) (do let s ← statement mode; skipNewlines; return s) last := by
    rw [topLevel, statements, bind_apply_ok skip]
  have bounded : (topLevel mode rest).1 ≠ .error .unbounded := topLevel_ne_unbounded stream'
  rw [behind] at bounded
  have others : itemsWithin (seesNone []) (do let s ← statement mode; skipNewlines; return s)
      (t :: ts).length last = topLevel mode rest := by
    rw [behind]
    exact itemsWithin_mono (by omega) bounded
  have more : seesNone [] (t :: ts) = (.ok true, t :: ts) :=
    starts.seesNone stream.regular (by simp)
  rw [topLevel, statements,
    bind_apply_ok (skipNewlines_of_run .none (starts.kind stream.regular).1), itemsWhile,
    Reading.bounded, itemsWithin, bind_apply_ok more, if_pos rfl, bind_apply_ok item,
    map_eq_pure_bind, bind_apply, bind_apply, others]
  rfl

section End

variable {last n : Token} {more : List Token}

private theorem replaces_end (newline : n.kind = .newline) (regular : n.Regular) :
    Replaces [last] (n :: more) where
  opens opening := by
    have operator := regular.kind_of_spells_operator (by decide) opening
    simp [newline] at operator
  declares t declares := by simp [DeclaresObject, newline] at declares

private theorem SameUpTo.stream {ts ts' : List Token} (h : SameUpTo [last] (n :: more) ts ts')
    (stream : Stream ts) (stream' : Stream (n :: more)) : Stream ts' := by
  induction h with
  | here => exact stream'
  | cons t rest ih =>
    cases stream with
    | last => cases rest
    | cons notEnd regular tail => exact .cons notEnd regular (ih tail)

/-- A line that ends with the text ends with the newline that comes in its place, and takes it
unless it has a newline of its own. -/
private theorem LineEnd.transfers_end {ts : List Token} (h : LineEnd mode ts [last])
    (atEnd : last.kind = .endOfInput) (newline : n.kind = .newline) :
    ∃ ts' rest', SameUpTo [last] (n :: more) ts ts' ∧ LineEnd mode ts' rest' ∧ Bounds ts' ∧
      (rest' = n :: more ∨ rest' = more) := by
  cases h with
  | newline kind => exact ⟨_, _, .cons _ .here, .newline kind, .inl kind, .inl rfl⟩
  | endOfInput kind => exact ⟨_, _, .here, .newline newline, .inl newline, .inr rfl⟩
  | missing _ _ notEnd => exact absurd atEnd notEnd

private theorem Builds.transfers_end {s : Stmt} {ts : List Token}
    (h : Builds mode (.statement s) ts [last]) (closed : ¬ endsInExpression s)
    (atEnd : last.kind = .endOfInput) (newline : n.kind = .newline) :
    ∃ ts' rest', SameUpTo [last] (n :: more) ts ts' ∧ Builds mode (.statement s) ts' rest' ∧
      (rest' = n :: more ∨ rest' = more) := by
  cases h with
  | declaration | assignment | expression => exact absurd rfl closed
  | function built =>
    cases built with
    | @routine e _ a b _ head body headed built final ended =>
      obtain ⟨b', rest', atClose, ended, -, which⟩ := ended.transfers_end atEnd newline
      obtain ⟨a', behind, built⟩ := built.transfers (b := b') .here
      obtain ⟨ts', before, headed⟩ := headed.transfers behind
      exact ⟨_, rest', (SameUpTo.cons e atClose).trans before,
        .function (.routine headed built final ended), which⟩
  | @conditional i e _ a b c _ condition thenBody spelled derived lineEnd built final ended =>
    obtain ⟨c', rest', atClose, ended, -, which⟩ := ended.transfers_end atEnd newline
    have replaces := replaces_of_head e c c'
    obtain ⟨b', afterLine, built⟩ := built.transfers .here
    obtain ⟨a', afterCondition, lineEnd⟩ := lineEnd.transfers afterLine
    obtain ⟨ts', before, derived⟩ := derived.transfers replaces afterCondition
    exact ⟨_, rest', (SameUpTo.cons e atClose).trans (.cons i before),
      .conditional spelled derived lineEnd built final ended, which⟩
  | @alternative i l e _ a b c d g _ condition thenBody elseBody spelled derived lineEnd built other
      otherEnd otherBuilt final ended =>
    obtain ⟨g', rest', atClose, ended, -, which⟩ := ended.transfers_end atEnd newline
    have replaces := replaces_of_head e g g'
    obtain ⟨d', afterOther, otherBuilt⟩ := otherBuilt.transfers .here
    obtain ⟨c', between, otherEnd⟩ := otherEnd.transfers afterOther
    obtain ⟨b', afterLine, built⟩ := built.transfers (.cons l between)
    obtain ⟨a', afterCondition, lineEnd⟩ := lineEnd.transfers afterLine
    obtain ⟨ts', before, derived⟩ := derived.transfers replaces afterCondition
    exact ⟨_, rest', (SameUpTo.cons e atClose).trans (.cons i before),
      .alternative spelled derived lineEnd built other otherEnd otherBuilt final ended, which⟩
  | @classDecl c name e _ a b d _ implements fields methods spelled kind face lineEnd built final
      ended =>
    obtain ⟨d', rest', atClose, ended, -, which⟩ := ended.transfers_end atEnd newline
    obtain ⟨b', afterLine, built⟩ := built.transfers (b := d') .here
    obtain ⟨a', afterFace, lineEnd⟩ := lineEnd.transfers afterLine
    obtain ⟨ts', before, face⟩ := face.transfers afterFace
    exact ⟨_, rest', (SameUpTo.cons e atClose).trans (.cons c (.cons name before)),
      .classDecl spelled kind face lineEnd built final ended, which⟩
  | @interfaceDecl i name e _ a b _ methods spelled kind lineEnd listed final ended =>
    obtain ⟨b', rest', atClose, ended, -, which⟩ := ended.transfers_end atEnd newline
    obtain ⟨a', afterLine, listed⟩ := listed.transfers (b := b') .here
    obtain ⟨ts', before, lineEnd⟩ := lineEnd.transfers afterLine
    exact ⟨_, rest', (SameUpTo.cons e atClose).trans (.cons i (.cons name before)),
      .interfaceDecl spelled kind lineEnd listed final ended, which⟩

private theorem statement_of_covers {s : Stmt} {ts rest : List Token}
    (read : ∀ nested, Covers mode nested ts.length → statementWith mode nested ts = (.ok s, rest)) :
    Grammar.statement mode ts = (.ok s, rest) :=
  read _ (covers_statementWithin mode ts.length)

private theorem Builds.reads_on {s : Stmt} {ts : List Token}
    (h : Builds mode (.statement s) ts [last]) (stream : Stream ts)
    (atEnd : last.kind = .endOfInput) (newline : n.kind = .newline) (behind : Stream (n :: more)) :
    ∃ ts' rest', SameUpTo [last] (n :: more) ts ts' ∧ (rest' = n :: more ∨ rest' = more) ∧
      Grammar.statement mode ts' = (.ok s, rest') := by
  have replaces : Replaces [last] (n :: more) := replaces_end newline behind.regular
  by_cases closed : ¬ endsInExpression s
  · obtain ⟨ts', rest', same, built, which⟩ := h.transfers_end closed atEnd newline
    refine ⟨ts', rest', same, which, statement_of_covers fun nested covers => ?_⟩
    exact built.admits (same.stream stream behind) (fun opened => absurd opened closed) nested
      covers
  cases h with
  | @declaration t name q type _ _ _ value found capital kind spelled derived ended =>
    obtain ⟨mid', rest', between, ended, follow, which⟩ := ended.transfers_end atEnd newline
    obtain ⟨ts', before, derived⟩ := derived.transfers replaces between
    have same := SameUpTo.cons t (.cons name (.cons q before))
    have stream' := same.stream stream behind
    have sign := (stream'.tail (more_of_typeOf? found)).tail (by simp [kind])
    refine ⟨_, rest', same, which, statement_of_covers fun nested covers => ?_⟩
    rw [statementWith_declaration found capital kind stream',
      variableDeclaration_cons found kind spelled sign derived ended follow]
  | @assignment t q _ _ _ _ target value free derived spelled derivedValue ended =>
    obtain ⟨a', rest', between, ended, follow, which⟩ := ended.transfers_end atEnd newline
    obtain ⟨mid', sign, derivedValue⟩ := derivedValue.transfers replaces between
    obtain ⟨ts', before, derived⟩ := derived.transfers_cons replaces (.cons q sign)
    have same := SameUpTo.cons t before
    have stream' := same.stream stream behind
    obtain ⟨_, _, head, leads⟩ := derived.leads rfl
    obtain ⟨rfl, -⟩ := List.cons.inj head
    refine ⟨_, rest', same, which, statement_of_covers fun nested covers => ?_⟩
    rw [statementWith_expression leads stream' fun declares =>
        free (before.declares replaces t declares),
      assignment_cons derived spelled derivedValue ended follow stream']
  | @expression t _ _ _ e free derived ended =>
    obtain ⟨mid', rest', between, ended, follow, which⟩ := ended.transfers_end atEnd newline
    obtain ⟨ts', before, derived⟩ := derived.transfers_cons replaces between
    have same := SameUpTo.cons t before
    have stream' := same.stream stream behind
    obtain ⟨_, _, head, leads⟩ := derived.leads rfl
    obtain ⟨rfl, -⟩ := List.cons.inj head
    refine ⟨_, rest', same, which, statement_of_covers fun nested covers => ?_⟩
    rw [statementWith_expression leads stream' fun declares =>
        free (before.declares replaces t declares),
      expressionStatement_cons derived ended follow stream']
  | _ => exact absurd nofun closed

/-- A statement of a program is read as before when the program goes on: it stops in front of the
statements behind it, or, if it is the last one, where the other tokens begin. -/
private theorem Builds.statement_on {s : Stmt} {body : List Stmt} {a b b' : List Token}
    (first : Builds mode (.statement s) a b) (others : Builds mode (.block body) b [last])
    (same : SameUpTo [last] (n :: more) b b') (stream : Stream a) (atEnd : last.kind = .endOfInput)
    (newline : n.kind = .newline) (behind : Stream (n :: more)) :
    ∃ a' rest', SameUpTo [last] (n :: more) a a' ∧ Stream rest' ∧ rest'.length < a'.length ∧
      Grammar.statement mode a' = (.ok s, rest') ∧ topLevel mode rest' = topLevel mode b' := by
  obtain ⟨streamb, shorter⟩ := first.leaves stream
  cases same with
  | here =>
    obtain ⟨a', rest', before, which, read⟩ := first.reads_on stream atEnd newline behind
    obtain ⟨front, rfl, rfl⟩ := before.exists_append
    simp only [List.length_append, List.length_singleton, Construct.least] at shorter
    refine ⟨_, rest', before, ?_⟩
    rcases which with rfl | rfl
    · exact ⟨behind, by simp; omega, read, rfl⟩
    · exact ⟨behind.tail (by simp [newline]), by simp; omega, read,
        (topLevel_cons newline _).symm⟩
  | @cons u c c' inside =>
    have bounds : Bounds (u :: c') := others.bounds_block (.inl atEnd) streamb
    obtain ⟨a', before, built⟩ := first.transfers (b := c') .here
    have outer := (SameUpTo.cons u inside).trans before
    have stream' := outer.stream stream behind
    obtain ⟨streamc, shorter⟩ := built.leaves stream'
    refine ⟨a', u :: c', outer, streamc, shorter, ?_, rfl⟩
    exact statement_of_covers fun nested => built.admits stream' (fun _ => bounds) nested

private theorem Builds.topLevel_on {body : List Stmt} {ts : List Token}
    (h : Builds mode (.block body) ts [last]) (stream : Stream ts)
    (atEnd : last.kind = .endOfInput) (newline : n.kind = .newline)
    (behind : Stream (n :: more)) :
    ∃ ts', SameUpTo [last] (n :: more) ts ts' ∧
      topLevel mode ts' = ((body ++ ·) <$> topLevel mode) more := by
  induction body generalizing ts with
  | nil =>
    cases h with | noStatement blank => ?_
    have ends : SameUpTo [last] (n :: more) [last] (n :: more) := .here
    obtain ⟨ts', same, blank⟩ := Run.transfers blank ends
    refine ⟨ts', same, ?_⟩
    rw [topLevel_of_newlines blank, topLevel_cons newline]
    exact (congrFun (id_map (topLevel mode)) more).symm
  | cons s body ih =>
    cases h with | @statement _ a b _ _ _ blank first others => ?_
    have after := (Newlines.leaves blank stream).1
    obtain ⟨streamb, shorter⟩ := first.leaves after
    obtain ⟨b', same, read⟩ := ih others streamb
    obtain ⟨a', rest', before, stream', shorter', first', onward⟩ :=
      first.statement_on others same after atEnd newline behind
    obtain ⟨ts', whole, blank⟩ := Run.transfers blank before
    refine ⟨ts', whole, ?_⟩
    cases before with
    | here =>
      -- The statement takes a token, so it does not begin with the end mark.
      obtain ⟨u, c, rfl⟩ := streamb.exists_cons
      simp [Construct.least] at shorter
    | @cons t _ tail' inside =>
      obtain ⟨t, tail, head, starts⟩ := first.starts after
      obtain ⟨rfl, rfl⟩ := List.cons.inj head
      have streama := (SameUpTo.cons t inside).stream after behind
      rw [topLevel_of_newlines blank, topLevel_of_statement starts streama stream' first' shorter',
        map_apply, onward, read, map_apply, map_apply]
      rcases topLevel mode more with ⟨_ | q, left⟩ <;> rfl

end End

end Grammar

/-- A program that goes on behind a newline: its statements and then those of the other tokens, or
the failure of the other tokens. -/
theorem Program.ofTokens_append {mode : Terminators} {front more : List Token} {last n : Token}
    {p : Program} (h : ofTokens mode (front ++ [last]) = .ok p) (stream : Stream (front ++ [last]))
    (newline : n.kind = .newline) (behind : Stream (n :: more)) :
    ofTokens mode (front ++ n :: more) = match ofTokens mode more with
      | .ok q => .ok ⟨p.statements ++ q.statements⟩
      | .error failure => .error failure := by
  obtain ⟨final, atEnd, built⟩ := Grammar.derived_of_program stream h
  obtain ⟨ts', same, read⟩ := built.topLevel_on stream atEnd newline behind
  obtain ⟨before, whole, rfl⟩ := same.exists_append
  obtain ⟨rfl, -⟩ := List.append_inj' whole rfl
  rw [ofTokens, ofTokens, Grammar.program_eq, map_apply, map_apply, read, map_apply]
  rcases Grammar.topLevel mode more with ⟨_ | q, left⟩ <;> rfl

end Continuation

/-! ## Concatenation

Sources one after the other. A text that spells a program goes on with any other text on the next
line: its statements stay what they are, and the other text is read as it is alone, only as many
lines further down as the first text takes up.
-/

def SourceError.below (lines : Int) : SourceError → SourceError
  | .lex failure => .lex (failure.map (.below lines))
  | .parse failure => .parse (failure.relocate (·.below lines))

namespace Program

variable {mode : Terminators} {s : String} {p : Program}

/-- A text that spells a program, a line feed and any text: they spell the statements of the
program and then those of the other text, or fail as the other text does. Places in the other text
are as many lines further down as the line of the end mark of the first. -/
theorem ofSource_append (parsed : ofSource mode s = .ok p) :
    ∃ tokens last, tokenize s = .ok tokens ∧ tokens.getLast? = some last ∧
      last.kind = .endOfInput ∧ ∀ t, ofSource mode (s ++ "\n" ++ t) =
        match ofSource mode t with
        | .ok q => .ok ⟨p.statements ++ (q.relocate (·.below last.position.line)).statements⟩
        | .error e => .error (e.below last.position.line) := by
  obtain ⟨tokens, tokenized, accepted⟩ := ofSource_eq_ok_iff.mp parsed
  obtain ⟨front, place, rfl, whole⟩ := tokenize_append tokenized
  refine ⟨_, ⟨.endOfInput, "", place⟩, tokenized, by simp, rfl, fun t => ?_⟩
  have tokens := whole t
  unfold ofSource
  cases cut : tokenize t with
  | error failure =>
    rw [cut] at tokens
    rw [tokens]
    rfl
  | ok more =>
    rw [cut] at tokens
    have behind := (stream_of_tokenize tokens).of_append
    simp only [tokens, ofTokens_append accepted (stream_of_tokenize tokenized) rfl behind,
      ofTokens_relocate]
    cases ofTokens mode more <;> rfl

/-- A name at the end of a line and a parenthesis on the next one are no call, and an error there
is reported there. -/
theorem ofSource_append_of_parenthesis :
    let p : Program := ⟨[.expression ⟨1, 1⟩ (.identifier ⟨1, 1⟩ "f")]⟩
    ofSource .strict "f # (" = .ok p ∧
      ofSource .strict ("f # (" ++ "\n" ++ "(2)") =
        .ok ⟨p.statements ++ [.expression ⟨2, 1⟩ (.integer ⟨2, 2⟩ 2)]⟩ ∧
      ofSource .strict ("f # (" ++ "\n" ++ "(2") =
        .error (.parse (.syntaxError ⟨.unexpected (.sign ")") .endOfInput, ⟨2, 3⟩⟩)) := by
  intro p
  have tokenized : tokenize "f # (" =
      .ok [⟨.identifier, "f", ⟨1, 1⟩⟩, ⟨.endOfInput, "", ⟨1, 6⟩⟩] := by
    show tokensFrom .first ['f', ' ', '#', ' ', '('] = _
    iterate 3 refine tokensFrom_cons rfl rfl ?_
    exact tokensFrom_nil _
  have closed : tokenize "(2)" = .ok [⟨.operator, "(", ⟨1, 1⟩⟩, ⟨.integer, "2", ⟨1, 2⟩⟩,
      ⟨.operator, ")", ⟨1, 3⟩⟩, ⟨.endOfInput, "", ⟨1, 4⟩⟩] := by
    show tokensFrom .first ['(', '2', ')'] = _
    iterate 3 refine tokensFrom_cons rfl rfl ?_
    exact tokensFrom_nil _
  have opened : tokenize "(2" = .ok [⟨.operator, "(", ⟨1, 1⟩⟩, ⟨.integer, "2", ⟨1, 2⟩⟩,
      ⟨.endOfInput, "", ⟨1, 3⟩⟩] := by
    show tokensFrom .first ['(', '2'] = _
    iterate 2 refine tokensFrom_cons rfl rfl ?_
    exact tokensFrom_nil _
  have parsed : ofSource .strict "f # (" = .ok p := ofSource_eq_ok_iff.mpr ⟨_, tokenized, rfl⟩
  obtain ⟨tokens, last, cut, final, -, whole⟩ := ofSource_append parsed
  rw [tokenized] at cut
  cases cut
  cases final
  refine ⟨parsed, ?_, ?_⟩
  · rw [whole, ofSource, closed]
    rfl
  · rw [whole, ofSource, opened]
    rfl

end Program

end ScriptLang
