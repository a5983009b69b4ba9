import ScriptLang.Proofs.Canonical.RoundTrip

/-!
The canonical text of a program opens as few parentheses as any text that spells the program. A call
and a head open one each wherever they stand; an operation stands between parentheses of its own
only where it binds less tightly than its place asks for, and there the grammar wants them as well.
-/

set_option autoImplicit false
set_option relaxedAutoImplicit false

namespace ScriptLang

open Grammar
open Operator (primaryPrecedence)

def openings (ts : List Token) : Nat :=
  ts.countP (·.spells "(")

section Openings

variable {t : Token} {ts us : List Token}

@[simp] theorem openings_nil : openings [] = 0 := rfl

@[simp] theorem openings_append (ts us : List Token) :
    openings (ts ++ us) = openings ts + openings us :=
  List.countP_append

private theorem openings_cons (t : Token) (ts : List Token) :
    openings (t :: ts) = openings ts + if t.spells "(" then 1 else 0 :=
  List.countP_cons

private theorem openings_le_cons (t : Token) (ts : List Token) :
    openings ts ≤ openings (t :: ts) := by
  rw [openings_cons]
  exact Nat.le_add_right _ _

private theorem openings_cons_of_spells
    (h : t.spells "(") : openings (t :: ts) = openings ts + 1 := by
  rw [openings_cons, if_pos h]

private theorem openings_cons_of_not (h : ¬ t.spells "(") : openings (t :: ts) = openings ts := by
  rw [openings_cons, if_neg h, Nat.add_zero]

private theorem openings_le_of_suffix (h : us <:+ ts) : openings us ≤ openings ts :=
  h.sublist.countP_le

@[simp] theorem openings_name (name : String) : openings (.name name :: ts) = openings ts :=
  openings_cons_of_not (by simp [Token.spells, Token.name, Token.plain])

@[simp] theorem openings_opening : openings (.sign "(" :: ts) = openings ts + 1 :=
  openings_cons_of_spells (spells_sign "(")

@[simp] theorem openings_sign {s : String} (other : s ≠ "(") :
    openings (.sign s :: ts) = openings ts :=
  openings_cons_of_not (not_opens_sign other ts)

@[simp] theorem openings_reserved {word : String} (other : word ≠ "(") :
    openings (.reserved word :: ts) = openings ts :=
  openings_cons_of_not (by simp [Token.spells, Token.reserved, Token.plain, other])

@[simp] theorem openings_type (type : Ty) : openings (type.token :: ts) = openings ts := by
  cases type <;> simp [Ty.token]

@[simp] theorem openings_feed : openings (.feed :: ts) = openings ts :=
  openings_cons_of_not (not_opens_feed ts)

@[simp] theorem openings_string (text : String) :
    openings (.plain .string text :: ts) = openings ts :=
  openings_cons_of_not (by simp [Token.spells, Token.plain])

private theorem openings_integer (n : Nat) :
    openings (.plain .integer (toString (n : Int)) :: ts) = openings ts := by
  refine openings_cons_of_not fun spelled => ?_
  have text : (toString (n : Int)).toList = Nat.toDigits 10 n := Nat.toList_repr
  have same : toString (n : Int) = "(" := (Token.spells_iff.mp spelled).1
  rw [same] at text
  have digit : '(' ∈ Nat.toDigits 10 n := text ▸ List.mem_singleton_self _
  exact absurd (Nat.isDigit_of_mem_toDigits (by decide) (by decide) digit) (by decide)

end Openings

section Expressions

private theorem Expr.openings_tokens_binary (p : Position) (operator : Operator) (left right : Expr)
    (least : Nat) :
    openings ((Expr.binary p operator left right).tokens least) =
      openings (left.tokens operator.precedence) +
        openings (.sign operator.sign :: right.tokens (operator.precedence + 1)) +
        if operator.precedence < least then 1 else 0 := by
  rw [Expr.tokens]
  split
  · simp only [openings_opening, openings_append, openings_sign (by decide : ")" ≠ "("),
      openings_nil, Nat.add_zero]
  · rw [openings_append]
    rfl

private theorem Expr.openings_tokens_mono (e : Expr) {m n : Nat} (le : m ≤ n) :
    openings (e.tokens m) ≤ openings (e.tokens n) := by
  cases e with
  | binary p operator left right =>
    rw [openings_tokens_binary, openings_tokens_binary]
    split <;> split <;> omega
  | _ => exact le_rfl

private theorem Expr.openings_tokens_le_succ (e : Expr) (m n : Nat) :
    openings (e.tokens n) ≤ openings (e.tokens m) + 1 := by
  cases e with
  | binary p operator left right =>
    rw [openings_tokens_binary, openings_tokens_binary]
    split <;> split <;> omega
  | _ => exact Nat.le_succ _

namespace Grammar.Phrase

def openingsGiven : Phrase → Nat
  | accesses a _ => openings (a.tokens primaryPrecedence)
  | operands level a _ => openings (a.tokens level)
  | atom _ | expression _ _ | items _ | arguments _ => 0

def openingsMade : Phrase → Nat
  | atom e | accesses _ e => openings (e.tokens primaryPrecedence)
  | operands level _ e | expression level e => openings (e.tokens level)
  | items args => openings (argTokens args)
  | arguments args => openings (argTokens args) + 1

end Grammar.Phrase

private theorem Grammar.Derives.openings_le {phrase : Phrase} {ts rest : List Token}
    (h : Derives phrase ts rest) :
    openings rest + phrase.openingsMade ≤ openings ts + phrase.openingsGiven := by
  induction h with
  | @integer t rest | @string t rest | @template t rest | @identifier t rest =>
    simpa only [Phrase.openingsMade, Phrase.openingsGiven, Expr.tokens, openings_integer,
      openings_string, openings_name, openings_nil, Nat.add_zero] using openings_le_cons t rest
  | @functionCall t ts rest args _ _ ih =>
    have name := openings_le_cons t ts
    simp only [Phrase.openingsMade, Phrase.openingsGiven, Expr.tokens, openings_name,
      openings_opening, openings_append, openings_sign (by decide : ")" ≠ "("), openings_nil]
      at ih ⊢
    omega
  | @group p q ts rest e opening _ _ ih =>
    -- The parenthesis of the group pays for the one that its operand may need in its place.
    have inner := openings_le_cons q rest
    have around := e.openings_tokens_le_succ 1 primaryPrecedence
    rw [openings_cons_of_spells opening]
    simp only [Phrase.openingsMade, Phrase.openingsGiven] at ih ⊢
    omega
  | noAccess | noOperand | noItem => exact le_rfl
  | @fieldAccess d name ts rest receiver e _ _ _ _ ih =>
    have dot := openings_le_cons d (name :: ts)
    have member := openings_le_cons name ts
    simp only [Phrase.openingsMade, Phrase.openingsGiven, Expr.tokens, openings_append,
      openings_sign (by decide : "." ≠ "("), openings_name, openings_nil] at ih ⊢
    omega
  | @methodCall d name ts mid rest receiver e args _ _ _ _ _ ihArgs ih =>
    have dot := openings_le_cons d (name :: ts)
    have member := openings_le_cons name ts
    simp only [Phrase.openingsMade, Phrase.openingsGiven, Expr.tokens, openings_append,
      openings_sign (by decide : "." ≠ "("), openings_name, openings_opening,
      openings_sign (by decide : ")" ≠ "("), openings_nil] at ihArgs ih ⊢
    omega
  | @creation d name ts mid rest position className e args _ _ _ _ _ ihArgs ih =>
    have dot := openings_le_cons d (name :: ts)
    have member := openings_le_cons name ts
    simp only [Phrase.openingsMade, Phrase.openingsGiven, Expr.tokens, openings_append,
      openings_sign (by decide : "." ≠ "("), openings_name, openings_opening,
      openings_sign (by decide : ")" ≠ "("), openings_nil] at ihArgs ih ⊢
    omega
  | @operand level t ts mid rest operator left right e positive precedence _ _ _ ihRight ih =>
    have sign := openings_le_cons t ts
    have known : operator.precedence ≠ 0 := by omega
    subst precedence
    simp only [Phrase.openingsMade, Phrase.openingsGiven, Expr.openings_tokens_binary,
      openings_sign (Operator.sign_ne known (by decide)), lt_irrefl, if_false] at ihRight ih ⊢
    omega
  | primary _ _ ihFirst ih =>
    simp only [Phrase.openingsMade, Phrase.openingsGiven] at ihFirst ih ⊢
    omega
  | @operation level ts mid rest left e _ _ _ _ ihFirst ih =>
    have looser := left.openings_tokens_mono (Nat.le_add_right level 1)
    simp only [Phrase.openingsMade, Phrase.openingsGiven] at ihFirst ih ⊢
    omega
  | @item ts mid rest e es _ _ ihFirst ih =>
    have looser := e.openings_tokens_mono (Nat.zero_le 1)
    simp only [Phrase.openingsMade, Phrase.openingsGiven, argTokens, openings_append]
      at ihFirst ih ⊢
    omega
  | @arguments p q ts rest args opening _ _ ih =>
    have inner := openings_le_cons q rest
    rw [openings_cons_of_spells opening]
    simp only [Phrase.openingsMade, Phrase.openingsGiven] at ih ⊢
    omega

private theorem Grammar.Derives.openings_tokens_le {e : Expr} {ts rest : List Token}
    (h : Derives (.expression 1 e) ts rest) :
    openings rest + openings (e.tokens 0) ≤ openings ts :=
  (Nat.add_le_add_left (e.openings_tokens_mono (Nat.zero_le 1)) _).trans h.openings_le

end Expressions

section Declarations

@[simp] theorem openings_endTokens : openings endTokens = 0 := by
  simp [endTokens]

@[simp] theorem openings_implementsTokens (face : Option String) :
    openings (implementsTokens face) = 0 := by
  cases face <;> simp [implementsTokens]

@[simp] theorem openings_fields (fields : List Field) :
    openings (fields.flatMap Field.tokens) = 0 := by
  induction fields with
  | nil => rfl
  | cons d more ih => simp [Field.tokens, ih]

@[simp] theorem openings_params (ps : List Param) : openings (ps.flatMap Param.tokens) = 0 := by
  induction ps with
  | nil => rfl
  | cons p more ih => simp [Param.tokens, ih]

private theorem Signature.openings_tokens (s : Signature) {mark : String} (other : mark ≠ "(") :
    openings (s.tokens mark) = 1 := by
  simp [Signature.tokens, other]

@[simp] theorem openings_signatures (ms : List Signature) :
    openings (ms.flatMap (Signature.tokens ":")) = ms.length := by
  induction ms with
  | nil => rfl
  | cons s more ih => simp [s.openings_tokens, ih, Nat.add_comm]

private theorem Routine.openings_tokens (r : Routine) {mark : String} (other : mark ≠ "(") :
    openings (r.tokens mark) = openings (blockTokens r.body) + 1 := by
  obtain ⟨head, body⟩ := r
  simp [Routine.tokens, head.openings_tokens other, Nat.add_comm]

namespace Grammar

variable {mode : Terminators} {ts rest : List Token}

private theorem Run.openings_le {test : Token → Prop} (h : Run test ts rest) :
    openings rest ≤ openings ts := by
  induction h with
  | none => exact le_rfl
  | @more t ts rest _ _ ih => exact ih.trans (openings_le_cons t ts)

private theorem LineEnd.openings_le (h : LineEnd mode ts rest) : openings rest ≤ openings ts := by
  cases h with
  | @newline t => exact openings_le_cons t rest
  | endOfInput | missing => exact le_rfl

/-- Strays may hold parentheses, of which the canonical tokens know nothing. -/
private theorem Parameters.openings_le {ps : List Param} (h : Parameters ps ts rest) :
    openings rest ≤ openings ts := by
  induction h with
  | @none q rest => exact openings_le_cons q rest
  | @param name colon t type ts mid rest ps _ _ _ strays _ ih =>
    calc openings rest ≤ openings ts := ih.trans strays.openings_le
      _ ≤ openings (t :: ts) := openings_le_cons t ts
      _ ≤ openings (colon :: t :: ts) := openings_le_cons colon _
      _ ≤ openings (name :: colon :: t :: ts) := openings_le_cons name _

private theorem Heads.openings_le {s : Signature} (h : Heads mode s ts rest) :
    openings rest + 1 ≤ openings ts := by
  cases h with
  | @head d name p separator t type ts mid rest ps _ _ opening params _ _ _ ended =>
    have inner : openings rest ≤ openings ts :=
      calc openings rest ≤ openings mid := ended.openings_le
        _ ≤ openings (t :: mid) := openings_le_cons t mid
        _ ≤ openings (separator :: t :: mid) := openings_le_cons separator _
        _ ≤ openings ts := params.openings_le
    calc openings rest + 1 ≤ openings (p :: ts) := by
          rw [openings_cons_of_spells opening]
          exact Nat.succ_le_succ inner
      _ ≤ openings (name :: p :: ts) := openings_le_cons name _
      _ ≤ openings (d :: name :: p :: ts) := openings_le_cons d _

private theorem Signatures.openings_le {ss : List Signature} (h : Signatures mode ss ts rest) :
    openings rest + ss.length ≤ openings ts := by
  induction h with
  | none blank => exact blank.openings_le
  | more blank first _ ih =>
    have before := blank.openings_le
    have head := first.openings_le
    rw [List.length_cons]
    omega

private theorem Fields.openings_le {d : Field} (h : Fields mode d ts rest) :
    openings rest ≤ openings ts := by
  cases h with
  | @field t name type ts rest _ _ ended =>
    exact ended.openings_le.trans
      ((openings_le_cons name ts).trans (openings_le_cons t (name :: ts)))

private theorem Implements.openings_le {face : Option String} (h : Implements face ts rest) :
    openings rest ≤ openings ts := by
  cases h with
  | none => exact le_rfl
  | @some i name rest =>
    exact (openings_le_cons name rest).trans (openings_le_cons i (name :: rest))

def Construct.openingsMade : Construct → Nat
  | .statement s => openings s.tokens
  | .block body => openings (blockTokens body)
  | .routine r => openings (blockTokens r.body) + 1
  | .members _ methods => openings (methodTokens methods)

private theorem Builds.openings_le {construct : Construct} (h : Builds mode construct ts rest) :
    openings rest + construct.openingsMade ≤ openings ts := by
  induction h with
  | @declaration t name q type ts mid rest value _ _ _ _ derived ended =>
    have front : openings ts ≤ openings (t :: name :: q :: ts) :=
      openings_le_of_suffix ⟨[t, name, q], rfl⟩
    have value := derived.openings_tokens_le
    have line := ended.openings_le
    simp [Construct.openingsMade, Stmt.tokens]
    omega
  | @function ts rest r _ ih =>
    rw [Construct.openingsMade, Stmt.tokens, r.openings_tokens (by decide)]
    exact ih
  | @conditional i e ts a b c rest condition thenBody _ derived ended _ _ closeEnded ih =>
    have word := openings_le_cons i ts
    have condition := derived.openings_tokens_le
    have line := ended.openings_le
    have close := openings_le_cons e c
    have closeLine := closeEnded.openings_le
    simp [Construct.openingsMade, Stmt.tokens, elseTokens] at ih ⊢
    omega
  | @alternative i l e ts a b c d f rest condition thenBody elseBody _ derived ended _ _ elseEnded _
      _ closeEnded ihThen ihElse =>
    have word := openings_le_cons i ts
    have condition := derived.openings_tokens_le
    have line := ended.openings_le
    have other := openings_le_cons l c
    have otherLine := elseEnded.openings_le
    have close := openings_le_cons e f
    have closeLine := closeEnded.openings_le
    simp [Construct.openingsMade, Stmt.tokens, elseTokens] at ihThen ihElse ⊢
    omega
  | @classDecl c name e ts a b d rest face fields methods _ _ implements ended _ _ closeEnded ih =>
    have front : openings ts ≤ openings (c :: name :: ts) := openings_le_of_suffix ⟨[c, name], rfl⟩
    have face := implements.openings_le
    have line := ended.openings_le
    have close := openings_le_cons e d
    have closeLine := closeEnded.openings_le
    simp [Construct.openingsMade, Stmt.tokens, ClassDecl.tokens] at ih ⊢
    omega
  | @interfaceDecl i name e ts a b rest methods _ _ ended listed _ closeEnded =>
    have front : openings ts ≤ openings (i :: name :: ts) := openings_le_of_suffix ⟨[i, name], rfl⟩
    have line := ended.openings_le
    have heads := listed.openings_le
    have close := openings_le_cons e b
    have closeLine := closeEnded.openings_le
    simp [Construct.openingsMade, Stmt.tokens, InterfaceDecl.tokens]
    omega
  | @assignment t q ts mid a rest target value _ first _ second ended =>
    have target := first.openings_tokens_le
    have sign := openings_le_cons q mid
    have value := second.openings_tokens_le
    have line := ended.openings_le
    simp [Construct.openingsMade, Stmt.tokens]
    omega
  | expression _ derived ended =>
    have value := derived.openings_tokens_le
    have line := ended.openings_le
    simp [Construct.openingsMade, Stmt.tokens]
    omega
  | @routine e ts a b rest head body headed _ _ closeEnded ih =>
    have head := headed.openings_le
    have close := openings_le_cons e b
    have closeLine := closeEnded.openings_le
    simp only [Construct.openingsMade] at ih ⊢
    omega
  | noStatement blank | noMember blank =>
    simpa [Construct.openingsMade, blockTokens, methodTokens] using Run.openings_le blank
  | statement blank _ _ ihFirst ih =>
    have before := Run.openings_le blank
    simp only [Construct.openingsMade, blockTokens, openings_append] at ihFirst ih ⊢
    omega
  | field blank first _ ih =>
    have before := Run.openings_le blank
    have field := first.openings_le
    simp only [Construct.openingsMade] at ih ⊢
    omega
  | @method ts a b rest m fields methods blank _ _ ihFirst ih =>
    have before := Run.openings_le blank
    simp only [Construct.openingsMade, methodTokens, openings_append,
      m.openings_tokens (by decide : ":" ≠ "(")] at ihFirst ih ⊢
    omega

end Grammar

end Declarations

namespace Program

variable {p q : Program} {source : String} {mode : Terminators} {tokens : List Token}

private theorem openings_tokens_le (h : q.Derived mode tokens) :
    openings q.tokens ≤ openings tokens := by
  obtain ⟨last, -, built⟩ := h
  exact (Nat.le_add_left _ _).trans built.openings_le

private theorem openings_unplaced (ts : List Token) :
    openings (ts.map Token.unplaced) = openings ts :=
  List.countP_map

private theorem tokens_unplaced (p : Program) : p.unplaced.tokens = p.tokens := by
  have moved := blockTokens_relocate (fun _ => .first)
    fun s (_ : s ∈ p.statements) => s.tokens_relocate _
  rwa [relocateBlock_eq_map] at moved

/-- The canonical text of a program that is read from a source opens no more parentheses than the
source, and no more than any other source of the same program, up to places. -/
theorem openings_canonical_le (source : String) (mode : Terminators) (p : Program)
    (h : ofSource mode source = .ok p) :
    ∃ text shown, p.canonical = .ok text ∧ tokenize text = .ok shown ∧
      (∃ tokens, tokenize source = .ok tokens ∧ openings shown ≤ openings tokens) ∧
      ∀ other mode' q tokens, ofSource mode' other = .ok q → q.unplaced = p.unplaced →
        tokenize other = .ok tokens → openings shown ≤ openings tokens := by
  have known := wellFormed_of_ofSource h
  obtain ⟨shown, cut, same⟩ := tokenize_text known
  have count : openings shown = openings p.tokens := by
    rw [← openings_unplaced, same, openings_append]
    rfl
  have least (other : String) (mode' : Terminators) (q : Program) (tokens : List Token)
      (read : ofSource mode' other = .ok q) (alike : q.unplaced = p.unplaced)
      (taken : tokenize other = .ok tokens) : openings shown ≤ openings tokens := by
    obtain ⟨tokens', taken', accepted⟩ := ofSource_eq_ok_iff.mp read
    obtain rfl := Except.ok.inj (taken'.symm.trans taken)
    have derived := (ofTokens_eq_ok_iff (stream_of_tokenize taken)).mp accepted
    calc openings shown = openings p.tokens := count
      _ = openings q.tokens := by rw [← p.tokens_unplaced, ← alike, q.tokens_unplaced]
      _ ≤ openings tokens' := openings_tokens_le derived
  obtain ⟨tokens, taken, -⟩ := ofSource_eq_ok_iff.mp h
  exact ⟨p.text, shown, canonical_eq known, cut,
    ⟨tokens, taken, least source mode p tokens h rfl taken⟩, least⟩

theorem openings_canonical_of_redundant_groups : ∃ p shown tokens,
    ofSource .strict "((1 + 2)) * (3)" = .ok p ∧ p.canonical = .ok "(1 + 2) * 3\n" ∧
      tokenize "(1 + 2) * 3\n" = .ok shown ∧ tokenize "((1 + 2)) * (3)" = .ok tokens ∧
      openings shown ≤ openings tokens ∧ openings shown = 1 ∧ openings tokens = 3 := by
  let sum : Expr := .binary ⟨1, 3⟩ .add (.integer ⟨1, 3⟩ 1) (.integer ⟨1, 7⟩ 2)
  let p : Program := ⟨[.expression ⟨1, 1⟩ (.binary ⟨1, 3⟩ .multiply sum (.integer ⟨1, 14⟩ 3))]⟩
  have cut : tokenize "((1 + 2)) * (3)" = .ok [⟨.operator, "(", ⟨1, 1⟩⟩,
      ⟨.operator, "(", ⟨1, 2⟩⟩, ⟨.integer, "1", ⟨1, 3⟩⟩, ⟨.operator, "+", ⟨1, 5⟩⟩,
      ⟨.integer, "2", ⟨1, 7⟩⟩, ⟨.operator, ")", ⟨1, 8⟩⟩, ⟨.operator, ")", ⟨1, 9⟩⟩,
      ⟨.operator, "*", ⟨1, 11⟩⟩, ⟨.operator, "(", ⟨1, 13⟩⟩, ⟨.integer, "3", ⟨1, 14⟩⟩,
      ⟨.operator, ")", ⟨1, 15⟩⟩, ⟨.endOfInput, "", ⟨1, 16⟩⟩] := by
    show tokensFrom .first ['(', '(', '1', ' ', '+', ' ', '2', ')', ')', ' ', '*', ' ', '(', '3',
      ')'] = _
    iterate 15 refine tokensFrom_cons rfl rfl ?_
    exact tokensFrom_nil _
  have cutText : tokenize "(1 + 2) * 3\n" = .ok [⟨.operator, "(", ⟨1, 1⟩⟩,
      ⟨.integer, "1", ⟨1, 2⟩⟩, ⟨.operator, "+", ⟨1, 4⟩⟩, ⟨.integer, "2", ⟨1, 6⟩⟩,
      ⟨.operator, ")", ⟨1, 7⟩⟩, ⟨.operator, "*", ⟨1, 9⟩⟩, ⟨.integer, "3", ⟨1, 11⟩⟩,
      ⟨.newline, "\n", ⟨1, 12⟩⟩, ⟨.endOfInput, "", ⟨2, 1⟩⟩] := by
    show tokensFrom .first ['(', '1', ' ', '+', ' ', '2', ')', ' ', '*', ' ', '3', '\n'] = _
    iterate 12 refine tokensFrom_cons rfl rfl ?_
    exact tokensFrom_nil _
  have accepted : ofSource .strict "((1 + 2)) * (3)" = .ok p := by
    unfold ofSource
    rw [cut]
    rfl
  have same : p.canonical = .ok "(1 + 2) * 3\n" := rfl
  obtain ⟨text, shown, written, taken, -, least⟩ := openings_canonical_le _ .strict p accepted
  obtain rfl := Except.ok.inj (written.symm.trans same)
  obtain rfl := Except.ok.inj (taken.symm.trans cutText)
  exact ⟨p, _, _, accepted, same, cutText, cut, least _ _ p _ accepted rfl cut, rfl, rfl⟩

end Program

end ScriptLang
