import Mathlib.Data.List.Basic
import ScriptLang.Proofs.Program.WellFormed
import ScriptLang.Proofs.Token.Cut

/-!
The tokens of the canonical text of a program, without their places, and that the text is cut into
them. A program is laid out as a text and as a token list by the same recursion, so the two are
compared node by node.
-/

set_option autoImplicit false
set_option relaxedAutoImplicit false

namespace ScriptLang

mutual

/-- The tokens of an expression, between parentheses if it is an operation that binds less tightly
than `least`. -/
def Expr.tokens (least : Nat) : Expr → List Token
  | .integer _ value => [.plain .integer (toString value)]
  | .string _ text | .template _ text => [.plain .string text]
  | .identifier _ name => [.name name]
  | .binary _ operator left right =>
    let bare := left.tokens operator.precedence ++
      .sign operator.sign :: right.tokens (operator.precedence + 1)
    if operator.precedence < least then .sign "(" :: (bare ++ [.sign ")"]) else bare
  | .functionCall _ name args => .name name :: .sign "(" :: (argTokens args ++ [.sign ")"])
  | .methodCall _ receiver method args =>
    receiver.tokens Operator.primaryPrecedence ++
      .sign "." :: .name method :: .sign "(" :: (argTokens args ++ [.sign ")"])
  | .fieldAccess _ receiver field =>
    receiver.tokens Operator.primaryPrecedence ++ [.sign ".", .name field]
  | .creation _ className args =>
    .name className :: .sign "." :: .name "new" :: .sign "(" :: (argTokens args ++ [.sign ")"])

def argTokens : List Expr → List Token
  | [] => []
  | e :: more => e.tokens 0 ++ argTokens more

end

def Ty.token : Ty → Token
  | int => .reserved "Int"
  | string => .reserved "String"
  | void => .reserved "void"
  | named name => .name name

def Param.tokens (p : Param) : List Token :=
  [.name p.name, .sign ":", p.type.type.token]

/-- The tokens of a head and of the end of its line; `mark` stands before the type that is
returned. -/
def Signature.tokens (mark : String) (s : Signature) : List Token :=
  .reserved "def" :: .name s.name :: .sign "(" :: (s.params.flatMap Param.tokens ++
    [.sign ")", .sign mark, s.returns.type.token, .feed])

def Field.tokens (d : Field) : List Token :=
  [d.type.type.token, .name d.name, .feed]

def implementsTokens : Option String → List Token
  | none => []
  | some face => [.reserved "implements", .name face]

def endTokens : List Token :=
  [.reserved "end", .feed]

def InterfaceDecl.tokens (d : InterfaceDecl) : List Token :=
  .reserved "interface" :: .name d.name :: .feed ::
    (d.methods.flatMap (Signature.tokens ":") ++ endTokens)

mutual

def Stmt.tokens : Stmt → List Token
  | .declaration _ type name value =>
    type.type.token :: .name name :: .sign "=" :: (value.tokens 0 ++ [.feed])
  | .function routine => routine.tokens "->"
  | .conditional _ condition thenBody elseBody =>
    .reserved "if" :: (condition.tokens 0 ++
      .feed :: (blockTokens thenBody ++ (elseTokens elseBody ++ endTokens)))
  | .classDecl decl => decl.tokens
  | .interfaceDecl decl => decl.tokens
  | .assignment _ target value =>
    target.tokens 0 ++ .sign "=" :: (value.tokens 0 ++ [.feed])
  | .expression _ expr => expr.tokens 0 ++ [.feed]

def Routine.tokens (mark : String) : Routine → List Token
  | ⟨head, body⟩ => head.tokens mark ++ (blockTokens body ++ endTokens)

def ClassDecl.tokens : ClassDecl → List Token
  | ⟨_, name, implements, fields, methods⟩ =>
    .reserved "class" :: .name name :: (implementsTokens implements ++
      .feed :: (fields.flatMap Field.tokens ++ (methodTokens methods ++ endTokens)))

def methodTokens : List Routine → List Token
  | [] => []
  | m :: more => m.tokens ":" ++ methodTokens more

def blockTokens : List Stmt → List Token
  | [] => []
  | s :: more => s.tokens ++ blockTokens more

def elseTokens : Option (List Stmt) → List Token
  | none => []
  | some body => .reserved "else" :: .feed :: blockTokens body

end

/-- That a text is cut into tokens wherever no word goes on after it. -/
def Spells (text : String) (ts : List Token) : Prop :=
  ∀ ⦃rest : List Char⦄ ⦃us : List Token⦄, Breaks rest → Cut rest us →
    Cut (text.toList ++ rest) (ts ++ us)

section Breaks

variable {rest : List Char}

theorem breaks_space : Breaks (' ' :: rest) :=
  Bool.false_ne_true

private theorem breaks_newline : Breaks ('\n' :: rest) :=
  Bool.false_ne_true

private theorem breaks_opening : Breaks ('(' :: rest) :=
  Bool.false_ne_true

private theorem breaks_closing : Breaks (')' :: rest) :=
  Bool.false_ne_true

private theorem breaks_dot : Breaks ('.' :: rest) :=
  Bool.false_ne_true

private theorem breaks_colon : Breaks (':' :: rest) :=
  Bool.false_ne_true

end Breaks

theorem Operator.cut_sign {operator : Operator} (known : operator.precedence ≠ 0)
    {rest : List Char} {ts : List Token} (h : Cut rest ts) :
    Cut (operator.sign.toList ++ ' ' :: rest) (.sign operator.sign :: ts) := by
  cases operator with
  | unknown => exact absurd rfl known
  | equal => exact h.space.equals
  | _ => exact h.sign_space (by decide)

theorem Ty.spells_display {type : Ty} (h : type.WellFormed) : Spells type.display [type.token] := by
  intro rest us breaks cut
  cases type with
  | named name => exact cut.name h breaks
  | _ => exact cut.reserved (by decide) breaks

theorem isName_new : IsName "new" :=
  ⟨⟨'n', ['e', 'w'], rfl, by decide, List.all_eq_true.mp (by decide)⟩, by decide⟩

private theorem spells_args {args : List Expr}
    (each : ∀ a ∈ args, Spells (a.text 0) (a.tokens 0)) :
    Spells (" ".intercalate (argTexts args)) (argTokens args) := by
  induction args with
  | nil =>
    intro rest us breaks cut
    simpa [argTexts, argTokens] using cut
  | cons e more ih =>
    intro rest us breaks cut
    have first : Spells (e.text 0) (e.tokens 0) := each e List.mem_cons_self
    have others := ih fun a found => each a (List.mem_cons_of_mem e found)
    cases more with
    | nil => simpa [argTexts, argTokens] using first breaks cut
    | cons e' more =>
      have tail := others breaks cut
      simp only [argTexts, String.intercalate_cons_cons, String.toList_append, argTokens,
        List.append_assoc] at tail ⊢
      exact first breaks_space tail.space

theorem Expr.spells {e : Expr} (h : e.WellFormed) (least : Nat) :
    Spells (e.text least) (e.tokens least) := by
  induction e generalizing least with
  | integer p value =>
    intro rest us breaks cut
    obtain ⟨n, rfl⟩ := Int.eq_ofNat_of_zero_le h.1
    exact cut.integer (by have small := h.2; omega) breaks
  | string p text | template p text =>
    intro rest us breaks cut
    simpa [Expr.text, Expr.tokens, String.toList_append] using cut.string h.1
  | identifier p name =>
    intro rest us breaks cut
    exact cut.name h breaks
  | binary p operator left right ihLeft ihRight =>
    intro rest us breaks cut
    obtain ⟨known, left', right'⟩ := h
    -- The operands and the sign between them, whatever the parentheses around.
    have bare {rest : List Char} {us : List Token} (breaks : Breaks rest) (cut : Cut rest us) :
        Cut ((left.text operator.precedence).toList ++ ' ' :: (operator.sign.toList ++
            ' ' :: ((right.text (operator.precedence + 1)).toList ++ rest)))
          (left.tokens operator.precedence ++ .sign operator.sign ::
            (right.tokens (operator.precedence + 1) ++ us)) :=
      ihLeft left' _ breaks_space
        (Operator.cut_sign known (ihRight right' _ breaks cut)).space
    by_cases loose : operator.precedence < least
    · have whole := (bare breaks_closing cut.closing).opening
      simpa [Expr.text, Expr.tokens, loose, String.toList_append] using whole
    · simpa [Expr.text, Expr.tokens, loose, String.toList_append] using bare breaks cut
  | functionCall p name args ih =>
    intro rest us breaks cut
    obtain ⟨known, args'⟩ := h
    have inner := spells_args (fun a found => ih a found (argsWellFormed_iff.mp args' a found) 0)
      breaks_closing cut.closing
    have whole := inner.opening.name known breaks_opening
    simpa [Expr.text, Expr.tokens, String.toList_append] using whole
  | methodCall p receiver method args ihReceiver ih =>
    intro rest us breaks cut
    obtain ⟨receiver', known, -, args'⟩ := h
    have inner := spells_args (fun a found => ih a found (argsWellFormed_iff.mp args' a found) 0)
      breaks_closing cut.closing
    have member := (inner.opening.name known breaks_opening).dot
    have whole := ihReceiver receiver' Operator.primaryPrecedence breaks_dot member
    simpa [Expr.text, Expr.tokens, String.toList_append] using whole
  | fieldAccess p receiver field ih =>
    intro rest us breaks cut
    obtain ⟨receiver', known⟩ := h
    have member := (cut.name known breaks).dot
    have whole := ih receiver' Operator.primaryPrecedence breaks_dot member
    simpa [Expr.text, Expr.tokens, String.toList_append] using whole
  | creation p className args ih =>
    intro rest us breaks cut
    obtain ⟨known, args'⟩ := h
    have inner := spells_args (fun a found => ih a found (argsWellFormed_iff.mp args' a found) 0)
      breaks_closing cut.closing
    have member := (inner.opening.name isName_new breaks_opening).dot
    have whole := member.name known breaks_dot
    simpa [Expr.text, Expr.tokens, String.toList_append] using whole

private theorem Param.spells {p : Param} (h : p.WellFormed) : Spells p.text p.tokens := by
  intro rest us breaks cut
  have type := Ty.spells_display h.2 breaks cut
  have whole := type.space.colon.name h.1 breaks_colon
  simpa [Param.text, Param.tokens, String.toList_append] using whole

private theorem spells_params {ps : List Param} (h : ∀ p ∈ ps, p.WellFormed) :
    Spells (" ".intercalate (ps.map Param.text)) (ps.flatMap Param.tokens) := by
  induction ps with
  | nil =>
    intro rest us breaks cut
    simpa using cut
  | cons p more ih =>
    intro rest us breaks cut
    have first := Param.spells (h p List.mem_cons_self)
    have others := ih fun q found => h q (List.mem_cons_of_mem p found)
    cases more with
    | nil => simpa using first breaks cut
    | cons q more =>
      have tail := others breaks cut
      simp only [List.map_cons, String.intercalate_cons_cons, String.toList_append,
        List.flatMap_cons, List.append_assoc] at tail ⊢
      exact first breaks_space tail.space

/-- That lines, each with a newline after it, are cut into tokens. -/
def SpellsLines (lines : List String) (ts : List Token) : Prop :=
  ∀ ⦃rest : List Char⦄ ⦃us : List Token⦄, Cut rest us →
    Cut (lines.flatMap (fun line => line.toList ++ ['\n']) ++ rest) (ts ++ us)

private theorem spellsLines_nil : SpellsLines [] [] :=
  fun _ _ cut => cut

private theorem SpellsLines.append {lines lines' : List String} {ts ts' : List Token}
    (first : SpellsLines lines ts) (second : SpellsLines lines' ts') :
    SpellsLines (lines ++ lines') (ts ++ ts') := by
  intro rest us cut
  rw [List.flatMap_append, List.append_assoc, List.append_assoc]
  exact first (second cut)

private theorem Spells.line {text : String} {ts : List Token} (h : Spells text ts) (depth : Nat) :
    SpellsLines [Layout.line depth text] (ts ++ [.feed]) := by
  intro rest us cut
  have bare : Cut (text.toList ++ '\n' :: rest) (ts ++ .feed :: us) := h breaks_newline cut.newline
  induction depth with
  | zero => simpa [Layout.line] using bare
  | succ depth ih => simpa [Layout.line, String.toList_append] using ih.space.space.space.space

theorem spells_end : Spells "end" [.reserved "end"] :=
  fun _ _ breaks cut => cut.reserved (w := "end") (by decide) breaks

inductive Separator : String → String → Prop where
  | arrow : Separator " -> " "->"
  | colon : Separator ": " ":"

private theorem Separator.cut {separator mark : String} (h : Separator separator mark)
    {rest : List Char} {us : List Token} (cut : Cut rest us) :
    Cut (separator.toList ++ rest) (.sign mark :: us) := by
  cases h with
  | arrow => exact cut.space.arrow.space
  | colon => exact cut.space.colon

theorem Signature.spellsLines {s : Signature} (h : s.WellFormed) {separator mark : String}
    (marked : Separator separator mark) (depth : Nat) :
    SpellsLines [Layout.line depth (s.text separator)] (s.tokens mark) := by
  obtain ⟨known, params, returns⟩ := h
  have text : Spells (s.text separator) (.reserved "def" :: .name s.name :: .sign "(" ::
      (s.params.flatMap Param.tokens ++ [.sign ")", .sign mark, s.returns.type.token])) := by
    intro rest us breaks cut
    have type := marked.cut (Ty.spells_display returns breaks cut)
    have inner := (spells_params params breaks_closing type.closing).opening
    have whole := (inner.name known breaks_opening).space.reserved (w := "def") (by decide)
      breaks_space
    simpa [Signature.text, String.toList_append] using whole
  simpa [Signature.tokens] using text.line depth

theorem Field.spellsLines {d : Field} (h : d.WellFormed) (depth : Nat) :
    SpellsLines [Layout.line depth d.text] d.tokens := by
  have text : Spells d.text [d.type.type.token, .name d.name] := by
    intro rest us breaks cut
    have whole := Ty.spells_display h.2 breaks_space (cut.name h.1 breaks).space
    simpa [Field.text, String.toList_append] using whole
  simpa [Field.tokens] using text.line depth

private theorem spellsLines_flatMap {α : Type} {xs : List α} {lines : α → List String}
    {tokens : α → List Token} (each : ∀ x ∈ xs, SpellsLines (lines x) (tokens x)) :
    SpellsLines (xs.flatMap lines) (xs.flatMap tokens) := by
  induction xs with
  | nil => exact spellsLines_nil
  | cons x xs ih =>
    rw [List.flatMap_cons, List.flatMap_cons]
    exact (each x List.mem_cons_self).append
      (ih fun y found => each y (List.mem_cons_of_mem x found))

theorem InterfaceDecl.spellsLines {d : InterfaceDecl} (h : d.WellFormed) (depth : Nat) :
    SpellsLines (d.lines depth) d.tokens := by
  have head : Spells ("interface " ++ d.name) [.reserved "interface", .name d.name] := by
    intro rest us breaks cut
    have whole := (cut.name h.1 breaks).space.reserved (w := "interface") (by decide) breaks_space
    simpa [String.toList_append] using whole
  have methods : SpellsLines (d.methods.flatMap fun s => [Layout.line (depth + 1) (s.text ": ")])
      (d.methods.flatMap (Signature.tokens ":")) :=
    spellsLines_flatMap fun s found => Signature.spellsLines (h.2 s found) .colon (depth + 1)
  have whole := (head.line depth).append (methods.append (spells_end.line depth))
  simpa [InterfaceDecl.lines, InterfaceDecl.tokens, endTokens, List.map_eq_flatMap] using whole

private theorem blockLines_eq_flatMap (depth : Nat) (body : List Stmt) :
    blockLines depth body = body.flatMap (Stmt.lines depth) := by
  induction body with
  | nil => rfl
  | cons s more ih => rw [blockLines, ih, List.flatMap_cons]

private theorem blockTokens_eq_flatMap (body : List Stmt) :
    blockTokens body = body.flatMap Stmt.tokens := by
  induction body with
  | nil => rfl
  | cons s more ih => rw [blockTokens, ih, List.flatMap_cons]

private theorem methodLines_eq_flatMap (depth : Nat) (methods : List Routine) :
    methodLines depth methods = methods.flatMap (Routine.lines depth ": ") := by
  induction methods with
  | nil => rfl
  | cons m more ih => rw [methodLines, ih, List.flatMap_cons]

private theorem methodTokens_eq_flatMap (methods : List Routine) :
    methodTokens methods = methods.flatMap (Routine.tokens ":") := by
  induction methods with
  | nil => rfl
  | cons m more ih => rw [methodTokens, ih, List.flatMap_cons]

private theorem spellsLines_block {body : List Stmt} (h : BlockWellFormed body) (depth : Nat)
    (each : ∀ s ∈ body, s.WellFormed → SpellsLines (s.lines depth) s.tokens) :
    SpellsLines (blockLines depth body) (blockTokens body) := by
  rw [blockLines_eq_flatMap, blockTokens_eq_flatMap]
  exact spellsLines_flatMap fun s found => each s found (blockWellFormed_iff.mp h s found)

private theorem spellsLines_routine {head : Signature} {body : List Stmt}
    (h : Routine.WellFormed ⟨head, body⟩) {separator mark : String}
    (marked : Separator separator mark) (depth : Nat)
    (each : ∀ s ∈ body, s.WellFormed → SpellsLines (s.lines (depth + 1)) s.tokens) :
    SpellsLines (Routine.lines depth separator ⟨head, body⟩)
      (Routine.tokens mark ⟨head, body⟩) := by
  have first := Signature.spellsLines h.1 marked depth
  have inner := spellsLines_block h.2 (depth + 1) each
  have whole := first.append (inner.append (spells_end.line depth))
  simpa [Routine.lines, Routine.tokens, endTokens] using whole

theorem spells_classHead {name : String} (known : IsName name) {face : Option String}
    (knownFace : ∀ n ∈ face, IsName n) :
    Spells (ClassDecl.headText name face)
      (.reserved "class" :: .name name :: implementsTokens face) := by
  intro rest us breaks cut
  cases face with
  | none =>
    have whole := (cut.name known breaks).space.reserved (w := "class") (by decide) breaks_space
    simpa [ClassDecl.headText, implementsTokens, String.toList_append] using whole
  | some face =>
    have tail := ((cut.name (knownFace face rfl) breaks).space.reserved (w := "implements")
      (by decide) breaks_space).space
    have whole := (tail.name known breaks_space).space.reserved (w := "class") (by decide)
      breaks_space
    simpa [ClassDecl.headText, implementsTokens, String.toList_append] using whole

private theorem Stmt.spellsLines {s : Stmt} (h : s.WellFormed) (depth : Nat) :
    SpellsLines (s.lines depth) s.tokens := by
  induction s generalizing depth with
  | declaration p type name value =>
    obtain ⟨typed, -, known, value'⟩ := h
    have text : Spells (type.type.display ++ " " ++ name ++ " = " ++ value.text 0)
        (type.type.token :: .name name :: .sign "=" :: value.tokens 0) := by
      intro rest us breaks cut
      have tail := (Expr.spells value' 0 breaks cut).sign_space (c := '=') (by decide)
      have whole := Ty.spells_display typed breaks_space (tail.space.name known breaks_space).space
      simpa [String.toList_append] using whole
    simpa [Stmt.lines, Stmt.tokens] using text.line depth
  | function head body ih =>
    exact spellsLines_routine h .arrow depth fun s found h => ih s found h (depth + 1)
  | conditional p condition thenBody elseBody ihThen ihElse =>
    obtain ⟨condition', then', else'⟩ := h
    have head : Spells ("if " ++ condition.text 0) (.reserved "if" :: condition.tokens 0) := by
      intro rest us breaks cut
      have whole := (Expr.spells condition' 0 breaks cut).space.reserved (w := "if") (by decide)
        breaks_space
      simpa [String.toList_append] using whole
    have inner := spellsLines_block then' (depth + 1) fun s found h => ihThen s found h (depth + 1)
    have other : SpellsLines (elseLines depth elseBody) (elseTokens elseBody) := by
      cases elseBody with
      | none => exact spellsLines_nil
      | some body =>
        have word : Spells "else" [.reserved "else"] :=
          fun _ _ breaks cut => cut.reserved (w := "else") (by decide) breaks
        have inner := spellsLines_block else' (depth + 1)
          fun s found h => ihElse body rfl s found h (depth + 1)
        simpa [elseLines, elseTokens] using (word.line depth).append inner
    have whole := (head.line depth).append (inner.append (other.append (spells_end.line depth)))
    simpa [Stmt.lines, Stmt.tokens, endTokens] using whole
  | classDecl p name implements fields methods ih =>
    obtain ⟨known, knownFace, fields', methods'⟩ := h
    have head := spells_classHead known knownFace
    have fieldLines : SpellsLines (fields.flatMap fun d => [Layout.line (depth + 1) d.text])
        (fields.flatMap Field.tokens) :=
      spellsLines_flatMap fun d found => Field.spellsLines (fields' d found) (depth + 1)
    have methodLines : SpellsLines (methodLines (depth + 1) methods) (methodTokens methods) := by
      rw [methodLines_eq_flatMap, methodTokens_eq_flatMap]
      refine spellsLines_flatMap fun m found => ?_
      have known := methodsWellFormed_iff.mp methods' m found
      obtain ⟨head, body⟩ := m
      exact spellsLines_routine known .colon (depth + 1)
        fun s inside h => ih ⟨head, body⟩ found s inside h (depth + 2)
    have whole := (head.line depth).append
      (fieldLines.append (methodLines.append (spells_end.line depth)))
    simpa [Stmt.lines, Stmt.tokens, ClassDecl.lines, ClassDecl.tokens, endTokens,
      List.map_eq_flatMap] using whole
  | interfaceDecl decl => exact InterfaceDecl.spellsLines h depth
  | assignment p target value =>
    have text : Spells (target.text 0 ++ " = " ++ value.text 0)
        (target.tokens 0 ++ .sign "=" :: value.tokens 0) := by
      intro rest us breaks cut
      have tail := (Expr.spells h.2 0 breaks cut).sign_space (c := '=') (by decide)
      have whole := Expr.spells h.1 0 breaks_space tail.space
      simpa [String.toList_append] using whole
    simpa [Stmt.lines, Stmt.tokens] using text.line depth
  | expression p e => exact (Expr.spells h 0).line depth

section Relocation

variable (f : Position → Position)

private theorem Expr.tokens_relocate (e : Expr) (least : Nat) :
    (e.relocate f).tokens least = e.tokens least := by
  have args {as : List Expr}
      (each : ∀ a ∈ as, ∀ least, (a.relocate f).tokens least = a.tokens least) :
      argTokens (relocateArgs f as) = argTokens as := by
    induction as with
    | nil => rfl
    | cons a more ih =>
      have others := ih fun b found => each b (List.mem_cons_of_mem a found)
      rw [relocateArgs, argTokens, each a List.mem_cons_self, others, argTokens]
  induction e generalizing least with
  | integer | string | template | identifier => rfl
  | binary p operator left right ihLeft ihRight =>
    rw [Expr.relocate, Expr.tokens, ihLeft, ihRight, Expr.tokens]
  | functionCall p name as ih | creation p name as ih =>
    rw [Expr.relocate, Expr.tokens, args ih, Expr.tokens]
  | methodCall p receiver method as ihReceiver ih =>
    rw [Expr.relocate, Expr.tokens, ihReceiver, args ih, Expr.tokens]
  | fieldAccess p receiver field ih =>
    rw [Expr.relocate, Expr.tokens, ih, Expr.tokens]

theorem blockTokens_relocate {body : List Stmt}
    (each : ∀ s ∈ body, (s.relocate f).tokens = s.tokens) :
    blockTokens (relocateBlock f body) = blockTokens body := by
  rw [blockTokens_eq_flatMap, blockTokens_eq_flatMap, relocateBlock_eq_map, List.flatMap_map]
  exact List.flatMap_congr each

private theorem Signature.tokens_relocate (s : Signature) (mark : String) :
    (s.relocate f).tokens mark = s.tokens mark := by
  simp only [Signature.relocate, Signature.tokens, List.flatMap_map]
  rfl

theorem Stmt.tokens_relocate (s : Stmt) : (s.relocate f).tokens = s.tokens := by
  induction s with
  | declaration p type name value =>
    rw [Stmt.relocate, Stmt.tokens, value.tokens_relocate, Stmt.tokens]
    rfl
  | function head body ih =>
    simp only [Stmt.relocate, Routine.relocate, Stmt.tokens, Routine.tokens,
      head.tokens_relocate, blockTokens_relocate f ih]
  | conditional p condition thenBody elseBody ihThen ihElse =>
    have other : elseTokens (relocateElse f elseBody) = elseTokens elseBody := by
      cases elseBody with
      | none => rfl
      | some body => simp only [relocateElse, elseTokens, blockTokens_relocate f (ihElse body rfl)]
    rw [Stmt.relocate, Stmt.tokens, condition.tokens_relocate, blockTokens_relocate f ihThen, other,
      Stmt.tokens]
  | classDecl p name implements fields methods ih =>
    have others : methodTokens (relocateMethods f methods) = methodTokens methods := by
      rw [methodTokens_eq_flatMap, methodTokens_eq_flatMap, relocateMethods_eq_map,
        List.flatMap_map]
      refine List.flatMap_congr fun m found => ?_
      obtain ⟨head, body⟩ := m
      simp only [Routine.relocate, Routine.tokens, head.tokens_relocate,
        blockTokens_relocate f (ih _ found)]
    simp only [Stmt.relocate, ClassDecl.relocate, Stmt.tokens, ClassDecl.tokens, others,
      List.flatMap_map]
    rfl
  | interfaceDecl decl =>
    simp only [Stmt.relocate, InterfaceDecl.relocate, Stmt.tokens, InterfaceDecl.tokens,
      List.flatMap_map, Signature.tokens_relocate]
  | assignment p target value =>
    rw [Stmt.relocate, Stmt.tokens, target.tokens_relocate, value.tokens_relocate, Stmt.tokens]
  | expression p e => rw [Stmt.relocate, Stmt.tokens, e.tokens_relocate, Stmt.tokens]

end Relocation

theorem Expr.tokens_ne_nil (e : Expr) (least : Nat) : e.tokens least ≠ [] := by
  cases e with
  | binary p operator left right =>
    rw [Expr.tokens]
    split <;> simp
  | _ => simp [Expr.tokens]

private theorem Spells.ne_empty {text : String} {ts : List Token} (h : Spells text ts)
    (filled : ts ≠ []) : text ≠ "" := by
  rintro rfl
  have cut : Cut ("".toList ++ []) (ts ++ []) := h trivial .done
  rw [String.toList_empty, List.append_nil, List.append_nil] at cut
  cases cut
  exact filled rfl

private theorem line_ne_empty {text : String} (filled : text ≠ "") (depth : Nat) :
    Layout.line depth text ≠ "" := by
  cases depth with
  | zero => exact filled
  | succ depth => simp [Layout.line]

private theorem Stmt.exists_lines {s : Stmt} (h : s.WellFormed) (depth : Nat) :
    ∃ first more, s.lines depth = first :: more ∧ first ≠ "" := by
  cases s with
  | expression p e =>
    exact ⟨_, _, rfl, line_ne_empty ((Expr.spells h 0).ne_empty (e.tokens_ne_nil 0)) depth⟩
  | function routine =>
    obtain ⟨head, body⟩ := routine
    exact ⟨_, _, rfl, line_ne_empty (by simp [Signature.text]) depth⟩
  | classDecl decl =>
    obtain ⟨p, name, face, fields, methods⟩ := decl
    exact ⟨_, _, rfl, line_ne_empty (by simp [ClassDecl.headText]) depth⟩
  | _ => exact ⟨_, _, rfl, line_ne_empty (by simp) depth⟩

private theorem toList_intercalate_newline (lines : List String) (filled : lines ≠ []) :
    ("\n".intercalate lines ++ "\n").toList = lines.flatMap fun line => line.toList ++ ['\n'] := by
  induction lines with
  | nil => contradiction
  | cons line more ih =>
    cases more with
    | nil => simp
    | cons next more =>
      have tail := ih (by simp)
      rw [String.intercalate_cons_cons, List.flatMap_cons, ← tail]
      simp [String.toList_append]

namespace Program

/-- The tokens of the canonical text of a program, without the end mark. -/
def tokens (p : Program) : List Token :=
  blockTokens p.statements

theorem cut_text {p : Program} (h : p.WellFormed) : Cut p.text.toList p.tokens := by
  have spelled : SpellsLines (blockLines 0 p.statements) p.tokens :=
    spellsLines_block h 0 fun s _ known => Stmt.spellsLines known 0
  have cut := spelled .done
  rw [List.append_nil, List.append_nil] at cut
  unfold text
  cases body : p.statements with
  | nil =>
    rw [body] at cut
    exact cut
  | cons s more =>
    obtain ⟨first, others, lines, filled⟩ :=
      Stmt.exists_lines (blockWellFormed_iff.mp h s (by rw [body]; exact List.mem_cons_self)) 0
    have whole : blockLines 0 (s :: more) = first :: (others ++ blockLines 0 more) := by
      rw [blockLines, lines, List.cons_append]
    have shown : "\n".intercalate (blockLines 0 (s :: more)) ≠ "" := by
      rw [whole]
      cases others ++ blockLines 0 more <;> simp [filled]
    rw [← body] at whole shown ⊢
    simp only [if_neg shown]
    rwa [toList_intercalate_newline _ (by simp [whole])]

/-- Cut into tokens, the text of a program gives its tokens and the end mark. -/
theorem tokenize_text {p : Program} (h : p.WellFormed) :
    ∃ tokens, tokenize p.text = .ok tokens ∧
      tokens.map Token.unplaced = p.tokens ++ [.final] :=
  (cut_text h).tokenize

end Program

private theorem mem_argOperators {o : Operator} {args : List Expr} :
    o ∈ argOperators args ↔ ∃ a ∈ args, o ∈ a.operators := by
  induction args with
  | nil => simp [argOperators]
  | cons e more ih => simp [argOperators, ih]

private theorem mem_blockOperators {o : Operator} {body : List Stmt} :
    o ∈ blockOperators body ↔ ∃ s ∈ body, o ∈ s.operators := by
  induction body with
  | nil => simp [blockOperators]
  | cons s more ih => simp [blockOperators, ih]

private theorem mem_methodOperators {o : Operator} {methods : List Routine} :
    o ∈ methodOperators methods ↔ ∃ m ∈ methods, ∃ s ∈ m.body, o ∈ s.operators := by
  induction methods with
  | nil => simp [methodOperators]
  | cons m more ih =>
    obtain ⟨head, body⟩ := m
    simp [methodOperators, Routine.operators, mem_blockOperators, ih]

private theorem Expr.known_of_mem_operators {e : Expr} (h : e.WellFormed) {o : Operator}
    (found : o ∈ e.operators) : o.precedence ≠ 0 := by
  have args' {args : List Expr} (known : ArgsWellFormed args) (found : o ∈ argOperators args)
      (ih : ∀ a ∈ args, a.WellFormed → o ∈ a.operators → o.precedence ≠ 0) : o.precedence ≠ 0 := by
    obtain ⟨a, member, inside⟩ := mem_argOperators.mp found
    exact ih a member (argsWellFormed_iff.mp known a member) inside
  induction e with
  | binary p operator left right ihLeft ihRight =>
    rw [Expr.operators, List.mem_cons, List.mem_append] at found
    rcases found with rfl | found | found
    · exact h.1
    · exact ihLeft h.2.1 found
    · exact ihRight h.2.2 found
  | functionCall p name args ih | creation p name args ih =>
    exact args' h.2 found ih
  | methodCall p receiver method args ihReceiver ih =>
    rcases List.mem_append.mp found with found | found
    · exact ihReceiver h.1 found
    · exact args' h.2.2.2 found ih
  | fieldAccess p receiver field ih => exact ih h.1 found
  | _ => cases found

private theorem Stmt.known_of_mem_operators {s : Stmt} (h : s.WellFormed) {o : Operator}
    (found : o ∈ s.operators) : o.precedence ≠ 0 := by
  have block {body : List Stmt} (known : BlockWellFormed body) (found : o ∈ blockOperators body)
      (ih : ∀ s ∈ body, s.WellFormed → o ∈ s.operators → o.precedence ≠ 0) :
      o.precedence ≠ 0 := by
    obtain ⟨s, member, inside⟩ := mem_blockOperators.mp found
    exact ih s member (blockWellFormed_iff.mp known s member) inside
  induction s with
  | declaration p type name value => exact Expr.known_of_mem_operators h.2.2.2 found
  | function head body ih => exact block h.2 found ih
  | conditional p condition thenBody elseBody ihThen ihElse =>
    rw [Stmt.operators, List.mem_append, List.mem_append] at found
    rcases found with (found | found) | found
    · exact Expr.known_of_mem_operators h.1 found
    · exact block h.2.1 found ihThen
    · cases elseBody with
      | none => cases found
      | some body => exact block h.2.2 found (ihElse body rfl)
  | classDecl p name implements fields methods ih =>
    obtain ⟨m, member, s, inside, found⟩ := mem_methodOperators.mp found
    have known := methodsWellFormed_iff.mp h.2.2.2 m member
    obtain ⟨head, body⟩ := m
    exact ih ⟨head, body⟩ member s inside (blockWellFormed_iff.mp known.2 s inside) found
  | interfaceDecl decl => cases found
  | assignment p target value =>
    rcases List.mem_append.mp found with found | found
    · exact Expr.known_of_mem_operators h.1 found
    · exact Expr.known_of_mem_operators h.2 found
  | expression p e => exact Expr.known_of_mem_operators h found

theorem Program.canonical_eq {p : Program} (h : p.WellFormed) : p.canonical = .ok p.text := by
  have none : p.unknownSign? = none := by
    unfold Program.unknownSign?
    rw [List.findSome?_eq_none_iff]
    intro o found
    obtain ⟨s, member, inside⟩ := mem_blockOperators.mp found
    have known := Stmt.known_of_mem_operators (blockWellFormed_iff.mp h s member) inside
    cases o with
    | unknown sign => exact absurd rfl known
    | _ => rfl
  rw [Program.canonical, none]

end ScriptLang
