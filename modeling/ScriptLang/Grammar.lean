import ScriptLang.Attempt
import ScriptLang.Program
import ScriptLang.Text.Character
import ScriptLang.Text.Format
import ScriptLang.Token

/-!
The grammar as readings of a token list, from the tokens in front to whole programs.
-/

set_option autoImplicit false
set_option relaxedAutoImplicit false

namespace ScriptLang

/-! ## Failures

Why the reading of a program fails, and the wording of each cause.
-/

inductive Wanted where
  | sign (text : String)
  | identifier (what : String)
  | type
  | expression
  | newline
deriving DecidableEq, Repr

inductive Found where
  | endOfInput
  | newline
  | string (text : String)
  | other (text : String)
deriving DecidableEq, Repr

def Token.found (t : Token) : Found :=
  match t.kind with
  | .endOfInput => .endOfInput
  | .newline => .newline
  | .string => .string t.text
  | _ => .other t.text

inductive SyntaxCause where
  | unexpected (wanted : Wanted) (found : Found)
  | missingParameterColon
  | missingReturnSeparator
  | newOnNonClass
deriving DecidableEq, Repr

structure SyntaxError where
  cause : SyntaxCause
  position : Position
deriving DecidableEq, Repr

/-- Why a reading ends without a result: a fault in the program, an integer token whose text is not
converted to a number, a token list that stops without an end mark, or a nesting deeper than the
number of tokens allows. -/
inductive ParseFailure where
  | syntaxError (e : SyntaxError)
  | notANumber (text : String)
  | pastEnd
  | unbounded
deriving DecidableEq, Repr

def Wanted.message : Wanted → String
  | sign text => "'" ++ text ++ "'"
  | identifier what => what
  | type => "type"
  | expression => "expression"
  | newline => "newline"

def Found.message : Found → String
  | endOfInput => "end of input"
  | newline => "newline"
  | string text => "\"" ++ text ++ "\""
  | other text => "'" ++ text ++ "'"

def SyntaxCause.message : SyntaxCause → String
  | unexpected wanted found => "expected " ++ wanted.message ++ ", got " ++ found.message
  | missingParameterColon => "expected ':' after parameter name"
  | missingReturnSeparator => "expected '->' or ':' before return type"
  | newOnNonClass => "'new' can only be called on class names"

/-! ## Readings

Readings of a token list from left to right. A reading takes tokens from the front of the list;
the tokens that it leaves are known also when it fails. An end mark is never taken.
-/

/-- Whether a token is spelled `sign` and is neither a string nor an identifier. -/
def Token.spells (t : Token) (sign : String) : Bool :=
  t.text = sign && t.kind ≠ .string && t.kind ≠ .identifier

/-- A reading of tokens: the state is the list of tokens not yet taken. -/
abbrev Reading (α : Type) : Type :=
  Attempt (List Token) ParseFailure α

namespace Reading

variable {α : Type}

def fault (cause : SyntaxCause) (position : Position) : Reading α :=
  Attempt.fail (.syntaxError ⟨cause, position⟩)

def current : Reading Token :=
  fun rest =>
    match rest with
    | [] => (.error .pastEnd, [])
    | t :: more => (.ok t, t :: more)

/-- Takes the token in front, unless it is an end mark. -/
def advance : Reading Token :=
  fun rest =>
    match rest with
    | [] => (.error .pastEnd, [])
    | t :: more => (.ok t, if t.kind = .endOfInput then t :: more else more)

/-- The token after the one in front, or the last one of all. -/
def following : Reading Token :=
  fun rest =>
    match rest with
    | [] => (.error .pastEnd, [])
    | [t] => (.ok t, rest)
    | _ :: t :: _ => (.ok t, rest)

def here : Reading Position := do
  return (← current).position

def sees (sign : String) : Reading Bool := do
  return (← current).spells sign

def seesKind (kind : Kind) : Reading Bool := do
  return (← current).kind = kind

def unexpected (wanted : Wanted) : Reading α := do
  let t ← current
  fault (.unexpected wanted t.found) t.position

def expect (sign : String) : Reading Token := do
  if ← sees sign then advance else unexpected (.sign sign)

def expectIdentifier (what : String) : Reading Token := do
  if ← seesKind .identifier then advance else unexpected (.identifier what)

def skipWhile (skipped : Token → Bool) : Reading Unit := do
  modify (List.dropWhile skipped)
  discard current

def skipNewlines : Reading Unit :=
  skipWhile (·.kind = .newline)

def outOfTokens : Reading α :=
  Attempt.fail .unbounded

/-- Gives a reading a bound on its repetitions: more than one for each token that is left. -/
def bounded (reading : Nat → Reading α) : Reading α :=
  fun rest => reading (rest.length + 1) rest

/-- At most `n` items, one for as long as the test holds. -/
def itemsWithin (test : Reading Bool) (item : Reading α) : Nat → Reading (List α)
  | 0 => outOfTokens
  | n + 1 => do
    if ← test then
      let a ← item
      let more ← itemsWithin test item n
      return a :: more
    else
      return []

def itemsWhile (test : Reading Bool) (item : Reading α) : Reading (List α) :=
  bounded (itemsWithin test item)

/-- At most `n` steps from a value, until a step yields none. -/
def extendWithin (step : α → Reading (Option α)) : Nat → α → Reading α
  | 0, _ => outOfTokens
  | n + 1, a => do
    match ← step a with
    | some b => extendWithin step n b
    | none => return a

def extend (step : α → Reading (Option α)) (a : α) : Reading α :=
  bounded fun n => extendWithin step n a

end Reading

/-! ## Cursors

A cursor in a token list, for readings made one at a time: each starts where the one before it
stopped, also where that one failed.
-/

/-- A token list and what is left of it. -/
structure Cursor where
  tokens : List Token
  rest : List Token
deriving Repr

namespace Cursor

def start (tokens : List Token) : Cursor :=
  ⟨tokens, tokens⟩

def index (c : Cursor) : Nat :=
  c.tokens.length - c.rest.length

def read {α : Type} (c : Cursor) (reading : Reading α) : Except ParseFailure α × Cursor :=
  let (result, rest) := reading c.rest
  (result, ⟨c.tokens, rest⟩)

/-- The token `offset` places from the cursor, the last one if there are not so many. A place
before the first token is counted from the end of the list. -/
def peek (c : Cursor) (offset : Int) : Except ParseFailure Token :=
  let place := c.index + offset
  let size : Int := c.tokens.length
  let found :=
    if size ≤ place then c.tokens.getLast?
    else if 0 ≤ place then c.tokens[place.toNat]?
    else if 0 ≤ size + place then c.tokens[(size + place).toNat]?
    else none
  match found with
  | some t => .ok t
  | none => .error .pastEnd

end Cursor

/-! ## Expressions

The grammar of expressions, from the loosest binding to the tightest: equality, sums, products,
chains of member accesses, atoms. Operators of one level bind to the left. Arguments stand one
after the other without a separator. Each production takes the reading of the expressions nested
in it.
-/

namespace Grammar

open Reading

section Nested

variable (nested : Reading Expr)

def arguments : Reading (List Expr) := do
  discard (expect "(")
  let args ← itemsWhile (do return !(← sees ")")) nested
  discard (expect ")")
  return args

def atom : Reading Expr := do
  let t ← current
  match t.kind with
  | .integer =>
    discard advance
    match Text.integerValue? t.text.toList with
    | some n => return .integer t.position n
    | none => Attempt.fail (.notANumber t.text)
  | .string =>
    discard advance
    if Text.hasMarker t.text.toList then
      return .template t.position t.text
    else
      return .string t.position t.text
  | .identifier =>
    discard advance
    if ← sees "(" then
      return .functionCall t.position t.text (← arguments nested)
    else
      return .identifier t.position t.text
  | _ =>
    if ← sees "(" then
      discard advance
      let inner ← nested
      discard (expect ")")
      return inner
    else
      unexpected .expression

def access (receiver : Expr) : Reading (Option Expr) := do
  if ← sees "." then
    discard advance
    let name ← expectIdentifier "identifier after '.'"
    if ← sees "(" then
      let args ← arguments nested
      if name.text = "new" then
        match receiver with
        | .identifier position className => return some (.creation position className args)
        | _ => fault .newOnNonClass name.position
      else
        return some (.methodCall receiver.position receiver name.text args)
    else
      return some (.fieldAccess receiver.position receiver name.text)
  else
    return none

def primary : Reading Expr := do
  extend (access nested) (← atom nested)

/-- One more operand after an operator of a level, if such an operator follows. -/
def operand (signs : List String) (level : Reading Expr) (left : Expr) : Reading (Option Expr) := do
  let t ← current
  if signs.any t.spells then
    discard advance
    let right ← level
    return some (.binary left.position (.ofSign t.text) left right)
  else
    return none

def product : Reading Expr := do
  extend (operand ["*", "/"] (primary nested)) (← primary nested)

def sum : Reading Expr := do
  extend (operand ["+", "-"] (product nested)) (← product nested)

def equality : Reading Expr := do
  extend (operand ["=="] (sum nested)) (← sum nested)

end Nested

def expressionWithin : Nat → Reading Expr
  | 0 => outOfTokens
  | n + 1 => fun rest => equality (expressionWithin n) rest

def expression : Reading Expr :=
  bounded expressionWithin

end Grammar

/-! ## Declarations

The grammar of the parts of declarations: ends of lines, types, parameters, heads of functions and
methods, fields.
-/

/-- Whether a statement, a header, `else` and `end` must be followed by a newline or the end of
the input, or may be followed by anything. -/
inductive Terminators where
  | strict
  | lenient
deriving DecidableEq, Repr

namespace Grammar

open Reading

def terminator (mode : Terminators) : Reading Unit := do
  match (← current).kind with
  | .newline => discard advance
  | .endOfInput => return ()
  | _ =>
    match mode with
    | .strict => unexpected .newline
    | .lenient => return ()

def closing (mode : Terminators) : Reading Unit := do
  discard (expect "end")
  terminator mode

def typeOf? (t : Token) : Option Ty :=
  match t.kind with
  | .word "Int" => some .int
  | .word "String" => some .string
  | .word "void" => some .void
  | .identifier => some (.named t.text)
  | _ => none

def typeRef : Reading TypeRef := do
  let t ← current
  match typeOf? t with
  | some type =>
    discard advance
    return ⟨t.position, type⟩
  | none => unexpected .type

def param : Reading Param := do
  let position ← here
  let name ← expectIdentifier "parameter name"
  if ← sees ":" then
    discard advance
    return ⟨position, name.text, ← typeRef⟩
  else
    fault .missingParameterColon (← here)

/-- Whether a token between two parameters is passed over: all but names, the closing parenthesis
and the end mark. -/
def isStray (t : Token) : Bool :=
  t.kind ≠ .identifier && !t.spells ")" && t.kind ≠ .endOfInput

def paramsWithin : Nat → Reading (List Param)
  | 0 => outOfTokens
  | n + 1 => do
    let p ← param
    skipWhile isStray
    if ← sees ")" then
      return [p]
    else
      return p :: (← paramsWithin n)

def params : Reading (List Param) := do
  discard (expect "(")
  if ← sees ")" then
    discard advance
    return []
  else
    let ps ← bounded paramsWithin
    discard (expect ")")
    return ps

def returnType : Reading TypeRef := do
  let t ← current
  if t.kind = .operator && (t.text = "->" || t.text = ":") then
    discard advance
    typeRef
  else
    fault .missingReturnSeparator t.position

def signature (mode : Terminators) (what : String) : Reading Signature := do
  let position ← here
  discard (expect "def")
  let name ← expectIdentifier what
  let ps ← params
  let returns ← returnType
  terminator mode
  return ⟨position, name.text, ps, returns⟩

def field (mode : Terminators) : Reading Field := do
  let position ← here
  let type ← typeRef
  let name ← expectIdentifier "field name"
  terminator mode
  return ⟨position, name.text, type⟩

def methodSignature (mode : Terminators) : Reading Signature :=
  signature mode "method name"

end Grammar

/-! ## Statements

The grammar of statements and programs. Each production takes the reading of the statements nested
in it.
-/

namespace Grammar

open Reading

section Nested

variable (mode : Terminators) (nested : Reading Stmt)

/-- Statements, with newlines before and between them, for as long as the test holds. -/
def statements (test : Reading Bool) : Reading (List Stmt) := do
  skipNewlines
  itemsWhile test do
    let s ← nested
    skipNewlines
    return s

def seesNone (signs : List String) : Reading Bool := do
  let t ← current
  return t.kind ≠ .endOfInput && !signs.any t.spells

def block (stops : List String) : Reading (List Stmt) :=
  statements nested (seesNone stops)

def variableDeclaration : Reading Stmt := do
  let position ← here
  let type ← typeRef
  let name ← expectIdentifier "variable name"
  discard (expect "=")
  let value ← expression
  terminator mode
  return .declaration position type name.text value

def routine (what : String) : Reading Routine := do
  let head ← signature mode what
  let body ← block nested ["end"]
  closing mode
  return ⟨head, body⟩

def functionDefinition : Reading Routine :=
  routine mode nested "function name"

def method : Reading Routine :=
  routine mode nested "method name"

def conditional : Reading Stmt := do
  let position ← here
  discard (expect "if")
  let condition ← expression
  terminator mode
  let thenBody ← block nested ["else", "end"]
  let elseBody ←
    if ← sees "else" then
      discard advance
      terminator mode
      some <$> block nested ["end"]
    else
      pure none
  closing mode
  return .conditional position condition thenBody elseBody

inductive Member where
  | field (field : Field)
  | method (method : Routine)

def Member.field? : Member → Option Field
  | field f => some f
  | method _ => none

def Member.method? : Member → Option Routine
  | field _ => none
  | method m => some m

def member : Reading Member := do
  let m ←
    if ← sees "def" then Member.method <$> method mode nested
    else Member.field <$> field mode
  skipNewlines
  return m

def classDeclaration : Reading ClassDecl := do
  let position ← here
  discard (expect "class")
  let name ← expectIdentifier "class name"
  let implements ←
    if ← sees "implements" then
      discard advance
      some <$> Token.text <$> expectIdentifier "interface name after 'implements'"
    else
      pure none
  terminator mode
  skipNewlines
  let members ← itemsWhile (seesNone ["end"]) (member mode nested)
  closing mode
  return ⟨position, name.text, implements, members.filterMap Member.field?,
    members.filterMap Member.method?⟩

def interfaceDeclaration : Reading InterfaceDecl := do
  let position ← here
  discard (expect "interface")
  let name ← expectIdentifier "interface name"
  terminator mode
  skipNewlines
  let methods ← itemsWhile (seesNone ["end"]) do
    let m ← methodSignature mode
    skipNewlines
    return m
  closing mode
  return ⟨position, name.text, methods⟩

/-- An expression that stands alone, or an assignment. -/
def expressionStatement : Reading Stmt := do
  let position ← here
  let expr ← expression
  if ← sees "=" then
    discard advance
    let value ← expression
    terminator mode
    return .assignment position expr value
  else
    terminator mode
    return .expression position expr

def isCapitalized (t : Token) : Bool :=
  match t.text.toList with
  | c :: _ => Text.isUppercase c
  | [] => false

/-- Whether a declaration stands in front whose type is a class: a capitalized identifier directly
followed by another identifier. -/
def seesClassVariable : Reading Bool := do
  let t ← current
  if t.kind = .identifier && isCapitalized t then
    return (← following).kind = .identifier
  else
    return false

def statementWith : Reading Stmt := do
  match (← current).kind with
  | .word "Int" | .word "String" | .word "void" => variableDeclaration mode
  | .word "def" => Stmt.function <$> functionDefinition mode nested
  | .word "if" => conditional mode nested
  | .word "class" => Stmt.classDecl <$> classDeclaration mode nested
  | .word "interface" => Stmt.interfaceDecl <$> interfaceDeclaration mode
  | _ => if ← seesClassVariable then variableDeclaration mode else expressionStatement mode

end Nested

def statementWithin (mode : Terminators) : Nat → Reading Stmt
  | 0 => outOfTokens
  | n + 1 => fun rest => statementWith mode (statementWithin mode n) rest

def statement (mode : Terminators) : Reading Stmt :=
  bounded (statementWithin mode)

def program (mode : Terminators) : Reading Program := do
  return ⟨← statements (statement mode) (seesNone [])⟩

end Grammar

inductive SourceError where
  | lex (failure : LexFailure LexError)
  | parse (failure : ParseFailure)
deriving DecidableEq, Repr

namespace Program

def ofTokens (mode : Terminators) (tokens : List Token) : Except ParseFailure Program :=
  (Grammar.program mode tokens).1

def ofSource (mode : Terminators) (source : String) : Except SourceError Program :=
  match tokenize source with
  | .error failure => .error (.lex failure)
  | .ok tokens =>
    match ofTokens mode tokens with
    | .error failure => .error (.parse failure)
    | .ok p => .ok p

end Program

end ScriptLang
