import ScriptLang.Program

/-!
The canonical text of a program: one statement a line, blocks indented by four spaces, arguments
apart by one space, and parentheses only where the operators need them. A program has a canonical
text unless it holds an operator that the grammar does not know.
-/

set_option autoImplicit false
set_option relaxedAutoImplicit false

namespace ScriptLang

namespace Operator

/-- How tightly an operator binds: the greater, the tighter. -/
def precedence : Operator → Nat
  | unknown _ => 0
  | equal => 1
  | add | subtract => 2
  | multiply | divide => 3

def primaryPrecedence : Nat := 4

/-- The sign of an operator that the grammar does not know. -/
def unknownSign? : Operator → Option String
  | unknown sign => some sign
  | _ => none

end Operator

mutual

def Expr.operators : Expr → List Operator
  | .integer _ _ | .string _ _ | .template _ _ | .identifier _ _ => []
  | .binary _ operator left right => operator :: (left.operators ++ right.operators)
  | .functionCall _ _ args => argOperators args
  | .methodCall _ receiver _ args => receiver.operators ++ argOperators args
  | .fieldAccess _ receiver _ => receiver.operators
  | .creation _ _ args => argOperators args

def argOperators : List Expr → List Operator
  | [] => []
  | e :: more => e.operators ++ argOperators more

end

mutual

/-- The operators in a statement, in the order in which the text shows the expressions. -/
def Stmt.operators : Stmt → List Operator
  | .declaration _ _ _ value => value.operators
  | .function routine => routine.operators
  | .conditional _ condition thenBody elseBody =>
    condition.operators ++ blockOperators thenBody ++ elseOperators elseBody
  | .classDecl decl => decl.operators
  | .interfaceDecl _ => []
  | .assignment _ target value => target.operators ++ value.operators
  | .expression _ expr => expr.operators

def Routine.operators : Routine → List Operator
  | ⟨_, body⟩ => blockOperators body

def ClassDecl.operators : ClassDecl → List Operator
  | ⟨_, _, _, _, methods⟩ => methodOperators methods

def methodOperators : List Routine → List Operator
  | [] => []
  | m :: more => m.operators ++ methodOperators more

def blockOperators : List Stmt → List Operator
  | [] => []
  | s :: more => s.operators ++ blockOperators more

def elseOperators : Option (List Stmt) → List Operator
  | none => []
  | some body => blockOperators body

end

mutual

/-- The text of an expression, between parentheses if it is an operation that binds less tightly
than `least`. -/
def Expr.text (least : Nat) : Expr → String
  | .integer _ value => toString value
  | .string _ text | .template _ text => "\"" ++ text ++ "\""
  | .identifier _ name => name
  | .binary _ operator left right =>
    let bare := left.text operator.precedence ++ " " ++ operator.sign ++ " "
      ++ right.text (operator.precedence + 1)
    if operator.precedence < least then "(" ++ bare ++ ")" else bare
  | .functionCall _ name args => name ++ "(" ++ " ".intercalate (argTexts args) ++ ")"
  | .methodCall _ receiver method args =>
    receiver.text Operator.primaryPrecedence ++ "." ++ method ++ "("
      ++ " ".intercalate (argTexts args) ++ ")"
  | .fieldAccess _ receiver field =>
    receiver.text Operator.primaryPrecedence ++ "." ++ field
  | .creation _ className args => className ++ ".new(" ++ " ".intercalate (argTexts args) ++ ")"

def argTexts : List Expr → List String
  | [] => []
  | e :: more => e.text 0 :: argTexts more

end

def Param.text (p : Param) : String :=
  p.name ++ ": " ++ p.type.type.display

/-- The text of a head; `separator` stands before the type that is returned. -/
def Signature.text (separator : String) (s : Signature) : String :=
  "def " ++ s.name ++ "(" ++ " ".intercalate (s.params.map Param.text) ++ ")" ++ separator
    ++ s.returns.type.display

def Field.text (f : Field) : String :=
  f.type.type.display ++ " " ++ f.name

def ClassDecl.headText (name : String) (implements : Option String) : String :=
  "class " ++ name ++ (implements.map (" implements " ++ ·)).getD ""

namespace Layout

def line : Nat → String → String
  | 0, text => text
  | depth + 1, text => "    " ++ line depth text

end Layout

open Layout

def InterfaceDecl.lines (depth : Nat) (d : InterfaceDecl) : List String :=
  line depth ("interface " ++ d.name) ::
    d.methods.map (fun s => line (depth + 1) (s.text ": ")) ++ [line depth "end"]

mutual

def Stmt.lines (depth : Nat) : Stmt → List String
  | .declaration _ type name value =>
    [line depth (type.type.display ++ " " ++ name ++ " = " ++ value.text 0)]
  | .function routine => routine.lines depth " -> "
  | .conditional _ condition thenBody elseBody =>
    line depth ("if " ++ condition.text 0) ::
      blockLines (depth + 1) thenBody ++ elseLines depth elseBody ++ [line depth "end"]
  | .classDecl decl => decl.lines depth
  | .interfaceDecl decl => decl.lines depth
  | .assignment _ target value => [line depth (target.text 0 ++ " = " ++ value.text 0)]
  | .expression _ expr => [line depth (expr.text 0)]

def Routine.lines (depth : Nat) (separator : String) : Routine → List String
  | ⟨head, body⟩ =>
    line depth (head.text separator) :: blockLines (depth + 1) body ++ [line depth "end"]

def ClassDecl.lines (depth : Nat) : ClassDecl → List String
  | ⟨_, name, implements, fields, methods⟩ =>
    line depth (ClassDecl.headText name implements) ::
      fields.map (fun f => line (depth + 1) f.text) ++ methodLines (depth + 1) methods
      ++ [line depth "end"]

def methodLines (depth : Nat) : List Routine → List String
  | [] => []
  | m :: more => m.lines depth ": " ++ methodLines depth more

def blockLines (depth : Nat) : List Stmt → List String
  | [] => []
  | s :: more => s.lines depth ++ blockLines depth more

def elseLines (depth : Nat) : Option (List Stmt) → List String
  | none => []
  | some body => line depth "else" :: blockLines (depth + 1) body

end

namespace Program

def unknownSign? (p : Program) : Option String :=
  (blockOperators p.statements).findSome? Operator.unknownSign?

/-- The lines of a program, closed by a newline; a program that shows nothing has the empty text.
-/
def text (p : Program) : String :=
  let lines := "\n".intercalate (blockLines 0 p.statements)
  if lines = "" then "" else lines ++ "\n"

/-- The canonical text of a program, or the sign of an operator that has none. -/
def canonical (p : Program) : Except String String :=
  match p.unknownSign? with
  | some sign => .error sign
  | none => .ok p.text

end Program

end ScriptLang
