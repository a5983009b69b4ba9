import ScriptLang.Program
import ScriptLang.Text.Format

/-!
The outline of a program: its tree written one node a line, deeper nodes further to the right,
each with its place. An `Outline` is a tree of labelled parts; `Outline.lines` lays it out.
-/

set_option autoImplicit false
set_option relaxedAutoImplicit false

namespace ScriptLang

/-- A tree of labelled parts: a word, a list, or a node with named parts. -/
inductive Outline where
  | word (text : String)
  | list (items : List Outline)
  | node (header : String) (parts : List (String × Outline))

namespace Outline

def margin : Nat → String
  | 0 => ""
  | depth + 1 => "  " ++ margin depth

/-- A line at a depth, after a label if there is one. -/
def labelled (depth : Nat) (label text : String) : String :=
  margin depth ++ (if label = "" then "" else label ++ ": ") ++ text

mutual

def lines (depth : Nat) (label : String) : Outline → List String
  | word text => [labelled depth label text]
  | list [] => [labelled depth label "[]"]
  | list (item :: more) =>
    labelled depth label "[" :: itemLines (depth + 1) (item :: more) ++ [margin depth ++ "]"]
  | node header parts => labelled depth label header :: partLines (depth + 1) parts

def itemLines (depth : Nat) : List Outline → List String
  | [] => []
  | item :: more => lines depth "" item ++ itemLines depth more

def partLines (depth : Nat) : List (String × Outline) → List String
  | [] => []
  | (label, part) :: more => lines depth label part ++ partLines depth more

end

def header (name : String) (p : Position) : String :=
  name ++ " @" ++ toString p.line ++ ":" ++ toString p.column

def ofText (text : String) : Outline :=
  word (Text.quoted text)

def ofType (type : TypeRef) : Outline :=
  word type.type.display

end Outline

open Outline

mutual

def Expr.outline : Expr → Outline
  | .integer p value => node (header "IntegerLiteral" p) [("value", word (toString value))]
  | .string p text => node (header "StringLiteral" p) [("value", ofText text)]
  | .template p text => node (header "StringInterpolation" p) [("template", ofText text)]
  | .identifier p name => node (header "Identifier" p) [("name", ofText name)]
  | .binary p operator left right =>
    node (header "Binary" p)
      [("op", ofText operator.sign), ("left", left.outline), ("right", right.outline)]
  | .functionCall p name args =>
    node (header "FunctionCall" p) [("name", ofText name), ("args", list (outlines args))]
  | .methodCall p receiver method args =>
    node (header "MethodCall" p)
      [("receiver", receiver.outline), ("method", ofText method), ("args", list (outlines args))]
  | .fieldAccess p receiver field =>
    node (header "FieldAccess" p) [("receiver", receiver.outline), ("field", ofText field)]
  | .creation p className args =>
    node (header "ObjectCreation" p)
      [("class_name", ofText className), ("args", list (outlines args))]

def outlines : List Expr → List Outline
  | [] => []
  | e :: more => e.outline :: outlines more

end

def Param.outline (p : Param) : Outline :=
  node (header "Param" p.position) [("name", ofText p.name), ("typ", ofType p.type)]

def Field.outline (f : Field) : Outline :=
  node (header "Field" f.position) [("name", ofText f.name), ("typ", ofType f.type)]

/-- The parts that the outline of a head shows. -/
def Signature.outlineParts (s : Signature) : List (String × Outline) :=
  [("name", ofText s.name), ("params", list (s.params.map Param.outline)),
    ("ret", ofType s.returns)]

def Signature.outline (s : Signature) : Outline :=
  node (header "MethodSignature" s.position) s.outlineParts

def InterfaceDecl.outline (d : InterfaceDecl) : Outline :=
  node (header "InterfaceDefinition" d.position)
    [("name", ofText d.name), ("methods", list (d.methods.map Signature.outline))]

mutual

def Stmt.outline : Stmt → Outline
  | .declaration p type name value =>
    node (header "VariableDeclaration" p)
      [("name", ofText name), ("typ", ofType type), ("value", value.outline)]
  | .function routine => routine.outline "FunctionDefinition"
  | .conditional p condition thenBody elseBody =>
    node (header "If" p)
      [("cond", condition.outline), ("then_body", list (stmtOutlines thenBody)),
        ("else_body", elseOutline elseBody)]
  | .classDecl decl => decl.outline
  | .interfaceDecl decl => decl.outline
  | .assignment p target value =>
    node (header "Assignment" p) [("target", target.outline), ("value", value.outline)]
  | .expression p expr => node (header "ExpressionStatement" p) [("expr", expr.outline)]

/-- The outline of a function or method under the name of its node. -/
def Routine.outline (name : String) : Routine → Outline
  | ⟨head, body⟩ =>
    node (header name head.position) (head.outlineParts ++ [("body", list (stmtOutlines body))])

def ClassDecl.outline : ClassDecl → Outline
  | ⟨p, name, implements, fields, methods⟩ =>
    node (header "ClassDefinition" p)
      [("name", ofText name), ("implements", (implements.map ofText).getD (word "None")),
        ("fields", list (fields.map Field.outline)), ("methods", list (methodOutlines methods))]

def methodOutlines : List Routine → List Outline
  | [] => []
  | m :: more => m.outline "Method" :: methodOutlines more

def stmtOutlines : List Stmt → List Outline
  | [] => []
  | s :: more => s.outline :: stmtOutlines more

def elseOutline : Option (List Stmt) → Outline
  | none => word "None"
  | some body => list (stmtOutlines body)

end

def Program.outline (p : Program) : Outline :=
  node "Program" [("statements", list (stmtOutlines p.statements))]

def Program.outlineText (p : Program) : String :=
  "\n".intercalate (p.outline.lines 0 "") ++ "\n"

end ScriptLang
