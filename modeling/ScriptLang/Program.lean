import ScriptLang.Token

/-!
Programs as trees. Every node carries the place in the source where it was read.
-/

set_option autoImplicit false
set_option relaxedAutoImplicit false

namespace ScriptLang

inductive Ty where
  | int
  | string
  | void
  | named (name : String)
deriving DecidableEq, Repr, Inhabited

namespace Ty

def display : Ty → String
  | int => "Int"
  | string => "String"
  | void => "void"
  | named name => name

def ofName : String → Ty
  | "Int" => int
  | "String" => string
  | "void" => void
  | name => named name

theorem display_ofName (name : String) : (ofName name).display = name := by
  unfold ofName
  split <;> rfl

end Ty

structure TypeRef where
  position : Position
  type : Ty
deriving DecidableEq, Repr, Inhabited

/-- A binary operator. Trees built by hand may hold a sign that the grammar does not know. -/
inductive Operator where
  | add
  | subtract
  | multiply
  | divide
  | equal
  | unknown (sign : String)
deriving DecidableEq, Repr, Inhabited

namespace Operator

def sign : Operator → String
  | add => "+"
  | subtract => "-"
  | multiply => "*"
  | divide => "/"
  | equal => "=="
  | unknown sign => sign

def ofSign : String → Operator
  | "+" => add
  | "-" => subtract
  | "*" => multiply
  | "/" => divide
  | "==" => equal
  | sign => unknown sign

theorem sign_ofSign (s : String) : (ofSign s).sign = s := by
  unfold ofSign
  split <;> rfl

end Operator

/-- An expression. A template is a string that holds an interpolation marker. -/
inductive Expr where
  | integer (position : Position) (value : Int)
  | string (position : Position) (text : String)
  | template (position : Position) (text : String)
  | identifier (position : Position) (name : String)
  | binary (position : Position) (operator : Operator) (left right : Expr)
  | functionCall (position : Position) (name : String) (args : List Expr)
  | methodCall (position : Position) (receiver : Expr) (method : String) (args : List Expr)
  | fieldAccess (position : Position) (receiver : Expr) (field : String)
  | creation (position : Position) (className : String) (args : List Expr)
deriving Repr, Inhabited

namespace Expr

def position : Expr → Position
  | integer p _ | string p _ | template p _ | identifier p _ | binary p _ _ _ | functionCall p _ _
  | methodCall p _ _ _ | fieldAccess p _ _ | creation p _ _ => p

end Expr

structure Param where
  position : Position
  name : String
  type : TypeRef
deriving DecidableEq, Repr, Inhabited

structure Field where
  position : Position
  name : String
  type : TypeRef
deriving DecidableEq, Repr, Inhabited

/-- The head of a function or method: its name, its parameters and the type that it returns. -/
structure Signature where
  position : Position
  name : String
  params : List Param
  returns : TypeRef
deriving DecidableEq, Repr, Inhabited

structure InterfaceDecl where
  position : Position
  name : String
  methods : List Signature
deriving DecidableEq, Repr, Inhabited

mutual

inductive Stmt where
  | declaration (position : Position) (type : TypeRef) (name : String) (value : Expr)
  | function (routine : Routine)
  | conditional (position : Position) (condition : Expr) (thenBody : List Stmt)
      (elseBody : Option (List Stmt))
  | classDecl (decl : ClassDecl)
  | interfaceDecl (decl : InterfaceDecl)
  | assignment (position : Position) (target value : Expr)
  | expression (position : Position) (expr : Expr)

structure Routine where
  signature : Signature
  body : List Stmt

structure ClassDecl where
  position : Position
  name : String
  implements : Option String
  fields : List Field
  methods : List Routine

end

namespace Stmt

def position : Stmt → Position
  | declaration p _ _ _ | conditional p _ _ _ | assignment p _ _ | expression p _ => p
  | function routine => routine.signature.position
  | classDecl decl => decl.position
  | interfaceDecl decl => decl.position

end Stmt

structure Program where
  statements : List Stmt

/-! ## Induction

Induction over expressions and statements. The hypotheses for the expressions in an argument list
and for the statements in a block speak of every member of the list.
-/

-- The cases reach the lists of a tree only through the other halves of the recursion.
set_option linter.unusedSectionVars false

section Expr

variable {motive : Expr → Prop}
  (integer : ∀ p value, motive (.integer p value))
  (string : ∀ p text, motive (.string p text))
  (template : ∀ p text, motive (.template p text))
  (identifier : ∀ p name, motive (.identifier p name))
  (binary : ∀ p operator left right, motive left → motive right →
    motive (.binary p operator left right))
  (functionCall : ∀ p name args, (∀ a ∈ args, motive a) → motive (.functionCall p name args))
  (methodCall : ∀ p receiver method args, motive receiver → (∀ a ∈ args, motive a) →
    motive (.methodCall p receiver method args))
  (fieldAccess : ∀ p receiver field, motive receiver → motive (.fieldAccess p receiver field))
  (creation : ∀ p className args, (∀ a ∈ args, motive a) → motive (.creation p className args))

include integer string template identifier binary functionCall methodCall fieldAccess creation

mutual

@[elab_as_elim, induction_eliminator]
theorem Expr.induction : ∀ e, motive e
  | .integer p value => integer p value
  | .string p text => string p text
  | .template p text => template p text
  | .identifier p name => identifier p name
  | .binary p operator left right => binary p operator left right left.induction right.induction
  | .functionCall p name args => functionCall p name args (args_induction args)
  | .methodCall p receiver method args =>
    methodCall p receiver method args receiver.induction (args_induction args)
  | .fieldAccess p receiver field => fieldAccess p receiver field receiver.induction
  | .creation p className args => creation p className args (args_induction args)

private theorem args_induction : ∀ args : List Expr, ∀ a ∈ args, motive a
  | [], _, found => nomatch found
  | e :: more, a, found =>
    (List.mem_cons.mp found).elim (fun same => same ▸ e.induction) (args_induction more a)

end

end Expr

section Stmt

variable {motive : Stmt → Prop}
  (declaration : ∀ p type name value, motive (.declaration p type name value))
  (function : ∀ head body, (∀ s ∈ body, motive s) → motive (.function ⟨head, body⟩))
  (conditional : ∀ p condition thenBody elseBody, (∀ s ∈ thenBody, motive s) →
    (∀ body, elseBody = some body → ∀ s ∈ body, motive s) →
    motive (.conditional p condition thenBody elseBody))
  (classDecl : ∀ p name implements fields methods,
    (∀ m ∈ methods, ∀ s ∈ m.body, motive s) →
    motive (.classDecl ⟨p, name, implements, fields, methods⟩))
  (interfaceDecl : ∀ decl, motive (.interfaceDecl decl))
  (assignment : ∀ p target value, motive (.assignment p target value))
  (expression : ∀ p e, motive (.expression p e))

include declaration function conditional classDecl interfaceDecl assignment expression

mutual

@[elab_as_elim, induction_eliminator]
theorem Stmt.induction : ∀ s, motive s
  | .declaration p type name value => declaration p type name value
  | .function ⟨head, body⟩ => function head body (block_induction body)
  | .conditional p condition thenBody elseBody =>
    conditional p condition thenBody elseBody (block_induction thenBody) (else_induction elseBody)
  | .classDecl ⟨p, name, implements, fields, methods⟩ =>
    classDecl p name implements fields methods (methods_induction methods)
  | .interfaceDecl decl => interfaceDecl decl
  | .assignment p target value => assignment p target value
  | .expression p e => expression p e

private theorem block_induction : ∀ body : List Stmt, ∀ s ∈ body, motive s
  | [], _, found => nomatch found
  | first :: more, s, found =>
    (List.mem_cons.mp found).elim (fun same => same ▸ first.induction) (block_induction more s)

private theorem else_induction :
    ∀ branch : Option (List Stmt), ∀ body, branch = some body → ∀ s ∈ body, motive s
  | none, _, same => nomatch same
  | some body, _, same => Option.some.inj same ▸ block_induction body

private theorem methods_induction : ∀ methods : List Routine, ∀ m ∈ methods, ∀ s ∈ m.body, motive s
  | [], _, found => nomatch found
  | ⟨_, body⟩ :: more, m, found =>
    (List.mem_cons.mp found).elim (fun same => same ▸ block_induction body)
      (methods_induction more m)

end

end Stmt

end ScriptLang
