import ScriptLang.Attempt
import ScriptLang.Environment
import ScriptLang.Program
import ScriptLang.Text.Format

/-!
Evaluation of programs: the errors, the trace, the machine that an evaluation works on, operators
and interpolation, and the evaluation of expressions and statements itself.
-/

set_option autoImplicit false
set_option relaxedAutoImplicit false

namespace ScriptLang

/-! ## Errors

Why an evaluation stops, and the wording of each cause.
-/

/-- What makes a program fail. The kinds of values are given by name. -/
inductive EvalCause where
  | declarationMismatch (expected : Ty) (kind : String)
  | argumentMismatch (param : String) (expected : Ty) (kind : String)
  | operandMismatch (operator : Operator) (left right : String)
  | printArity
  | functionArity (name : String) (expected actual : Nat)
  | methodArity (name : String) (expected actual : Nat)
  | undefinedVariable (name : String)
  | undefinedFunction (name : String)
  | classNotFound (name : String)
  | methodNotFound (name className : String)
  | fieldNotFound (name : String)
  | unsupportedTarget
  | divisionByZero
  | callOnNonObject
  | accessOnNonObject
  | unsupportedOperator (sign : String)
deriving DecidableEq, Repr

structure EvalError where
  cause : EvalCause
  position : Position
deriving DecidableEq, Repr

/-- Why an evaluation ends without a result: an error of the program, a call that finds no saved
variables to restore, or calls nested deeper than allowed. -/
inductive Stop where
  | error (e : EvalError)
  | noFrame
  | tooDeep
deriving DecidableEq, Repr

def Operator.verb : Operator → String
  | add => "add"
  | subtract => "subtract"
  | multiply => "multiply"
  | divide => "divide"
  | operator => operator.sign

def EvalCause.message : EvalCause → String
  | declarationMismatch expected kind =>
    "type mismatch: expected " ++ expected.display ++ ", got " ++ kind
  | argumentMismatch param expected kind =>
    "argument type mismatch for parameter " ++ param ++ ": expected " ++ expected.display
      ++ ", got " ++ kind
  | operandMismatch operator left right =>
    "cannot " ++ operator.verb ++ " " ++ left ++ " and " ++ right
  | printArity => "print() takes exactly one argument"
  | functionArity name expected actual =>
    "function " ++ name ++ " expects " ++ toString expected ++ " arguments, got "
      ++ toString actual
  | methodArity name expected actual =>
    "method " ++ name ++ " expects " ++ toString expected ++ " arguments, got " ++ toString actual
  | undefinedVariable name => "undefined variable: " ++ name
  | undefinedFunction name => "undefined function: " ++ name
  | classNotFound name => "class " ++ name ++ " not found"
  | methodNotFound name className => "method " ++ name ++ " not found in class " ++ className
  | fieldNotFound name => "field " ++ name ++ " not found"
  | unsupportedTarget => "only simple variable assignments are supported"
  | divisionByZero => "division by zero"
  | callOnNonObject => "cannot call method on non-object value"
  | accessOnNonObject => "cannot access field on non-object value"
  | unsupportedOperator sign => "unsupported operator '" ++ sign ++ "'"

/-- The text of a stop. Calls that are nested too deep have none of the program's own. -/
def Stop.message? : Stop → Option String
  | error e => some (e.position.locate e.cause.message)
  | noFrame => some "no frame"
  | tooDeep => none

/-! ## Traces

The trace of an evaluation: a record for every definition, call, frame and file.
-/

inductive Event where
  | defineFunction (name : String)
  | defineClass (name : String)
  | defineInterface (name : String)
  | callFunction (name : String) (depth : Nat)
  | callMethod (className name : String) (depth : Nat)
  | pushFrame (depth size : Nat)
  | popFrame (depth : Nat)
  | runFile (path : String)
deriving DecidableEq, Repr

namespace Event

def origin : Event → String
  | defineFunction _ | defineClass _ | defineInterface _ | callFunction _ _ | callMethod _ _ _ =>
    "exline.runtime"
  | pushFrame _ _ | popFrame _ => "exline.env"
  | runFile _ => "exline.cli"

def message : Event → String
  | defineFunction name => "define function " ++ name
  | defineClass name => "define class " ++ name
  | defineInterface name => "define interface " ++ name
  | callFunction name depth => "call " ++ name ++ " at depth " ++ toString depth
  | callMethod className name depth =>
    "call " ++ className ++ "." ++ name ++ " at depth " ++ toString depth
  | pushFrame depth size =>
    "push frame " ++ toString depth ++ " (" ++ toString size ++ " variables)"
  | popFrame depth => "pop frame " ++ toString depth
  | runFile path => "running " ++ path

def line (e : Event) : String :=
  e.origin ++ ": " ++ e.message

end Event

/-! ## Machines

Machines: an environment together with what was printed and recorded so far. An evaluation is an
attempt on a machine, so what was done before an error stays done.
-/

structure Machine where
  env : Environment
  printed : String
  trace : Array Event

abbrev Evaluation (α : Type) : Type :=
  Attempt Machine Stop α

namespace Machine

def initial : Machine :=
  ⟨.initial, "", #[]⟩

def record (m : Machine) (e : Event) : Machine :=
  { m with trace := m.trace.push e }

/-- The machine with its variables saved; the record tells the depth reached. -/
def pushFrame (m : Machine) : Machine :=
  let env := m.env.pushFrame
  { m with env }.record (.pushFrame env.depth env.vars.size)

end Machine

namespace Evaluation

variable {α : Type}

def raise (cause : EvalCause) (position : Position) : Evaluation α :=
  Attempt.fail (.error ⟨cause, position⟩)

def environment : Evaluation Environment := do
  return (← get).env

def modifyEnvironment (f : Environment → Environment) : Evaluation Unit :=
  modify fun m => { m with env := f m.env }

def defineVariable (name : String) (v : Value) : Evaluation Unit :=
  modifyEnvironment (·.defineVariable name v)

def record (e : Event) : Evaluation Unit :=
  modify (·.record e)

def printLine (text : String) : Evaluation Unit :=
  modify fun m => { m with printed := m.printed ++ text ++ "\n" }

/-- Restores the last saved variables; the record tells the depth left. -/
def popFrame : Evaluation Unit :=
  fun m =>
    match m.env.popFrame? with
    | some env => (.ok (), { m with env }.record (.popFrame m.env.depth))
    | none => (.error .noFrame, m)

/-- Runs a computation between saving the variables and restoring them. They are restored also
when the computation fails. -/
def inFrame (x : Evaluation α) : Evaluation α :=
  fun m =>
    let (result, reached) := x m.pushFrame
    match popFrame reached with
    | (.ok (), restored) => (result, restored)
    | (.error stop, left) => (.error stop, left)

end Evaluation

/-! ## Operators

Operators on values, and the texts of interpolated strings.
-/

namespace Value

def equals : Value → Value → Bool
  | int a, int b => a = b
  | string s, string t => s = t
  | _, _ => false

/-- The result of an operator on two integers. Sums, differences and products wrap around; a
quotient is truncated toward zero. -/
def operateInts (operator : Operator) (a b : Int64) : Except EvalCause Value :=
  match operator with
  | .add => .ok (int (a + b))
  | .subtract => .ok (int (a - b))
  | .multiply => .ok (int (a * b))
  | .divide => if b = 0 then .error .divisionByZero else .ok (int (a / b))
  | .equal => .ok (int (if a = b then 1 else 0))
  | .unknown sign => .error (.unsupportedOperator sign)

/-- The result of an operator. Equality is defined on all values, the other operators on integers,
and addition also joins two strings. -/
def operate (operator : Operator) (left right : Value) : Except EvalCause Value :=
  match operator, left, right with
  | .equal, _, _ => .ok (int (if left.equals right then 1 else 0))
  | .add, string s, string t => .ok (string (s ++ t))
  | _, int a, int b => operateInts operator a b
  | _, _, _ => .error (.operandMismatch operator left.kindName right.kindName)

end Value

/-! ## Interpolation

Interpolation: a string shows the value of the name in its first marker.
-/

/-- The text with its first marker replaced by the value of the name in it. A text without a
marker, or with a marker of an unknown name, stays as it is. -/
def interpolate (vars : Table Value) (text : String) : String :=
  match Text.splitAtMarker text.toList with
  | none => text
  | some (before, name, after) =>
    match vars.get? (String.ofList name) with
    | none => text
    | some v => String.ofList before ++ v.display ++ String.ofList after

/-! ## Runs

The evaluation of expressions, statements and programs. A statement may carry a value: an
expression statement carries the value of its expression, and the first value carried in a block
ends the block and is carried on. The body of a call yields the value that it carries, or else the
value that the declared type starts from.

The definitions follow the structure of the program. Only the body of a called function or method
lies outside it, so the evaluation of such a body is a parameter; `bodyWithin` ties the knot under
a limit on the nesting of calls.
-/

namespace Evaluation

section Open

variable (bodyOf : List Stmt → Evaluation (Option Value))

mutual

def evaluateWith : Expr → Evaluation Value
  | .integer _ n => return .ofInt n
  | .string _ text => return .string text
  | .template _ text => do
    return .string (interpolate (← environment).vars text)
  | .identifier position name => do
    match (← environment).vars.get? name with
    | some v => return v
    | none => raise (.undefinedVariable name) position
  | .binary position operator left right => do
    let a ← evaluateWith left
    let b ← evaluateWith right
    match Value.operate operator a b with
    | .ok v => return v
    | .error cause => raise cause position
  | .functionCall position name args => do
    if name = "print" then
      match ← evaluateSoleWith args with
      | some v =>
        printLine v.display
        return .string ""
      | none => raise .printArity position
    else
      match (← environment).functions.get? name with
      | none => raise (.undefinedFunction name) position
      | some f =>
        if args.length ≠ f.params.length then
          raise (.functionArity name f.params.length args.length) position
        else
          record (.callFunction name (← environment).depth)
          inFrame do
            bindCheckedWith f.params args
            return (← bodyOf f.body).getD (.zero f.returns.type)
  | .methodCall position receiver method args => do
    let this ← evaluateWith receiver
    match this with
    | .object className _ =>
      match (← environment).classes.get? className with
      | none => raise (.classNotFound className) position
      | some decl =>
        match decl.methods.find? (·.signature.name = method) with
        | none => raise (.methodNotFound method className) position
        | some m =>
          if args.length ≠ m.signature.params.length then
            raise (.methodArity method m.signature.params.length args.length) position
          else
            record (.callMethod className method (← environment).depth)
            inFrame do
              defineVariable "this" this
              bindWith m.signature.params args
              return (← bodyOf m.body).getD (.zero m.signature.returns.type)
    | _ => raise .callOnNonObject position
  | .fieldAccess position receiver field => do
    match ← evaluateWith receiver with
    | .object _ fields =>
      match fields.get? field with
      | some v => return v
      | none => raise (.fieldNotFound field) position
    | _ => raise .accessOnNonObject position
  | .creation position className _ => do
    match (← environment).classes.get? className with
    | some decl => return .newObject className decl
    | none => raise (.classNotFound className) position

/-- The value of the only argument; none, and nothing evaluated, unless there is exactly one. -/
def evaluateSoleWith : List Expr → Evaluation (Option Value)
  | [arg] => some <$> evaluateWith arg
  | _ => return none

/-- Binds parameters one after the other, each to the value of its argument where the parameters
before it are bound already. A value must fit the type of its parameter. -/
def bindCheckedWith : List Param → List Expr → Evaluation Unit
  | param :: params, arg :: args => do
    let v ← evaluateWith arg
    if v.fits param.type.type then
      defineVariable param.name v
      bindCheckedWith params args
    else
      raise (.argumentMismatch param.name param.type.type v.kindName) arg.position
  | _, _ => return ()

def bindWith : List Param → List Expr → Evaluation Unit
  | param :: params, arg :: args => do
    let v ← evaluateWith arg
    defineVariable param.name v
    bindWith params args
  | _, _ => return ()

end

mutual

/-- Executes a statement; the result is the value that it carries. -/
def executeWith : Stmt → Evaluation (Option Value)
  | .declaration position type name value => do
    let v ← evaluateWith bodyOf value
    if v.fits type.type then
      defineVariable name v
      return none
    else
      raise (.declarationMismatch type.type v.kindName) position
  | .expression _ expr => some <$> evaluateWith bodyOf expr
  | .conditional _ condition thenBody elseBody => do
    let v ← evaluateWith bodyOf condition
    if v.isTruthy then
      executeBlockWith thenBody
    else
      executeElseWith elseBody
  | .assignment position target value => do
    let v ← evaluateWith bodyOf value
    match target with
    | .identifier _ name =>
      defineVariable name v
      return none
    | _ => raise .unsupportedTarget position
  | .function ⟨head, body⟩ => do
    record (.defineFunction head.name)
    modifyEnvironment (·.defineFunction head.name ⟨head.params, head.returns, body, false⟩)
    return none
  | .classDecl decl => do
    record (.defineClass decl.name)
    modifyEnvironment (·.defineClass decl.name decl)
    return none
  | .interfaceDecl decl => do
    record (.defineInterface decl.name)
    modifyEnvironment (·.defineInterface decl.name decl)
    return none

/-- Executes statements up to the first that carries a value. -/
def executeBlockWith : List Stmt → Evaluation (Option Value)
  | [] => return none
  | s :: more => do
    match ← executeWith s with
    | some v => return some v
    | none => executeBlockWith more

def executeElseWith : Option (List Stmt) → Evaluation (Option Value)
  | none => return none
  | some body => executeBlockWith body

end

def interpretWith : List Stmt → Evaluation Unit
  | [] => return ()
  | s :: more => do
    discard (executeWith bodyOf s)
    interpretWith more

end Open

/-- The evaluation of a called body with at most `limit` calls nested in it. -/
def bodyWithin : Nat → List Stmt → Evaluation (Option Value)
  | 0, _ => Attempt.fail .tooDeep
  | limit + 1, statements => fun m => executeBlockWith (bodyWithin limit) statements m

def evaluate (limit : Nat) : Expr → Evaluation Value :=
  evaluateWith (bodyWithin limit)

def execute (limit : Nat) : Stmt → Evaluation (Option Value) :=
  executeWith (bodyWithin limit)

/-- Interprets a program with at most `limit` nested calls: all its statements in order, up to the
first error. -/
def interpret (limit : Nat) (p : Program) : Evaluation Unit :=
  interpretWith (bodyWithin limit) p.statements

/-- The nesting of calls that a run allows: more than a machine can hold. -/
def deepest : Nat := 1000000000000000000

end Evaluation

def Program.run (p : Program) : Except Stop Unit × Machine :=
  Evaluation.interpret Evaluation.deepest p Machine.initial

end ScriptLang
