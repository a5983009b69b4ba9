import ScriptLang.Program
import ScriptLang.Program.Canonical
import ScriptLang.Proofs.Token.Regular
import ScriptLang.Text.Character
import ScriptLang.Text.Format

/-!
Programs that have a spelling. Every part of a well-formed program can be written down as the token
or tokens that the grammar asks for in its place: names are names, numbers fit, strings hold no
quote, and what is told apart by its text has the text that tells it.
-/

set_option autoImplicit false
set_option relaxedAutoImplicit false

namespace ScriptLang

mutual

def Expr.WellFormed : Expr → Prop
  | .integer _ value => 0 ≤ value ∧ value ≤ Lexeme.greatestInteger
  | .string _ text => '"' ∉ text.toList ∧ ¬ Text.hasMarker text.toList
  | .template _ text => '"' ∉ text.toList ∧ Text.hasMarker text.toList
  | .identifier _ name => IsName name
  | .binary _ operator left right =>
    operator.precedence ≠ 0 ∧ left.WellFormed ∧ right.WellFormed
  | .functionCall _ name args => IsName name ∧ ArgsWellFormed args
  | .methodCall _ receiver method args =>
    receiver.WellFormed ∧ IsName method ∧ method ≠ "new" ∧ ArgsWellFormed args
  | .fieldAccess _ receiver field => receiver.WellFormed ∧ IsName field
  | .creation _ className args => IsName className ∧ ArgsWellFormed args

def ArgsWellFormed : List Expr → Prop
  | [] => True
  | e :: more => e.WellFormed ∧ ArgsWellFormed more

end

theorem argsWellFormed_iff {args : List Expr} :
    ArgsWellFormed args ↔ ∀ a ∈ args, a.WellFormed := by
  induction args with
  | nil => simp [ArgsWellFormed]
  | cons e more ih => simp [ArgsWellFormed, ih]

namespace Ty

def WellFormed : Ty → Prop
  | named name => IsName name
  | _ => True

/-- Whether a type that is named has an upper-case name, as in the declaration of a variable. -/
def Capitalized : Ty → Prop
  | named name => ∃ c rest, name.toList = c :: rest ∧ Text.isUppercase c
  | _ => True

end Ty

def Param.WellFormed (p : Param) : Prop :=
  IsName p.name ∧ p.type.type.WellFormed

def Field.WellFormed (d : Field) : Prop :=
  IsName d.name ∧ d.type.type.WellFormed

def Signature.WellFormed (s : Signature) : Prop :=
  IsName s.name ∧ (∀ p ∈ s.params, p.WellFormed) ∧ s.returns.type.WellFormed

def InterfaceDecl.WellFormed (d : InterfaceDecl) : Prop :=
  IsName d.name ∧ ∀ s ∈ d.methods, s.WellFormed

mutual

def Stmt.WellFormed : Stmt → Prop
  | .declaration _ type name value =>
    type.type.WellFormed ∧ type.type.Capitalized ∧ IsName name ∧ value.WellFormed
  | .function routine => routine.WellFormed
  | .conditional _ condition thenBody elseBody =>
    condition.WellFormed ∧ BlockWellFormed thenBody ∧ ElseWellFormed elseBody
  | .classDecl decl => decl.WellFormed
  | .interfaceDecl decl => decl.WellFormed
  | .assignment _ target value => target.WellFormed ∧ value.WellFormed
  | .expression _ expr => expr.WellFormed

def Routine.WellFormed : Routine → Prop
  | ⟨head, body⟩ => head.WellFormed ∧ BlockWellFormed body

def ClassDecl.WellFormed : ClassDecl → Prop
  | ⟨_, name, implements, fields, methods⟩ =>
    IsName name ∧ (∀ face ∈ implements, IsName face) ∧ (∀ d ∈ fields, d.WellFormed) ∧
      MethodsWellFormed methods

def MethodsWellFormed : List Routine → Prop
  | [] => True
  | m :: more => m.WellFormed ∧ MethodsWellFormed more

def BlockWellFormed : List Stmt → Prop
  | [] => True
  | s :: more => s.WellFormed ∧ BlockWellFormed more

def ElseWellFormed : Option (List Stmt) → Prop
  | none => True
  | some body => BlockWellFormed body

end

theorem methodsWellFormed_iff {methods : List Routine} :
    MethodsWellFormed methods ↔ ∀ m ∈ methods, m.WellFormed := by
  induction methods with
  | nil => simp [MethodsWellFormed]
  | cons m more ih => simp [MethodsWellFormed, ih]

theorem blockWellFormed_iff {body : List Stmt} :
    BlockWellFormed body ↔ ∀ s ∈ body, s.WellFormed := by
  induction body with
  | nil => simp [BlockWellFormed]
  | cons s more ih => simp [BlockWellFormed, ih]

def Program.WellFormed (p : Program) : Prop :=
  BlockWellFormed p.statements

end ScriptLang
