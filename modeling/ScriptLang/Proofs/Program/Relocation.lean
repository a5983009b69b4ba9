import ScriptLang.Program
import ScriptLang.Token

/-!
Tokens and programs up to the places that they carry. `relocate f` moves every place by `f`; two
programs differ in nothing but their places exactly if they are the same once all places are one.
-/

set_option autoImplicit false
set_option relaxedAutoImplicit false

namespace ScriptLang

variable (f : Position → Position)

def Token.relocate (t : Token) : Token :=
  ⟨t.kind, t.text, f t.position⟩

def Token.unplaced (t : Token) : Token :=
  t.relocate fun _ => .first

mutual

def Expr.relocate : Expr → Expr
  | .integer p value => .integer (f p) value
  | .string p text => .string (f p) text
  | .template p text => .template (f p) text
  | .identifier p name => .identifier (f p) name
  | .binary p operator left right => .binary (f p) operator left.relocate right.relocate
  | .functionCall p name args => .functionCall (f p) name (relocateArgs args)
  | .methodCall p receiver method args =>
    .methodCall (f p) receiver.relocate method (relocateArgs args)
  | .fieldAccess p receiver field => .fieldAccess (f p) receiver.relocate field
  | .creation p className args => .creation (f p) className (relocateArgs args)

def relocateArgs : List Expr → List Expr
  | [] => []
  | e :: more => e.relocate :: relocateArgs more

end

theorem relocateArgs_eq_map (args : List Expr) :
    relocateArgs f args = args.map (Expr.relocate f) := by
  induction args with
  | nil => rfl
  | cons e more ih => rw [relocateArgs, ih, List.map_cons]

@[simp] theorem Expr.position_relocate (e : Expr) : (e.relocate f).position = f e.position := by
  cases e <;> rfl

def TypeRef.relocate (r : TypeRef) : TypeRef :=
  ⟨f r.position, r.type⟩

def Param.relocate (p : Param) : Param :=
  ⟨f p.position, p.name, p.type.relocate f⟩

def Field.relocate (d : Field) : Field :=
  ⟨f d.position, d.name, d.type.relocate f⟩

def Signature.relocate (s : Signature) : Signature :=
  ⟨f s.position, s.name, s.params.map (Param.relocate f), s.returns.relocate f⟩

def InterfaceDecl.relocate (d : InterfaceDecl) : InterfaceDecl :=
  ⟨f d.position, d.name, d.methods.map (Signature.relocate f)⟩

mutual

def Stmt.relocate : Stmt → Stmt
  | .declaration p type name value =>
    .declaration (f p) (type.relocate f) name (value.relocate f)
  | .function routine => .function routine.relocate
  | .conditional p condition thenBody elseBody =>
    .conditional (f p) (condition.relocate f) (relocateBlock thenBody) (relocateElse elseBody)
  | .classDecl decl => .classDecl decl.relocate
  | .interfaceDecl decl => .interfaceDecl (decl.relocate f)
  | .assignment p target value => .assignment (f p) (target.relocate f) (value.relocate f)
  | .expression p expr => .expression (f p) (expr.relocate f)

def Routine.relocate : Routine → Routine
  | ⟨head, body⟩ => ⟨head.relocate f, relocateBlock body⟩

def ClassDecl.relocate : ClassDecl → ClassDecl
  | ⟨p, name, implements, fields, methods⟩ =>
    ⟨f p, name, implements, fields.map (Field.relocate f), relocateMethods methods⟩

def relocateMethods : List Routine → List Routine
  | [] => []
  | m :: more => m.relocate :: relocateMethods more

def relocateBlock : List Stmt → List Stmt
  | [] => []
  | s :: more => s.relocate :: relocateBlock more

def relocateElse : Option (List Stmt) → Option (List Stmt)
  | none => none
  | some body => some (relocateBlock body)

end

theorem relocateBlock_eq_map (body : List Stmt) :
    relocateBlock f body = body.map (Stmt.relocate f) := by
  induction body with
  | nil => rfl
  | cons s more ih => rw [relocateBlock, ih, List.map_cons]

theorem relocateElse_eq_map (body : Option (List Stmt)) :
    relocateElse f body = body.map (relocateBlock f) := by
  cases body <;> rfl

theorem relocateMethods_eq_map (methods : List Routine) :
    relocateMethods f methods = methods.map (Routine.relocate f) := by
  induction methods with
  | nil => rfl
  | cons r more ih => rw [relocateMethods, ih, List.map_cons]

theorem Routine.signature_relocate (r : Routine) :
    (r.relocate f).signature = r.signature.relocate f := by
  cases r
  rfl

theorem Routine.body_relocate (r : Routine) : (r.relocate f).body = relocateBlock f r.body := by
  cases r
  rfl

theorem ClassDecl.relocate_eq (d : ClassDecl) :
    d.relocate f = ⟨f d.position, d.name, d.implements, d.fields.map (Field.relocate f),
      d.methods.map (Routine.relocate f)⟩ := by
  cases d
  rw [ClassDecl.relocate, relocateMethods_eq_map]

namespace Program

def relocate (p : Program) : Program :=
  ⟨p.statements.map (Stmt.relocate f)⟩

/-- The program with all places made one: what is left are its nodes and their other data. -/
def unplaced (p : Program) : Program :=
  p.relocate fun _ => .first

end Program

abbrev Expr.unplaced (e : Expr) : Expr :=
  e.relocate fun _ => .first

abbrev Stmt.unplaced (s : Stmt) : Stmt :=
  s.relocate fun _ => .first

end ScriptLang
