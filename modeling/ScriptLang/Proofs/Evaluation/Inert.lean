import ScriptLang.Proofs.Evaluation.Limit
import ScriptLang.Proofs.Table

/-!
Inert syntax. An evaluation never looks at the arguments of an object creation, at `implements`, at
a method behind another of the same name, at the types of a method's parameters or at an interface.
Without all of these a program runs as before, and leaves the same functions and classes without
them.
-/

set_option autoImplicit false
set_option relaxedAutoImplicit false

namespace ScriptLang

mutual

def Expr.strip : Expr → Expr
  | .integer p value => .integer p value
  | .string p text => .string p text
  | .template p text => .template p text
  | .identifier p name => .identifier p name
  | .binary p operator left right => .binary p operator left.strip right.strip
  | .functionCall p name args => .functionCall p name (stripArgs args)
  | .methodCall p receiver method args => .methodCall p receiver.strip method (stripArgs args)
  | .fieldAccess p receiver field => .fieldAccess p receiver.strip field
  | .creation p className _ => .creation p className []

def stripArgs : List Expr → List Expr
  | [] => []
  | e :: more => e.strip :: stripArgs more

end

/-- A parameter with the type `Int` in place of its own. -/
def Param.strip (p : Param) : Param :=
  { p with type := { p.type with type := .int } }

def Signature.strip (s : Signature) : Signature :=
  { s with params := s.params.map Param.strip }

def firstMethods : List Routine → List Routine
  | [] => []
  | m :: more => m :: (firstMethods more).filter (·.signature.name ≠ m.signature.name)

def Stmt.isInterface : Stmt → Bool
  | .interfaceDecl _ => true
  | _ => false

mutual

def Stmt.strip : Stmt → Stmt
  | .declaration p type name value => .declaration p type name value.strip
  | .function ⟨head, body⟩ => .function ⟨head, stripBlock body⟩
  | .conditional p condition thenBody elseBody =>
    .conditional p condition.strip (stripBlock thenBody) (stripElse elseBody)
  | .classDecl decl => .classDecl decl.strip
  | .interfaceDecl decl => .interfaceDecl decl
  | .assignment p target value => .assignment p target.strip value.strip
  | .expression p expr => .expression p expr.strip

def ClassDecl.strip : ClassDecl → ClassDecl
  | ⟨p, name, _, fields, methods⟩ => ⟨p, name, none, fields, firstMethods (stripMethods methods)⟩

def Routine.stripMethod : Routine → Routine
  | ⟨head, body⟩ => ⟨head.strip, stripBlock body⟩

def stripMethods : List Routine → List Routine
  | [] => []
  | m :: more => m.stripMethod :: stripMethods more

/-- A block without inert syntax and without definitions of interfaces. -/
def stripBlock : List Stmt → List Stmt
  | [] => []
  | s :: more => if s.isInterface then stripBlock more else s.strip :: stripBlock more

def stripElse : Option (List Stmt) → Option (List Stmt)
  | none => none
  | some body => some (stripBlock body)

end

def Program.strip (p : Program) : Program :=
  ⟨stripBlock p.statements⟩

def Callable.strip (f : Callable) : Callable :=
  { f with body := stripBlock f.body }

private theorem stripArgs_eq_map (args : List Expr) : stripArgs args = args.map Expr.strip := by
  induction args with
  | nil => rfl
  | cons e more ih => rw [stripArgs, ih, List.map_cons]

private theorem stripMethods_eq_map (methods : List Routine) :
    stripMethods methods = methods.map Routine.stripMethod := by
  induction methods with
  | nil => rfl
  | cons m more ih => rw [stripMethods, ih, List.map_cons]

private theorem stripElse_eq_map (body : Option (List Stmt)) :
    stripElse body = body.map stripBlock := by
  cases body <;> rfl

private theorem stripBlock_eq_reword (body : List Stmt) :
    stripBlock body = Simulation.reword (!·.isInterface) Stmt.strip body := by
  unfold Simulation.reword
  induction body with
  | nil => rfl
  | cons s more ih =>
    rw [stripBlock, ih]
    cases interface : s.isInterface with
    | true => rw [List.filter_cons_of_neg (by simp [interface]), if_pos rfl]
    | false => rw [List.filter_cons_of_pos (by simp [interface]), if_neg nofun, List.map_cons]

private theorem ClassDecl.strip_eq (d : ClassDecl) :
    d.strip = ⟨d.position, d.name, none, d.fields, firstMethods (stripMethods d.methods)⟩ := by
  cases d
  rw [ClassDecl.strip]

private theorem Routine.stripMethod_eq (m : Routine) :
    m.stripMethod = ⟨m.signature.strip, stripBlock m.body⟩ := by
  cases m
  rw [Routine.stripMethod]

private theorem find?_firstMethods (methods : List Routine) (name : String) :
    (firstMethods methods).find? (·.signature.name = name) =
      methods.find? (·.signature.name = name) := by
  induction methods with
  | nil => rfl
  | cons m more ih =>
    rw [firstMethods, List.find?_cons, List.find?_cons]
    by_cases here : m.signature.name = name
    · simp only [here, decide_true]
    · have passed (r : Routine) : decide (r.signature.name ≠ m.signature.name) = true ∧
          decide (r.signature.name = name) = true ↔ r.signature.name = name := by
        rw [decide_eq_true_iff, decide_eq_true_iff]
        exact ⟨And.right, fun wanted => ⟨fun same => here (same ▸ wanted), wanted⟩⟩
      simp only [here, decide_false, List.find?_filter, passed, ih]

private theorem disguise_strip : Disguise id Expr.strip where
  integer _ _ := rfl
  string _ _ := rfl
  template _ _ := rfl
  identifier _ _ := rfl
  binary _ _ _ _ := rfl
  functionCall p name args := by rw [Expr.strip, stripArgs_eq_map, id]
  methodCall p receiver method args := by rw [Expr.strip, stripArgs_eq_map, id]
  fieldAccess _ _ _ := rfl
  creation p className args := ⟨[], rfl⟩

section Like

variable {bodies : List Stmt → List Stmt → Prop}

private theorem Routine.like_stripMethod {m : Routine} (body : bodies m.body (stripBlock m.body)) :
    m.Like bodies m.stripMethod := by
  rw [stripMethod_eq]
  refine ⟨?_, rfl, body⟩
  rw [Signature.strip, List.map_map]
  rfl

private theorem ClassDecl.like_strip {d : ClassDecl}
    (body : ∀ statements, bodies statements (stripBlock statements)) : d.Like bodies d.strip := by
  have whole : d.Like bodies { d with methods := d.methods.map Routine.stripMethod } := by
    refine ClassDecl.like_of_map rfl rfl (fun m => ?_) fun m => m.like_stripMethod (body m.body)
    rw [Routine.stripMethod_eq]
    rfl
  rw [strip_eq, stripMethods_eq_map]
  refine ⟨rfl, fun name => ?_⟩
  rw [find?_firstMethods]
  exact whole.methods name

end Like

/-- That the second machine holds what is left of the functions and classes of the first without
inert syntax, and that a program sees no other difference. -/
structure Machine.StripsTo (m m' : Machine) : Prop where
  vars : m'.env.vars = m.env.vars
  functions : m'.env.functions = m.env.functions.map Callable.strip
  classes : m'.env.classes = m.env.classes.map ClassDecl.strip
  printed : m'.printed = m.printed

private theorem Machine.stripsTo_initial : StripsTo .initial .initial :=
  ⟨rfl, rfl, rfl, rfl⟩

open Evaluation Machine

namespace Simulation

/-- A run of a program beside one of the program without inert syntax. -/
def stripped : Simulation where
  machines := StripsTo
  bodies body body' := body' = stripBlock body
  place := id
  expr := Expr.strip
  admits _ := True
  disguise := disguise_strip
  identifier related _ := by rw [related.vars]
  template related _ := by rw [related.vars]
  function related _ := by
    rw [related.functions, Table.get?_map]
    exact rel_map (fun f => ⟨rfl, rfl, rfl⟩) _
  classDecl name related := by
    rw [related.classes, Table.get?_map]
    exact rel_map (fun d => d.like_strip fun _ => rfl) _
  define name v related :=
    { related with vars := by simp only [Environment.defineVariable, related.vars] }
  print text related := { related with printed := by simp only [related.printed] }
  callFunction _ related := { related with }
  callMethod _ _ related := { related with }
  push related := { related with }
  restore opened reached := { reached with vars := opened.vars }

private theorem rewording_stripped : stripped.Rewording (!·.isInterface) Stmt.strip where
  declaration p type name value := ⟨type, rfl, rfl⟩
  expression _ _ := rfl
  assignment _ _ _ := rfl
  conditional p condition thenBody elseBody := by
    rw [Stmt.strip, stripElse_eq_map, stripBlock_eq_reword, funext stripBlock_eq_reword]
    rfl
  function := by
    rintro early bodyOf bodyOf' ⟨head, body⟩ -
    simp only [Stmt.strip, executeWith]
    refine alike_definition fun related => { related with functions := ?_ }
    simp only [Environment.defineFunction, related.functions, Table.map_insert]
    rfl
  classDecl := by
    rintro early bodyOf bodyOf' decl -
    simp only [Stmt.strip, executeWith, ClassDecl.strip_eq]
    refine alike_definition fun related => { related with classes := ?_ }
    simp only [Environment.defineClass, related.classes, Table.map_insert, ClassDecl.strip_eq]
  interfaceDecl decl keep := nomatch keep
  dropped bodyOf {m m' s} drop related := by
    cases s with
    | interfaceDecl decl =>
      simp only [executeWith]
      exact ⟨_, rfl, { related with }⟩
    | _ => exact absurd rfl drop

private theorem sound_stripped : stripped.Sound :=
  rewording_stripped.sound fun body _ same =>
    ⟨same.trans (stripBlock_eq_reword body), fun _ _ => trivial⟩

private theorem programs_stripped (p : Program) : stripped.Programs p p.strip := by
  have programs := rewording_stripped.programs (p := p) fun _ _ => trivial
  rwa [← stripBlock_eq_reword] at programs

end Simulation

/-- A program ends if and only if it does without its inert syntax, and then in the same way: with
the same error or none, the same output and variables, and functions and classes that are the same
without their inert syntax. -/
theorem Program.endsFrom_strip (p : Program) :
    ((∃ outcome n, p.EndsFrom .initial outcome n) ↔
        ∃ outcome n, p.strip.EndsFrom .initial outcome n) ∧
      ∀ outcome n outcome' n', p.EndsFrom .initial outcome n →
        p.strip.EndsFrom .initial outcome' n' →
          outcome' = outcome ∧ n'.printed = n.printed ∧ n'.env.vars = n.env.vars ∧
            n'.env.functions = n.env.functions.map Callable.strip ∧
            n'.env.classes = n.env.classes.map ClassDecl.strip := by
  have programs := Simulation.programs_stripped p
  have sound := Simulation.sound_stripped
  have related : Simulation.stripped.machines .initial .initial := stripsTo_initial
  refine ⟨programs.endsFrom_iff sound related, fun outcome n outcome' n' ends ends' => ?_⟩
  obtain ⟨same, reached⟩ := programs.ends_alike sound related ends ends'
  exact ⟨same.trans (Stop.mapError_relocate_id outcome), reached.printed, reached.vars,
    reached.functions, reached.classes⟩

/-- A method, with another of its name behind it, that gets an integer for a string, called on an
object whose creation has an argument that would fail. -/
theorem Program.endsFrom_strip_of_creation :
    let nowhere : Position := ⟨0, 0⟩
    let shape : InterfaceDecl := ⟨nowhere, "Shape", []⟩
    let shown : Stmt :=
      .expression nowhere (.functionCall nowhere "print" [.identifier nowhere "x"])
    let method : Routine :=
      ⟨⟨nowhere, "m", [⟨nowhere, "x", ⟨nowhere, .string⟩⟩], ⟨nowhere, .void⟩⟩,
        [.interfaceDecl shape, shown]⟩
    let hidden : Routine := ⟨⟨nowhere, "m", [], ⟨nowhere, .int⟩⟩, []⟩
    let call (args : List Expr) : Stmt := .expression nowhere
      (.methodCall nowhere (.creation nowhere "C" args) "m" [.integer nowhere 7])
    let p : Program :=
      ⟨[.interfaceDecl shape, .classDecl ⟨nowhere, "C", some "Shape", [], [method, hidden]⟩,
        call [.identifier nowhere "lost"]]⟩
    let left := (interpret 1 p .initial).2
    let left' := (interpret 1 p.strip .initial).2
    p.strip = ⟨[.classDecl ⟨nowhere, "C", none, [],
        [⟨⟨nowhere, "m", [⟨nowhere, "x", ⟨nowhere, .int⟩⟩], ⟨nowhere, .void⟩⟩, [shown]⟩]⟩,
        call []]⟩ ∧
      p.EndsFrom .initial (.ok ()) left ∧ p.strip.EndsFrom .initial (.ok ()) left' ∧
      left'.printed = "7\n" ∧ left'.env.classes = left.env.classes.map ClassDecl.strip := by
  intro nowhere shape shown method hidden call p left left'
  have ends : p.EndsFrom .initial (.ok ()) left := ⟨1, rfl, nofun⟩
  have ends' : p.strip.EndsFrom .initial (.ok ()) left' := ⟨1, rfl, nofun⟩
  obtain ⟨-, printed, -, -, classes⟩ := p.endsFrom_strip.2 _ _ _ _ ends ends'
  exact ⟨rfl, ends, ends', printed.trans rfl, classes⟩

end ScriptLang
