import ScriptLang.Proofs.Evaluation.Limit
import ScriptLang.Proofs.Table

/-!
Dead code. The first value carried in a block ends the block, so what follows a statement that
always carries one is never executed. Cutting it off in every block of a program changes nothing
that can be seen of a run: neither how it ends, nor what it prints, nor the variables that it
leaves; the functions and classes that it leaves are those of the program, cut off too.
-/

set_option autoImplicit false
set_option relaxedAutoImplicit false

namespace ScriptLang

mutual

/-- Whether a statement carries a value whenever it ends without an error. -/
def Stmt.alwaysCarries : Stmt → Bool
  | .expression _ _ => true
  | .conditional _ _ thenBody elseBody => blockAlwaysCarries thenBody && elseAlwaysCarries elseBody
  | _ => false

def blockAlwaysCarries : List Stmt → Bool
  | [] => false
  | s :: more => s.alwaysCarries || blockAlwaysCarries more

/-- Whether there is an `else` branch, and some statement of it always carries a value. -/
def elseAlwaysCarries : Option (List Stmt) → Bool
  | none => false
  | some body => blockAlwaysCarries body

end

mutual

def Stmt.truncate : Stmt → Stmt
  | .function routine => .function routine.truncate
  | .conditional position condition thenBody elseBody =>
    .conditional position condition (truncateBlock thenBody) (truncateElse elseBody)
  | .classDecl decl => .classDecl decl.truncate
  | .declaration position type name value => .declaration position type name value
  | .interfaceDecl decl => .interfaceDecl decl
  | .assignment position target value => .assignment position target value
  | .expression position expr => .expression position expr

def Routine.truncate : Routine → Routine
  | ⟨signature, body⟩ => ⟨signature, truncateBlock body⟩

def ClassDecl.truncate : ClassDecl → ClassDecl
  | ⟨position, name, implements, fields, methods⟩ =>
    ⟨position, name, implements, fields, truncateMethods methods⟩

def truncateMethods : List Routine → List Routine
  | [] => []
  | m :: more => m.truncate :: truncateMethods more

/-- A block up to the first statement that always carries a value. -/
def truncateBlock : List Stmt → List Stmt
  | [] => []
  | s :: more => s.truncate :: if s.alwaysCarries then [] else truncateBlock more

def truncateElse : Option (List Stmt) → Option (List Stmt)
  | none => none
  | some body => some (truncateBlock body)

end

/-- A program with the dead code in its blocks cut off. Its own statements are not a block: all of
them are executed. -/
def Program.truncate (p : Program) : Program :=
  ⟨p.statements.map Stmt.truncate⟩

def Callable.truncate (f : Callable) : Callable :=
  { f with body := truncateBlock f.body }

def Machine.truncate (m : Machine) : Machine :=
  { m with env := { m.env with
      functions := m.env.functions.map Callable.truncate
      classes := m.env.classes.map ClassDecl.truncate } }

private theorem Routine.truncate_eq (m : Routine) :
    m.truncate = { m with body := truncateBlock m.body } := by
  cases m
  rfl

@[simp] theorem Routine.truncate_signature (m : Routine) : m.truncate.signature = m.signature := by
  rw [truncate_eq]

private theorem truncateMethods_eq_map (methods : List Routine) :
    truncateMethods methods = methods.map Routine.truncate := by
  induction methods with
  | nil => rfl
  | cons m more ih => rw [truncateMethods, ih, List.map_cons]

private theorem ClassDecl.truncate_eq (d : ClassDecl) :
    d.truncate = { d with methods := d.methods.map Routine.truncate } := by
  cases d
  rw [ClassDecl.truncate, truncateMethods_eq_map]

@[simp] theorem ClassDecl.truncate_name (d : ClassDecl) : d.truncate.name = d.name := by
  rw [truncate_eq]

namespace Machine

private theorem truncate_defineFunction (m : Machine) (name : String) (f : Callable) :
    { m with env := m.env.defineFunction name f : Machine }.truncate =
      { m.truncate with env := m.truncate.env.defineFunction name f.truncate } := by
  simp only [truncate, Environment.defineFunction, Table.map_insert]

private theorem truncate_defineClass (m : Machine) (name : String) (d : ClassDecl) :
    { m with env := m.env.defineClass name d : Machine }.truncate =
      { m.truncate with env := m.truncate.env.defineClass name d.truncate } := by
  simp only [truncate, Environment.defineClass, Table.map_insert]

end Machine

namespace Evaluation

variable {bodyOf bodyOf' : List Stmt → Evaluation (Option Value)}

mutual

private theorem executeWith_alwaysCarries :
    ∀ s : Stmt, s.alwaysCarries → ∀ m n, executeWith bodyOf s m ≠ (.ok none, n)
  | .expression _ e, _, m, n => by
    simp only [executeWith, map_eq_pure_bind, Attempt.bind_apply]
    rcases evaluateWith bodyOf e m with ⟨stop | v, reached⟩ <;> simp
  | .conditional _ condition thenBody elseBody, carries, m, n => by
    rw [Stmt.alwaysCarries, Bool.and_eq_true] at carries
    simp only [executeWith, Attempt.bind_apply]
    rcases evaluateWith bodyOf condition m with ⟨stop | v, reached⟩
    · simp
    · dsimp only
      split
      · exact executeBlockWith_alwaysCarries thenBody carries.1 reached n
      · exact executeElseWith_alwaysCarries elseBody carries.2 reached n

private theorem executeBlockWith_alwaysCarries :
    ∀ body : List Stmt, blockAlwaysCarries body →
      ∀ m n, executeBlockWith bodyOf body m ≠ (.ok none, n)
  | s :: more, carries, m, n => by
    rw [blockAlwaysCarries, Bool.or_eq_true] at carries
    have first := executeWith_alwaysCarries s
    simp only [executeBlockWith, Attempt.bind_apply]
    rcases hs : executeWith bodyOf s m with ⟨stop | _ | v, reached⟩
    · simp
    · obtain now | later := carries
      · exact absurd hs (first now m reached)
      · exact executeBlockWith_alwaysCarries more later reached n
    · simp

private theorem executeElseWith_alwaysCarries :
    ∀ body : Option (List Stmt), elseAlwaysCarries body →
      ∀ m n, executeElseWith bodyOf body m ≠ (.ok none, n)
  | some body, carries, m, n => by
    simp only [executeElseWith]
    exact executeBlockWith_alwaysCarries body carries m n

end

end Evaluation

open Evaluation Machine

namespace Simulation

/-- A run of a program beside one of the program without its dead code. -/
def deadCode : Simulation where
  machines m m' := m' = m.truncate
  bodies body body' := body' = truncateBlock body
  place := id
  expr := id
  admits _ := True
  disguise := .id
  identifier := by rintro m _ p name rfl -; rfl
  template := by rintro m _ p text rfl -; rfl
  function := by
    rintro m _ name rfl -
    simp only [Machine.truncate, Table.get?_map]
    exact rel_map (fun f => ⟨rfl, rfl, rfl⟩) _
  classDecl := by
    rintro m _ name rfl
    simp only [Machine.truncate, Table.get?_map]
    refine rel_map (fun d => ?_) _
    rw [ClassDecl.truncate_eq]
    refine ClassDecl.like_of_map rfl rfl (fun r => by rw [Routine.truncate_signature]) fun r => ?_
    rw [Routine.truncate_eq]
    exact ⟨rfl, rfl, rfl⟩
  define := by rintro m _ name v rfl; rfl
  print := by rintro m _ text rfl; rfl
  callFunction := by rintro m _ name rfl; rfl
  callMethod := by rintro m _ className name rfl; rfl
  push := by rintro m _ rfl; rfl
  restore := by rintro m _ n _ rfl rfl; rfl

variable {early : Prop} {bodyOf bodyOf' : List Stmt → Evaluation (Option Value)}

mutual

private theorem alike_truncate (hb : deadCode.Bodies early bodyOf bodyOf') :
    ∀ s : Stmt, deadCode.Alike early (executeWith bodyOf s) (executeWith bodyOf' s.truncate)
  | .declaration _ _ _ _ => alike_declaration hb rfl rfl fun _ _ => trivial
  | .expression _ _ => alike_expression hb fun _ _ => trivial
  | .conditional _ _ thenBody elseBody =>
    alike_conditional hb (fun _ _ => trivial) (alike_truncateBlock hb thenBody)
      (alike_truncateElse hb elseBody)
  | .assignment _ _ _ => alike_assignment hb rfl fun _ _ => trivial
  | .function ⟨head, body⟩ => by
    simp only [Stmt.truncate, Routine.truncate, executeWith]
    refine alike_definition ?_
    rintro m _ rfl
    let f : Callable := ⟨head.params, head.returns, body, false⟩
    exact (truncate_defineFunction (m.record _) head.name f).symm
  | .classDecl decl => by
    simp only [Stmt.truncate, executeWith, ClassDecl.truncate_name]
    refine alike_definition ?_
    rintro m _ rfl
    exact (truncate_defineClass (m.record _) decl.name decl).symm
  | .interfaceDecl decl => by
    simp only [Stmt.truncate, executeWith]
    rintro m _ rfl
    exact .inr ⟨rfl, rfl⟩

private theorem alike_truncateBlock (hb : deadCode.Bodies early bodyOf bodyOf') :
    ∀ body : List Stmt, deadCode.Alike early (executeBlockWith bodyOf body)
      (executeBlockWith bodyOf' (truncateBlock body))
  | [] => by
    simp only [truncateBlock, executeBlockWith]
    exact alike_pure _
  | s :: more => by
    rw [truncateBlock]
    cases carries : s.alwaysCarries with
    | false =>
      exact alike_executeBlockWith_cons (alike_truncate hb s) (alike_truncateBlock hb more)
    | true =>
      simp only [executeBlockWith]
      intro m m' related
      refine (alike_truncate hb s m m' related).bind fun {carried n n'} hs _ next => ?_
      cases carried with
      | none => exact absurd hs (executeWith_alwaysCarries s carries m n)
      | some v => exact alike_pure _ n n' next

private theorem alike_truncateElse (hb : deadCode.Bodies early bodyOf bodyOf') :
    ∀ body : Option (List Stmt), deadCode.Alike early (executeElseWith bodyOf body)
      (executeElseWith bodyOf' (truncateElse body))
  | none => by
    simp only [truncateElse, executeElseWith]
    exact alike_pure _
  | some body => by
    simp only [truncateElse, executeElseWith]
    exact alike_truncateBlock hb body

end

private theorem sound_deadCode : deadCode.Sound := by
  rintro early bodyOf bodyOf' hb body _ rfl
  exact alike_truncateBlock hb body

private theorem programs_deadCode (p : Program) : deadCode.Programs p p.truncate := by
  intro early bodyOf bodyOf' hb
  simp only [Program.truncate]
  induction p.statements with
  | nil => exact alike_pure ()
  | cons s more ih => exact alike_interpretWith_cons (alike_truncate hb s) ih

end Simulation

/-- A program ends if and only if it does without its dead code, and then in the same way: with
the same error or none, the same output and variables, and functions and classes that are the same
once their dead code is cut off. -/
theorem Program.endsFrom_truncate (p : Program) :
    ((∃ outcome n, p.EndsFrom .initial outcome n) ↔
        ∃ outcome n, p.truncate.EndsFrom .initial outcome n) ∧
      ∀ outcome n outcome' n', p.EndsFrom .initial outcome n →
        p.truncate.EndsFrom .initial outcome' n' →
          outcome' = outcome ∧ n'.printed = n.printed ∧ n'.env.vars = n.env.vars ∧
            n'.env.functions = n.env.functions.map Callable.truncate ∧
            n'.env.classes = n.env.classes.map ClassDecl.truncate := by
  have programs := Simulation.programs_deadCode p
  have related : Simulation.deadCode.machines .initial .initial := rfl
  refine ⟨programs.endsFrom_iff Simulation.sound_deadCode related, ?_⟩
  intro outcome n outcome' n' ends ends'
  obtain ⟨_, alike, rfl⟩ := programs.endsFrom Simulation.sound_deadCode related ends
  obtain ⟨rfl, rfl⟩ := alike.unique ends'
  exact ⟨Stop.mapError_relocate_id outcome, rfl, rfl, rfl, rfl⟩

/-- A function whose body carries a value before it comes to a call of `print`. -/
theorem Program.endsFrom_truncate_of_dead_print :
    let nowhere : Position := ⟨0, 0⟩
    let carrying : Stmt := .expression nowhere (.integer nowhere 1)
    let dead : Stmt :=
      .expression nowhere (.functionCall nowhere "print" [.string nowhere "unseen"])
    let p : Program :=
      ⟨[.function ⟨⟨nowhere, "f", [], ⟨nowhere, .int⟩⟩, [carrying, dead]⟩,
        .expression nowhere (.functionCall nowhere "f" [])]⟩
    let left := (interpret 1 p .initial).2
    let left' := (interpret 1 p.truncate .initial).2
    truncateBlock [carrying, dead] = [carrying] ∧
      p.EndsFrom .initial (.ok ()) left ∧ p.truncate.EndsFrom .initial (.ok ()) left' ∧
      left'.printed = left.printed ∧ left'.env.vars = left.env.vars := by
  intro nowhere carrying dead p left left'
  have ends : p.EndsFrom .initial (.ok ()) left := ⟨1, rfl, nofun⟩
  have ends' : p.truncate.EndsFrom .initial (.ok ()) left' := ⟨1, rfl, nofun⟩
  obtain ⟨-, printed, vars, -⟩ := p.endsFrom_truncate.2 _ _ _ _ ends ends'
  exact ⟨rfl, ends, ends', printed, vars⟩

end ScriptLang
