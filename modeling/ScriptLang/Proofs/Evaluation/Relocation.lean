import ScriptLang.Proofs.Evaluation.Limit
import ScriptLang.Proofs.Program.Relocation
import ScriptLang.Proofs.Table

/-!
Places in programs. An evaluation never looks at the place of a node: a program whose places are
moved runs as before, leaves the same functions, classes and interfaces with their places moved,
and if it fails, then with the same error at the moved place.
-/

set_option autoImplicit false
set_option relaxedAutoImplicit false

namespace ScriptLang

section Moved

variable (f : Position → Position)

/-- A function value with the places in its head and body moved. The head of a built-in function
stands nowhere in a source. -/
def Callable.relocate (c : Callable) : Callable where
  params := if c.builtin then c.params else c.params.map (Param.relocate f)
  returns := if c.builtin then c.returns else c.returns.relocate f
  body := relocateBlock f c.body
  builtin := c.builtin

def Machine.relocate (m : Machine) : Machine :=
  { m with env := { m.env with
      functions := m.env.functions.map (Callable.relocate f)
      classes := m.env.classes.map (ClassDecl.relocate f)
      interfaces := m.env.interfaces.map (InterfaceDecl.relocate f) } }

private theorem Machine.relocate_initial : Machine.initial.relocate f = .initial := rfl

private theorem disguise_relocate : Disguise f (Expr.relocate f) where
  integer _ _ := rfl
  string _ _ := rfl
  template _ _ := rfl
  identifier _ _ := rfl
  binary _ _ _ _ := rfl
  functionCall p name args := by rw [Expr.relocate, relocateArgs_eq_map]
  methodCall p receiver method args := by rw [Expr.relocate, relocateArgs_eq_map]
  fieldAccess _ _ _ := rfl
  creation p className args := ⟨_, rfl⟩

section Like

variable {bodies : List Stmt → List Stmt → Prop}

private theorem Callable.like_relocate {c : Callable}
    (body : bodies c.body (relocateBlock f c.body)) : c.Like bodies (c.relocate f) where
  params := by
    unfold relocate
    split
    · rfl
    · rw [List.map_map]
      rfl
  returns := by
    unfold relocate
    split <;> rfl
  body := body

private theorem Routine.like_relocate {r : Routine}
    (body : bodies r.body (relocateBlock f r.body)) : r.Like bodies (r.relocate f) where
  params := by
    rw [signature_relocate, Signature.relocate, List.map_map]
    rfl
  returns := by rw [signature_relocate]; rfl
  body := by rwa [body_relocate]

private theorem ClassDecl.like_relocate {d : ClassDecl}
    (body : ∀ statements, bodies statements (relocateBlock f statements)) :
    d.Like bodies (d.relocate f) := by
  refine ClassDecl.like_of_map (g := Routine.relocate f) ?_ ?_ ?_ ?_
  · rw [relocate_eq, List.map_map]
    rfl
  · rw [relocate_eq]
  · intro r
    rw [Routine.signature_relocate]
    rfl
  · exact fun r => Routine.like_relocate f (body r.body)

end Like

end Moved

open Evaluation Machine

namespace Simulation

/-- A run of a program beside one of the program with every place moved. -/
def moved (f : Position → Position) : Simulation where
  machines m m' := m' = m.relocate f
  bodies body body' := body' = relocateBlock f body
  place := f
  expr := Expr.relocate f
  admits _ := True
  disguise := disguise_relocate f
  identifier := by rintro m _ p name rfl -; rfl
  template := by rintro m _ p text rfl -; rfl
  function := by
    rintro m _ name rfl -
    simp only [Machine.relocate, Table.get?_map]
    exact rel_map (fun c => c.like_relocate f rfl) _
  classDecl := by
    rintro m _ name rfl
    simp only [Machine.relocate, Table.get?_map]
    exact rel_map (fun d => d.like_relocate f fun _ => rfl) _
  define := by rintro m _ name v rfl; rfl
  print := by rintro m _ text rfl; rfl
  callFunction := by rintro m _ name rfl; rfl
  callMethod := by rintro m _ className name rfl; rfl
  push := by rintro m _ rfl; rfl
  restore := by rintro m _ n _ rfl rfl; rfl

private theorem rewording_moved (f : Position → Position) :
    (moved f).Rewording (fun _ => true) (Stmt.relocate f) where
  declaration p type name value := ⟨type.relocate f, rfl, rfl⟩
  expression _ _ := rfl
  assignment _ _ _ := rfl
  conditional p condition thenBody elseBody := by
    rw [Stmt.relocate, relocateElse_eq_map, reword_all, relocateBlock_eq_map,
      funext (reword_all (Stmt.relocate f)), funext (relocateBlock_eq_map f)]
    rfl
  function := by
    rintro early bodyOf bodyOf' ⟨head, body⟩ -
    simp only [Stmt.relocate, Routine.relocate, executeWith]
    refine alike_definition ?_
    rintro m _ rfl
    simp only [moved, Machine.relocate, Environment.defineFunction, Table.map_insert]
    rfl
  classDecl := by
    rintro early bodyOf bodyOf' decl -
    simp only [Stmt.relocate, executeWith]
    refine alike_definition ?_
    rintro m _ rfl
    simp only [moved, Machine.relocate, Environment.defineClass, Table.map_insert]
    rw [ClassDecl.relocate_eq]
    rfl
  interfaceDecl := by
    rintro early bodyOf bodyOf' decl -
    simp only [Stmt.relocate, executeWith]
    refine alike_definition ?_
    rintro m _ rfl
    simp only [moved, Machine.relocate, Environment.defineInterface, Table.map_insert]
    rfl
  dropped _ _ _ _ drop := absurd rfl drop

private theorem sound_moved (f : Position → Position) : (moved f).Sound :=
  (rewording_moved f).sound fun body _ same =>
    ⟨by rw [reword_all, same, relocateBlock_eq_map], fun _ _ => trivial⟩

private theorem programs_moved (f : Position → Position) (p : Program) :
    (moved f).Programs p (p.relocate f) := by
  have programs := (rewording_moved f).programs (p := p) fun _ _ => trivial
  rwa [reword_all] at programs

end Simulation

/-- A program with its places moved ends if and only if the program does. Then both print the same,
record the same and leave the same variables; the functions, classes and interfaces that they leave
are the same with their places moved, and so is the error, if they end with one. -/
theorem Program.endsFrom_relocate (f : Position → Position) (p : Program) :
    ((∃ outcome n, p.EndsFrom .initial outcome n) ↔
        ∃ outcome n, (p.relocate f).EndsFrom .initial outcome n) ∧
      ∀ outcome n outcome' n', p.EndsFrom .initial outcome n →
        (p.relocate f).EndsFrom .initial outcome' n' →
          outcome' = outcome.mapError (Stop.relocate f) ∧ n'.printed = n.printed ∧
            n'.trace = n.trace ∧ n'.env.vars = n.env.vars ∧
            n'.env.functions = n.env.functions.map (Callable.relocate f) ∧
            n'.env.classes = n.env.classes.map (ClassDecl.relocate f) ∧
            n'.env.interfaces = n.env.interfaces.map (InterfaceDecl.relocate f) := by
  have programs := Simulation.programs_moved f p
  have sound := Simulation.sound_moved f
  have related : (Simulation.moved f).machines .initial .initial := (relocate_initial f).symm
  refine ⟨programs.endsFrom_iff sound related, fun outcome n outcome' n' ends ends' => ?_⟩
  obtain ⟨same, rfl⟩ := programs.ends_alike sound related ends ends'
  exact ⟨same, rfl, rfl, rfl, rfl, rfl, rfl⟩

/-- A method that fails after it has printed; its places are moved down by ten lines. -/
theorem Program.endsFrom_relocate_of_failing_method :
    let place : Nat → Position := fun line => ⟨line, 1⟩
    let down : Position → Position := fun q => ⟨q.line + 10, q.column⟩
    let method : Routine := ⟨⟨place 2, "m", [], ⟨place 2, .int⟩⟩,
      [.declaration (place 3) ⟨place 3, .string⟩ "text"
          (.functionCall (place 3) "print" [.string (place 3) "seen"]),
        .expression (place 4) (.identifier (place 4) "lost")]⟩
    let p : Program :=
      ⟨[.classDecl ⟨place 1, "C", none, [], [method]⟩,
        .expression (place 5) (.methodCall (place 5) (.creation (place 5) "C" []) "m" [])]⟩
    let left := (interpret 1 p .initial).2
    let left' := (interpret 1 (p.relocate down) .initial).2
    p.EndsFrom .initial (.error (.error ⟨.undefinedVariable "lost", place 4⟩)) left ∧
      (p.relocate down).EndsFrom .initial (.error (.error ⟨.undefinedVariable "lost", place 14⟩))
        left' ∧ left'.printed = "seen\n" ∧ left'.trace = left.trace := by
  intro place down method p left left'
  have ends : p.EndsFrom .initial (.error (.error ⟨.undefinedVariable "lost", place 4⟩)) left :=
    ⟨1, rfl, nofun⟩
  have ends' : (p.relocate down).EndsFrom .initial
      (.error (.error ⟨.undefinedVariable "lost", place 14⟩)) left' := ⟨1, rfl, nofun⟩
  obtain ⟨-, printed, trace, -⟩ := (p.endsFrom_relocate down).2 _ _ _ _ ends ends'
  exact ⟨ends, ends', printed.trans rfl, trace⟩

end ScriptLang
