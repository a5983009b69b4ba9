import ScriptLang.Proofs.Evaluation.Limit
import ScriptLang.Proofs.Evaluation.Soundness

/-!
Variables that nobody mentions. A call sees all variables of its caller, and frames save them all;
still a variable that is named neither in a program nor in the functions and classes that it finds
has no influence on the run of the program, and the run none on it.
-/

set_option autoImplicit false
set_option relaxedAutoImplicit false

namespace ScriptLang

/-- The variable that a node names: one that it reads, the one in the marker of a template, one
that it declares or assigns. Parameters do not count: what a call binds is gone when it ends, and
while it lasts it is read under its name only. -/
def Node.mentioned? : Node → Option String
  | expression (.identifier _ name) => some name
  | expression (.template _ text) =>
    (Text.splitAtMarker text.toList).map fun (_, name, _) => String.ofList name
  | statement (.declaration _ _ name _) => some name
  | _ => none

def Environment.eraseVariable (env : Environment) (name : String) : Environment :=
  { env with vars := env.vars.erase name }

private theorem blockTargets_eq_flatMap (body : List Stmt) :
    blockTargets body = body.flatMap Stmt.targets := by
  induction body with
  | nil => rfl
  | cons s more ih => rw [blockTargets, ih, List.flatMap_cons]

private theorem Stmt.exists_node_of_mem_targets {s : Stmt} {name : String} (h : name ∈ s.targets) :
    ∃ x ∈ s.nodes, x.mentioned? = some name := by
  have block {body : List Stmt}
      (ih : ∀ s ∈ body, name ∈ s.targets → ∃ x ∈ s.nodes, x.mentioned? = some name)
      (found : name ∈ blockTargets body) : ∃ x ∈ blockNodes body, x.mentioned? = some name := by
    rw [blockTargets_eq_flatMap] at found
    obtain ⟨s, among, own⟩ := List.mem_flatMap.mp found
    obtain ⟨x, there, named⟩ := ih s among own
    rw [blockNodes_eq_flatMap]
    exact ⟨x, List.mem_flatMap_of_mem among there, named⟩
  induction s with
  | declaration p type own value =>
    obtain rfl := List.mem_singleton.mp h
    exact ⟨_, Stmt.mem_nodes _, rfl⟩
  | conditional p condition thenBody elseBody ihThen ihElse =>
    rcases List.mem_append.mp h with here | later
    · obtain ⟨x, there, named⟩ := block ihThen here
      exact ⟨x, by simp [Stmt.nodes, there], named⟩
    · cases elseBody with
      | none => cases later
      | some body =>
        obtain ⟨x, there, named⟩ := block (ihElse body rfl) later
        exact ⟨x, by simp [Stmt.nodes, elseNodes, there], named⟩
  | assignment p target value =>
    cases target with
    | identifier q own =>
      obtain rfl := List.mem_singleton.mp h
      exact ⟨.expression (.identifier q name), by simp [Stmt.nodes, Expr.nodes], rfl⟩
    | _ => cases h
  | _ => cases h

private theorem interpolate_congr {vars vars' : Table Value} {text : String}
    (same : ∀ before name after, Text.splitAtMarker text.toList = some (before, name, after) →
      vars'.get? (String.ofList name) = vars.get? (String.ofList name)) :
    interpolate vars' text = interpolate vars text := by
  unfold interpolate
  split
  · rfl
  · rename_i before name after found
    rw [same before name after found]

/-- That two machines differ at most in the value of one variable, in what was saved and in their
records, and that the code that they hold does not name the variable. -/
structure Machine.AlikeBut (name : String) (m m' : Machine) : Prop where
  vars : m'.env.vars.erase name = m.env.vars.erase name
  functions : m'.env.functions = m.env.functions
  classes : m'.env.classes = m.env.classes
  interfaces : m'.env.interfaces = m.env.interfaces
  printed : m'.printed = m.printed
  silent : m.env.Holds fun x => x.mentioned? ≠ some name

namespace Machine.AlikeBut

variable {name : String} {m m' n n' : Machine}

private theorem get? (h : AlikeBut name m m') {other : String} (apart : other ≠ name) :
    m'.env.vars.get? other = m.env.vars.get? other := by
  have same := congrArg (Table.get? · other) h.vars
  simpa only [Table.get?_erase, if_neg apart] using same

private theorem defineVariable (h : AlikeBut name m m') (other : String) (v : Value) :
    AlikeBut name { m with env := m.env.defineVariable other v }
      { m' with env := m'.env.defineVariable other v } where
  vars := by simp only [Environment.defineVariable, Table.erase_insert, h.vars]
  functions := h.functions
  classes := h.classes
  interfaces := h.interfaces
  printed := h.printed
  silent := ⟨h.silent.functions, h.silent.classes⟩

private theorem defineFunction (h : AlikeBut name m m') (other : String) {f : Callable}
    (silent : ∀ x ∈ blockNodes f.body, x.mentioned? ≠ some name) :
    AlikeBut name { m with env := m.env.defineFunction other f }
      { m' with env := m'.env.defineFunction other f } where
  vars := h.vars
  functions := by simp only [Environment.defineFunction, h.functions]
  classes := h.classes
  interfaces := h.interfaces
  printed := h.printed
  silent := ⟨h.silent.functions.insert silent, h.silent.classes⟩

private theorem defineClass (h : AlikeBut name m m') (other : String) {decl : ClassDecl}
    (silent : ∀ x ∈ decl.nodes, x.mentioned? ≠ some name) :
    AlikeBut name { m with env := m.env.defineClass other decl }
      { m' with env := m'.env.defineClass other decl } where
  vars := h.vars
  functions := h.functions
  classes := by simp only [Environment.defineClass, h.classes]
  interfaces := h.interfaces
  printed := h.printed
  silent := ⟨h.silent.functions, h.silent.classes.insert silent⟩

private theorem defineInterface (h : AlikeBut name m m') (other : String) (decl : InterfaceDecl) :
    AlikeBut name { m with env := m.env.defineInterface other decl }
      { m' with env := m'.env.defineInterface other decl } where
  vars := h.vars
  functions := h.functions
  classes := h.classes
  interfaces := by simp only [Environment.defineInterface, h.interfaces]
  printed := h.printed
  silent := ⟨h.silent.functions, h.silent.classes⟩

private theorem record (h : AlikeBut name m m') (e e' : Event) :
    AlikeBut name (m.record e) (m'.record e') :=
  { h with }

private theorem pushFrame (h : AlikeBut name m m') : AlikeBut name m.pushFrame m'.pushFrame where
  vars := h.vars
  functions := h.functions
  classes := h.classes
  interfaces := h.interfaces
  printed := h.printed
  silent := ⟨h.silent.functions, h.silent.classes⟩

private theorem restore (opened : AlikeBut name m m') (reached : AlikeBut name n n') :
    AlikeBut name (m.restore n) (m'.restore n') where
  vars := opened.vars
  functions := reached.functions
  classes := reached.classes
  interfaces := reached.interfaces
  printed := reached.printed
  silent := ⟨reached.silent.functions, reached.silent.classes⟩

private theorem printLine (h : AlikeBut name m m') (text : String) :
    AlikeBut name { m with printed := m.printed ++ text ++ "\n" }
      { m' with printed := m'.printed ++ text ++ "\n" } where
  vars := h.vars
  functions := h.functions
  classes := h.classes
  interfaces := h.interfaces
  printed := by simp only [h.printed]
  silent := h.silent

end Machine.AlikeBut

open Evaluation Machine

namespace Simulation

/-- Two runs of code that does not name a variable, from machines that differ in it. -/
def unmentioned (name : String) : Simulation where
  machines := AlikeBut name
  bodies body body' := body' = body ∧ ∀ x ∈ blockNodes body, x.mentioned? ≠ some name
  place := id
  expr := id
  admits x := x.mentioned? ≠ some name
  disguise := .id
  identifier related other := related.get? fun same => other (congrArg some same)
  template {m m' p text} related other := by
    refine interpolate_congr fun before inner after found => related.get? fun same => other ?_
    simp only [Node.mentioned?, found, Option.map_some, same]
  function {m m' called} related _ := by
    rw [related.functions]
    cases found : m.env.functions.get? called with
    | none => exact .none
    | some f => exact .some ⟨rfl, rfl, rfl, related.silent.functions.get? found⟩
  classDecl {m m'} called related := by
    rw [related.classes]
    cases found : m.env.classes.get? called with
    | none => exact .none
    | some decl =>
      refine .some ⟨rfl, fun method => ?_⟩
      cases named : decl.methods.find? (·.signature.name = method) with
      | none => exact .none
      | some routine => exact .some ⟨rfl, rfl, rfl, related.silent.method found named⟩
  define other v related := related.defineVariable other v
  print text related := related.printLine text
  callFunction _ related := related.record _ _
  callMethod _ _ related := related.record _ _
  push related := related.pushFrame
  restore opened reached := opened.restore reached

private theorem rewording_unmentioned (name : String) :
    (unmentioned name).Rewording (fun _ => true) id where
  declaration p type own value := ⟨type, rfl, rfl⟩
  expression _ _ := rfl
  assignment _ _ _ := rfl
  conditional p condition thenBody elseBody := by
    simp [reword_all, unmentioned, funext (reword_all id)]
  function := by
    rintro early bodyOf bodyOf' ⟨head, body⟩ silent
    simp only [id_eq, executeWith]
    exact alike_definition fun related => (related.record _ _).defineFunction head.name silent
  classDecl := by
    intro early bodyOf bodyOf' decl silent
    simp only [id_eq, executeWith]
    exact alike_definition fun related => (related.record _ _).defineClass decl.name silent
  interfaceDecl := by
    intro early bodyOf bodyOf' decl _
    simp only [id_eq, executeWith]
    exact alike_definition fun related => (related.record _ _).defineInterface decl.name decl
  dropped _ _ _ _ drop := absurd rfl drop

private theorem sound_unmentioned (name : String) : (unmentioned name).Sound :=
  (rewording_unmentioned name).sound fun body _ same =>
    ⟨by rw [reword_all, List.map_id, same.1], same.2⟩

private theorem programs_unmentioned {name : String} {p : Program}
    (silent : ∀ x ∈ p.nodes, x.mentioned? ≠ some name) : (unmentioned name).Programs p p := by
  have programs := (rewording_unmentioned name).programs silent
  rwa [reword_all, List.map_id] at programs

end Simulation

/-- A program that does not name a variable leaves it as it was. -/
theorem Program.EndsFrom.get?_of_unmentioned {p : Program} {m n : Machine}
    {outcome : Except Stop Unit} (h : p.EndsFrom m outcome n) {name : String}
    (silent : ∀ x ∈ p.nodes, x.mentioned? ≠ some name) :
    n.env.vars.get? name = m.env.vars.get? name := by
  obtain ⟨limit, run, -⟩ := h
  have changes := leaves_interpret limit p m
  rw [run] at changes
  refine changes.vars name fun target => ?_
  obtain ⟨s, among, own⟩ : ∃ s ∈ p.statements, name ∈ s.targets := by
    rwa [blockTargets_eq_flatMap, List.mem_flatMap] at target
  obtain ⟨x, there, named⟩ := Stmt.exists_node_of_mem_targets own
  refine silent x ?_ named
  rw [Program.nodes, blockNodes_eq_flatMap]
  exact List.mem_flatMap_of_mem among there

/-- A variable that neither a program nor the functions and classes of the environment mention has
no influence: with and without it the program ends or does not end, ends with the same error or
none, prints the same and leaves the same functions, classes, interfaces and other variables. The
variable keeps its value, or stays unbound. -/
theorem Program.endsFrom_unmentioned (p : Program) (m : Machine) (name : String) (v : Value)
    (program : ∀ x ∈ p.nodes, x.mentioned? ≠ some name)
    (stored : m.env.Holds fun x => x.mentioned? ≠ some name) :
    let unbound : Machine := { m with env := m.env.eraseVariable name }
    let bound : Machine := { m with env := m.env.defineVariable name v }
    ((∃ outcome n, p.EndsFrom unbound outcome n) ↔ ∃ outcome n, p.EndsFrom bound outcome n) ∧
      ∀ outcome n outcome' n', p.EndsFrom unbound outcome n → p.EndsFrom bound outcome' n' →
        outcome' = outcome ∧ n'.printed = n.printed ∧ n'.env.functions = n.env.functions ∧
          n'.env.classes = n.env.classes ∧ n'.env.interfaces = n.env.interfaces ∧
          n'.env.vars.erase name = n.env.vars ∧ n.env.vars.get? name = none ∧
          n'.env.vars.get? name = some v := by
  intro unbound bound
  have related : (Simulation.unmentioned name).machines unbound bound :=
    { vars := by
        simp only [unbound, bound, Environment.eraseVariable, Environment.defineVariable,
          Table.erase_insert, Table.erase_erase, if_true]
      functions := rfl
      classes := rfl
      interfaces := rfl
      printed := rfl
      silent := ⟨stored.functions, stored.classes⟩ }
  have programs := Simulation.programs_unmentioned program
  have sound := Simulation.sound_unmentioned name
  refine ⟨programs.endsFrom_iff sound related, fun outcome n outcome' n' ends ends' => ?_⟩
  obtain ⟨same, reached⟩ := programs.ends_alike sound related ends ends'
  have without : n.env.vars.get? name = none := by
    rw [ends.get?_of_unmentioned program]
    simp [unbound, Environment.eraseVariable, Table.get?_erase]
  have kept : n'.env.vars.get? name = some v := by
    rw [ends'.get?_of_unmentioned program]
    simp [bound, Environment.defineVariable, Table.get?_insert]
  have others : n'.env.vars.erase name = n.env.vars := by
    rw [reached.vars, Table.erase_eq_self without]
  exact ⟨same.trans (Stop.mapError_relocate_id outcome), reached.printed, reached.functions,
    reached.classes, reached.interfaces, others, without, kept⟩

/-- A call of a stored function that shows its parameter, beside a variable of the caller. -/
theorem Program.endsFrom_unmentioned_of_stored_show :
    let nowhere : Position := ⟨0, 0⟩
    let shown : Stmt := .expression nowhere
      (.functionCall nowhere "print" [.template nowhere "n = #\x7bn\x7d"])
    let f : Callable := ⟨[⟨nowhere, "n", ⟨nowhere, .int⟩⟩], ⟨nowhere, .int⟩, [shown], false⟩
    let m : Machine :=
      { Machine.initial with env := Environment.initial.defineFunction "show" f }
    let p : Program :=
      ⟨[.expression nowhere (.functionCall nowhere "show" [.integer nowhere 2])]⟩
    let v : Value := .string "kept"
    let unbound : Machine := { m with env := m.env.eraseVariable "x" }
    let bound : Machine := { m with env := m.env.defineVariable "x" v }
    let left := (interpret 1 p unbound).2
    let left' := (interpret 1 p bound).2
    (∀ x ∈ p.nodes, x.mentioned? ≠ some "x") ∧ (m.env.Holds fun x => x.mentioned? ≠ some "x") ∧
      p.EndsFrom unbound (.ok ()) left ∧ p.EndsFrom bound (.ok ()) left' ∧
      left'.printed = left.printed ∧ left'.env.vars.get? "x" = some v := by
  intro nowhere shown f m p v unbound bound left left'
  have program : ∀ x ∈ p.nodes, x.mentioned? ≠ some "x" := by decide
  have body : ∀ x ∈ blockNodes f.body, x.mentioned? ≠ some "x" := by decide
  have stored : m.env.Holds fun x => x.mentioned? ≠ some "x" :=
    ⟨(Table.every_empty.insert nofun).insert body, Table.every_empty⟩
  have ends : p.EndsFrom unbound (.ok ()) left := ⟨1, rfl, nofun⟩
  have ends' : p.EndsFrom bound (.ok ()) left' := ⟨1, rfl, nofun⟩
  obtain ⟨-, printed, -, -, -, -, -, kept⟩ :=
    (p.endsFrom_unmentioned m "x" v program stored).2 _ _ _ _ ends ends'
  exact ⟨program, stored, ends, ends', printed, kept⟩

end ScriptLang
