import ScriptLang.Proofs.Program.Relocation
import ScriptLang.Proofs.Program.WellFormed

/-!
The argument lists of a program, at any depth, and its heads of functions and methods. Each call
has one argument list, so as many calls stand in a program as argument lists.
-/

set_option autoImplicit false
set_option relaxedAutoImplicit false

namespace ScriptLang

mutual

def Expr.argumentLists : Expr → List (List Expr)
  | .integer _ _ | .string _ _ | .template _ _ | .identifier _ _ => []
  | .binary _ _ left right => left.argumentLists ++ right.argumentLists
  | .functionCall _ _ args => args :: innerArgumentLists args
  | .methodCall _ receiver _ args => receiver.argumentLists ++ args :: innerArgumentLists args
  | .fieldAccess _ receiver _ => receiver.argumentLists
  | .creation _ _ args => args :: innerArgumentLists args

def innerArgumentLists : List Expr → List (List Expr)
  | [] => []
  | e :: more => e.argumentLists ++ innerArgumentLists more

end

theorem innerArgumentLists_eq_flatMap (args : List Expr) :
    innerArgumentLists args = args.flatMap Expr.argumentLists := by
  induction args with
  | nil => rfl
  | cons e more ih => rw [innerArgumentLists, ih, List.flatMap_cons]

mutual

def Stmt.argumentLists : Stmt → List (List Expr)
  | .declaration _ _ _ value => value.argumentLists
  | .function routine => routine.argumentLists
  | .conditional _ condition thenBody elseBody =>
    condition.argumentLists ++ (blockArgumentLists thenBody ++ elseArgumentLists elseBody)
  | .classDecl decl => decl.argumentLists
  | .interfaceDecl _ => []
  | .assignment _ target value => target.argumentLists ++ value.argumentLists
  | .expression _ expr => expr.argumentLists

def Routine.argumentLists : Routine → List (List Expr)
  | ⟨_, body⟩ => blockArgumentLists body

def ClassDecl.argumentLists : ClassDecl → List (List Expr)
  | ⟨_, _, _, _, methods⟩ => methodArgumentLists methods

def methodArgumentLists : List Routine → List (List Expr)
  | [] => []
  | m :: more => m.argumentLists ++ methodArgumentLists more

def blockArgumentLists : List Stmt → List (List Expr)
  | [] => []
  | s :: more => s.argumentLists ++ blockArgumentLists more

def elseArgumentLists : Option (List Stmt) → List (List Expr)
  | none => []
  | some body => blockArgumentLists body

end

private theorem blockArgumentLists_eq_flatMap (body : List Stmt) :
    blockArgumentLists body = body.flatMap Stmt.argumentLists := by
  induction body with
  | nil => rfl
  | cons s more ih => rw [blockArgumentLists, ih, List.flatMap_cons]

theorem methodArgumentLists_eq_flatMap (methods : List Routine) :
    methodArgumentLists methods = methods.flatMap Routine.argumentLists := by
  induction methods with
  | nil => rfl
  | cons m more ih => rw [methodArgumentLists, ih, List.flatMap_cons]

mutual

def Stmt.headCount : Stmt → Nat
  | .declaration _ _ _ _ | .assignment _ _ _ | .expression _ _ => 0
  | .function routine => routine.headCount
  | .conditional _ _ thenBody elseBody => blockHeadCount thenBody + elseHeadCount elseBody
  | .classDecl decl => decl.headCount
  | .interfaceDecl decl => decl.methods.length

def Routine.headCount : Routine → Nat
  | ⟨_, body⟩ => 1 + blockHeadCount body

def ClassDecl.headCount : ClassDecl → Nat
  | ⟨_, _, _, _, methods⟩ => methodHeadCount methods

def methodHeadCount : List Routine → Nat
  | [] => 0
  | m :: more => m.headCount + methodHeadCount more

def blockHeadCount : List Stmt → Nat
  | [] => 0
  | s :: more => s.headCount + blockHeadCount more

def elseHeadCount : Option (List Stmt) → Nat
  | none => 0
  | some body => blockHeadCount body

end

section WellFormed

private theorem Expr.args_wellFormed {e : Expr} (h : e.WellFormed) {args : List Expr}
    (found : args ∈ e.argumentLists) : ArgsWellFormed args := by
  have call {outer : List Expr} (known : ArgsWellFormed outer)
      (found : args ∈ outer :: innerArgumentLists outer)
      (ih : ∀ a ∈ outer, a.WellFormed → args ∈ a.argumentLists → ArgsWellFormed args) :
      ArgsWellFormed args := by
    rw [innerArgumentLists_eq_flatMap, List.mem_cons, List.mem_flatMap] at found
    rcases found with rfl | ⟨a, member, inside⟩
    · exact known
    · exact ih a member (argsWellFormed_iff.mp known a member) inside
  induction e with
  | integer | string | template | identifier => cases found
  | binary p operator left right ihLeft ihRight =>
    rcases List.mem_append.mp found with found | found
    · exact ihLeft h.2.1 found
    · exact ihRight h.2.2 found
  | functionCall p name outer ih | creation p name outer ih => exact call h.2 found ih
  | methodCall p receiver method outer ihReceiver ih =>
    rcases List.mem_append.mp found with found | found
    · exact ihReceiver h.1 found
    · exact call h.2.2.2 found ih
  | fieldAccess p receiver field ih => exact ih h.1 found

private theorem args_wellFormed_block {body : List Stmt} (h : BlockWellFormed body)
    {args : List Expr} (found : args ∈ blockArgumentLists body)
    (each : ∀ s ∈ body, s.WellFormed → args ∈ s.argumentLists → ArgsWellFormed args) :
    ArgsWellFormed args := by
  rw [blockArgumentLists_eq_flatMap, List.mem_flatMap] at found
  obtain ⟨s, member, inside⟩ := found
  exact each s member (blockWellFormed_iff.mp h s member) inside

private theorem Stmt.args_wellFormed {s : Stmt} (h : s.WellFormed) {args : List Expr}
    (found : args ∈ s.argumentLists) : ArgsWellFormed args := by
  induction s with
  | declaration p type name value => exact Expr.args_wellFormed h.2.2.2 found
  | function head body ih => exact args_wellFormed_block h.2 found ih
  | conditional p condition thenBody elseBody ihThen ihElse =>
    obtain ⟨condition', then', else'⟩ := h
    rw [Stmt.argumentLists, List.mem_append, List.mem_append] at found
    rcases found with found | found | found
    · exact Expr.args_wellFormed condition' found
    · exact args_wellFormed_block then' found ihThen
    · cases elseBody with
      | none => cases found
      | some body => exact args_wellFormed_block else' found (ihElse body rfl)
  | classDecl p name implements fields methods ih =>
    have all : args ∈ methodArgumentLists methods := found
    rw [methodArgumentLists_eq_flatMap, List.mem_flatMap] at all
    obtain ⟨⟨head, body⟩, member, inside⟩ := all
    have known := methodsWellFormed_iff.mp h.2.2.2 _ member
    exact args_wellFormed_block known.2 inside (ih _ member)
  | interfaceDecl decl => cases found
  | assignment p target value =>
    rcases List.mem_append.mp found with found | found
    · exact Expr.args_wellFormed h.1 found
    · exact Expr.args_wellFormed h.2 found
  | expression p e => exact Expr.args_wellFormed h found

end WellFormed

section Relocation

variable (f : Position → Position)

private theorem innerArgumentLists_relocate {args : List Expr}
    (each : ∀ a ∈ args, (a.relocate f).argumentLists = a.argumentLists.map (relocateArgs f)) :
    innerArgumentLists (relocateArgs f args) = (innerArgumentLists args).map (relocateArgs f) := by
  induction args with
  | nil => rfl
  | cons e more ih =>
    have others := ih fun a found => each a (List.mem_cons_of_mem e found)
    rw [relocateArgs, innerArgumentLists, each e List.mem_cons_self, others, innerArgumentLists,
      List.map_append]

private theorem Expr.argumentLists_relocate (e : Expr) :
    (e.relocate f).argumentLists = e.argumentLists.map (relocateArgs f) := by
  induction e with
  | integer | string | template | identifier => rfl
  | binary p operator left right ihLeft ihRight =>
    rw [Expr.relocate, Expr.argumentLists, ihLeft, ihRight, Expr.argumentLists, List.map_append]
  | functionCall p name args ih | creation p name args ih =>
    rw [Expr.relocate, Expr.argumentLists, innerArgumentLists_relocate f ih, Expr.argumentLists,
      List.map_cons]
  | methodCall p receiver method args ihReceiver ih =>
    rw [Expr.relocate, Expr.argumentLists, ihReceiver, innerArgumentLists_relocate f ih,
      Expr.argumentLists, List.map_append, List.map_cons]
  | fieldAccess p receiver field ih => exact ih

private theorem blockArgumentLists_relocate {body : List Stmt}
    (each : ∀ s ∈ body, (s.relocate f).argumentLists = s.argumentLists.map (relocateArgs f)) :
    blockArgumentLists (relocateBlock f body) =
      (blockArgumentLists body).map (relocateArgs f) := by
  induction body with
  | nil => rfl
  | cons s more ih =>
    have others := ih fun t found => each t (List.mem_cons_of_mem s found)
    rw [relocateBlock, blockArgumentLists, each s List.mem_cons_self, others, blockArgumentLists,
      List.map_append]

private theorem Stmt.argumentLists_relocate (s : Stmt) :
    (s.relocate f).argumentLists = s.argumentLists.map (relocateArgs f) := by
  induction s with
  | declaration p type name value => exact value.argumentLists_relocate f
  | function head body ih => exact blockArgumentLists_relocate f ih
  | conditional p condition thenBody elseBody ihThen ihElse =>
    have other : elseArgumentLists (relocateElse f elseBody) =
        (elseArgumentLists elseBody).map (relocateArgs f) := by
      cases elseBody with
      | none => rfl
      | some body => exact blockArgumentLists_relocate f (ihElse body rfl)
    rw [Stmt.relocate, Stmt.argumentLists, condition.argumentLists_relocate f,
      blockArgumentLists_relocate f ihThen, other, Stmt.argumentLists, List.map_append,
      List.map_append]
  | classDecl p name implements fields methods ih =>
    show methodArgumentLists (relocateMethods f methods) =
      (methodArgumentLists methods).map (relocateArgs f)
    induction methods with
    | nil => rfl
    | cons m more ihMore =>
      obtain ⟨head, body⟩ := m
      have first := blockArgumentLists_relocate f (ih ⟨head, body⟩ List.mem_cons_self)
      have others := ihMore fun n found => ih n (List.mem_cons_of_mem _ found)
      rw [relocateMethods, methodArgumentLists, others, methodArgumentLists, List.map_append]
      exact congrArg (· ++ _) first
  | interfaceDecl decl => rfl
  | assignment p target value =>
    rw [Stmt.relocate, Stmt.argumentLists, target.argumentLists_relocate f,
      value.argumentLists_relocate f, Stmt.argumentLists, List.map_append]
  | expression p e => exact e.argumentLists_relocate f

private theorem blockHeadCount_relocate {body : List Stmt}
    (each : ∀ s ∈ body, (s.relocate f).headCount = s.headCount) :
    blockHeadCount (relocateBlock f body) = blockHeadCount body := by
  induction body with
  | nil => rfl
  | cons s more ih =>
    have others := ih fun t found => each t (List.mem_cons_of_mem s found)
    rw [relocateBlock, blockHeadCount, each s List.mem_cons_self, others, blockHeadCount]

private theorem Stmt.headCount_relocate (s : Stmt) : (s.relocate f).headCount = s.headCount := by
  induction s with
  | declaration | assignment | expression => rfl
  | function head body ih => exact congrArg (1 + ·) (blockHeadCount_relocate f ih)
  | conditional p condition thenBody elseBody ihThen ihElse =>
    have other : elseHeadCount (relocateElse f elseBody) = elseHeadCount elseBody := by
      cases elseBody with
      | none => rfl
      | some body => exact blockHeadCount_relocate f (ihElse body rfl)
    rw [Stmt.relocate, Stmt.headCount, blockHeadCount_relocate f ihThen, other, Stmt.headCount]
  | classDecl p name implements fields methods ih =>
    show methodHeadCount (relocateMethods f methods) = methodHeadCount methods
    induction methods with
    | nil => rfl
    | cons m more ihMore =>
      obtain ⟨head, body⟩ := m
      have first := blockHeadCount_relocate f (ih ⟨head, body⟩ List.mem_cons_self)
      have others := ihMore fun n found => ih n (List.mem_cons_of_mem _ found)
      rw [relocateMethods, methodHeadCount, others, methodHeadCount]
      exact congrArg (1 + · + _) first
  | interfaceDecl decl => exact List.length_map _

end Relocation

namespace Program

def argumentLists (p : Program) : List (List Expr) :=
  blockArgumentLists p.statements

def headCount (p : Program) : Nat :=
  blockHeadCount p.statements

theorem args_wellFormed {p : Program} (h : p.WellFormed) {args : List Expr}
    (found : args ∈ p.argumentLists) : ArgsWellFormed args :=
  args_wellFormed_block h found fun _ _ known inside => Stmt.args_wellFormed known inside

theorem length_argumentLists_unplaced (p : Program) :
    p.unplaced.argumentLists.length = p.argumentLists.length := by
  have same := blockArgumentLists_relocate (fun _ => .first)
    fun s (_ : s ∈ p.statements) => s.argumentLists_relocate _
  rw [relocateBlock_eq_map] at same
  rw [argumentLists, unplaced, relocate, same, List.length_map, argumentLists]

theorem headCount_unplaced (p : Program) : p.unplaced.headCount = p.headCount := by
  have same := blockHeadCount_relocate (fun _ => .first)
    fun s (_ : s ∈ p.statements) => s.headCount_relocate _
  rwa [relocateBlock_eq_map] at same

end Program

end ScriptLang
