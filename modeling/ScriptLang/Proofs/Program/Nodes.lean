import Mathlib.Data.List.Basic
import ScriptLang.Program
import ScriptLang.Proofs.Program.Relocation
import ScriptLang.Proofs.Program.WellFormed

/-!
The nodes of a program, its expressions and statements at any depth, and the parts of them that
carry a place.
-/

set_option autoImplicit false
set_option relaxedAutoImplicit false

namespace ScriptLang

/-! ## Nodes

The nodes that a program is made of: its expressions and statements, at any depth and also inside
the bodies of functions and methods. A law about every node of a program speaks of these lists.
-/

inductive Node where
  | expression (e : Expr)
  | statement (s : Stmt)

def Node.position : Node → Position
  | expression e => e.position
  | statement s => s.position

mutual

def Expr.nodes : Expr → List Node
  | .integer p value => [.expression (.integer p value)]
  | .string p text => [.expression (.string p text)]
  | .template p text => [.expression (.template p text)]
  | .identifier p name => [.expression (.identifier p name)]
  | .binary p operator left right =>
    .expression (.binary p operator left right) :: (left.nodes ++ right.nodes)
  | .functionCall p name args => .expression (.functionCall p name args) :: argNodes args
  | .methodCall p receiver method args =>
    .expression (.methodCall p receiver method args) :: (receiver.nodes ++ argNodes args)
  | .fieldAccess p receiver field => .expression (.fieldAccess p receiver field) :: receiver.nodes
  | .creation p className args => .expression (.creation p className args) :: argNodes args

def argNodes : List Expr → List Node
  | [] => []
  | e :: more => e.nodes ++ argNodes more

end

mutual

/-- A statement and the nodes in it, those of the bodies that it defines included. -/
def Stmt.nodes : Stmt → List Node
  | .declaration p type name value => .statement (.declaration p type name value) :: value.nodes
  | .function routine => .statement (.function routine) :: routine.nodes
  | .conditional p condition thenBody elseBody =>
    .statement (.conditional p condition thenBody elseBody) ::
      (condition.nodes ++ (blockNodes thenBody ++ elseNodes elseBody))
  | .classDecl decl => .statement (.classDecl decl) :: decl.nodes
  | .interfaceDecl decl => [.statement (.interfaceDecl decl)]
  | .assignment p target value =>
    .statement (.assignment p target value) :: (target.nodes ++ value.nodes)
  | .expression p expr => .statement (.expression p expr) :: expr.nodes

def Routine.nodes : Routine → List Node
  | ⟨_, body⟩ => blockNodes body

def ClassDecl.nodes : ClassDecl → List Node
  | ⟨_, _, _, _, methods⟩ => methodNodes methods

def methodNodes : List Routine → List Node
  | [] => []
  | m :: more => m.nodes ++ methodNodes more

def blockNodes : List Stmt → List Node
  | [] => []
  | s :: more => s.nodes ++ blockNodes more

def elseNodes : Option (List Stmt) → List Node
  | none => []
  | some body => blockNodes body

end

theorem Expr.mem_nodes (e : Expr) : .expression e ∈ e.nodes := by
  cases e <;> simp [Expr.nodes]

theorem Stmt.mem_nodes (s : Stmt) : .statement s ∈ s.nodes := by
  cases s <;> simp [Stmt.nodes]

theorem Expr.length_nodes_pos (e : Expr) : 0 < e.nodes.length :=
  List.length_pos_of_mem e.mem_nodes

theorem Stmt.length_nodes_pos (s : Stmt) : 0 < s.nodes.length :=
  List.length_pos_of_mem s.mem_nodes

theorem Routine.nodes_eq (m : Routine) : m.nodes = blockNodes m.body := by
  cases m
  rfl

theorem ClassDecl.nodes_eq (d : ClassDecl) : d.nodes = methodNodes d.methods := by
  cases d
  rfl

private theorem argNodes_eq_flatMap (args : List Expr) :
    argNodes args = args.flatMap Expr.nodes := by
  induction args with
  | nil => rfl
  | cons e more ih => rw [argNodes, ih, List.flatMap_cons]

theorem blockNodes_eq_flatMap (body : List Stmt) : blockNodes body = body.flatMap Stmt.nodes := by
  induction body with
  | nil => rfl
  | cons s more ih => rw [blockNodes, ih, List.flatMap_cons]

private theorem methodNodes_eq_flatMap (methods : List Routine) :
    methodNodes methods = methods.flatMap Routine.nodes := by
  induction methods with
  | nil => rfl
  | cons m more ih => rw [methodNodes, ih, List.flatMap_cons]

theorem ClassDecl.blockNodes_subset {d : ClassDecl} {m : Routine} (h : m ∈ d.methods) :
    blockNodes m.body ⊆ d.nodes := by
  intro x there
  rw [d.nodes_eq, methodNodes_eq_flatMap, List.mem_flatMap]
  exact ⟨m, h, m.nodes_eq ▸ there⟩

def Program.nodes (p : Program) : List Node :=
  blockNodes p.statements

def Node.relocate (f : Position → Position) : Node → Node
  | expression e => expression (e.relocate f)
  | statement s => statement (s.relocate f)

section Relocate

variable (f : Position → Position)

@[simp] theorem Stmt.position_relocate (s : Stmt) : (s.relocate f).position = f s.position := by
  rcases s with _ | ⟨⟨_, _⟩⟩ | _ | ⟨⟨_, _, _, _, _⟩⟩ | _ | _ | _ <;> rfl

theorem Node.position_relocate (x : Node) : (x.relocate f).position = f x.position := by
  cases x with
  | expression e => exact e.position_relocate f
  | statement s => exact s.position_relocate f

private theorem Expr.nodes_relocate (e : Expr) :
    (e.relocate f).nodes = e.nodes.map (Node.relocate f) := by
  have args {as : List Expr} (ih : ∀ a ∈ as, (a.relocate f).nodes = a.nodes.map (Node.relocate f)) :
      argNodes (relocateArgs f as) = (argNodes as).map (Node.relocate f) := by
    rw [argNodes_eq_flatMap, argNodes_eq_flatMap, relocateArgs_eq_map, List.flatMap_map,
      List.map_flatMap]
    exact List.flatMap_congr ih
  induction e with
  | binary p operator left right ihLeft ihRight =>
    simp only [Expr.relocate, Expr.nodes, ihLeft, ihRight, List.map_cons, List.map_append,
      Node.relocate]
  | functionCall p name as ih | creation p name as ih =>
    simp only [Expr.relocate, Expr.nodes, args ih, List.map_cons, Node.relocate]
  | methodCall p receiver method as ihReceiver ih =>
    simp only [Expr.relocate, Expr.nodes, ihReceiver, args ih, List.map_cons, List.map_append,
      Node.relocate]
  | fieldAccess p receiver field ih =>
    simp only [Expr.relocate, Expr.nodes, ih, List.map_cons, Node.relocate]
  | _ => rfl

private theorem blockNodes_relocateBlock {body : List Stmt}
    (h : ∀ s ∈ body, (s.relocate f).nodes = s.nodes.map (Node.relocate f)) :
    blockNodes (relocateBlock f body) = (blockNodes body).map (Node.relocate f) := by
  rw [blockNodes_eq_flatMap, blockNodes_eq_flatMap, relocateBlock_eq_map, List.flatMap_map,
    List.map_flatMap]
  exact List.flatMap_congr h

private theorem Stmt.nodes_relocate (s : Stmt) :
    (s.relocate f).nodes = s.nodes.map (Node.relocate f) := by
  have methods {ms : List Routine}
      (ih : ∀ m ∈ ms, ∀ s ∈ m.body, (s.relocate f).nodes = s.nodes.map (Node.relocate f)) :
      methodNodes (relocateMethods f ms) = (methodNodes ms).map (Node.relocate f) := by
    induction ms with
    | nil => rfl
    | cons m more rest =>
      obtain ⟨head, body⟩ := m
      obtain ⟨here, there⟩ := List.forall_mem_cons.mp ih
      simp only [relocateMethods, methodNodes, Routine.relocate, Routine.nodes,
        blockNodes_relocateBlock f here, rest there, List.map_append]
  induction s with
  | function head body ih =>
    simp only [Stmt.relocate, Routine.relocate, Stmt.nodes, Routine.nodes,
      blockNodes_relocateBlock f ih, List.map_cons, Node.relocate]
  | conditional p condition thenBody elseBody ihThen ihElse =>
    have branch : elseNodes (relocateElse f elseBody) =
        (elseNodes elseBody).map (Node.relocate f) := by
      cases elseBody with
      | none => rfl
      | some body => exact blockNodes_relocateBlock f (ihElse body rfl)
    simp only [Stmt.relocate, Stmt.nodes, Expr.nodes_relocate, blockNodes_relocateBlock f ihThen,
      branch, List.map_cons, List.map_append, Node.relocate]
  | classDecl p name implements fields ms ih =>
    simp only [Stmt.relocate, ClassDecl.relocate, Stmt.nodes, ClassDecl.nodes, methods ih,
      List.map_cons, Node.relocate]
  | interfaceDecl decl => rfl
  | declaration | assignment | expression =>
    simp only [Stmt.relocate, Stmt.nodes, Expr.nodes_relocate, List.map_cons, List.map_append,
      Node.relocate]

theorem Program.nodes_relocate (p : Program) :
    (p.relocate f).nodes = p.nodes.map (Node.relocate f) := by
  have moved := blockNodes_relocateBlock f fun s (_ : s ∈ p.statements) => s.nodes_relocate f
  rwa [relocateBlock_eq_map] at moved

end Relocate

def Node.WellFormed : Node → Prop
  | expression e => e.WellFormed
  | statement s => s.WellFormed

private theorem Expr.WellFormed.nodes {e : Expr} (h : e.WellFormed) :
    ∀ x ∈ e.nodes, x.WellFormed := by
  have args {as : List Expr} (ih : ∀ a ∈ as, a.WellFormed → ∀ x ∈ a.nodes, x.WellFormed)
      (h : ArgsWellFormed as) : ∀ x ∈ argNodes as, x.WellFormed := by
    intro x there
    rw [argNodes_eq_flatMap] at there
    obtain ⟨a, among, within⟩ := List.mem_flatMap.mp there
    exact ih a among (argsWellFormed_iff.mp h a among) x within
  induction e with
  | binary p operator left right ihLeft ihRight =>
    obtain ⟨-, hLeft, hRight⟩ := id h
    exact List.forall_mem_cons.mpr
      ⟨h, List.forall_mem_append.mpr ⟨ihLeft hLeft, ihRight hRight⟩⟩
  | functionCall p name as ih | creation p name as ih =>
    exact List.forall_mem_cons.mpr ⟨h, args ih h.2⟩
  | methodCall p receiver method as ihReceiver ih =>
    obtain ⟨hReceiver, -, -, hArgs⟩ := id h
    exact List.forall_mem_cons.mpr
      ⟨h, List.forall_mem_append.mpr ⟨ihReceiver hReceiver, args ih hArgs⟩⟩
  | fieldAccess p receiver field ih => exact List.forall_mem_cons.mpr ⟨h, ih h.1⟩
  | _ => exact List.forall_mem_singleton.mpr h

private theorem wellFormed_of_mem_blockNodes {body : List Stmt}
    (ih : ∀ s ∈ body, s.WellFormed → ∀ x ∈ s.nodes, x.WellFormed) (h : BlockWellFormed body) :
    ∀ x ∈ blockNodes body, x.WellFormed := by
  intro x there
  rw [blockNodes_eq_flatMap] at there
  obtain ⟨s, among, within⟩ := List.mem_flatMap.mp there
  exact ih s among (blockWellFormed_iff.mp h s among) x within

private theorem Stmt.WellFormed.nodes {s : Stmt} (h : s.WellFormed) :
    ∀ x ∈ s.nodes, x.WellFormed := by
  induction s with
  | declaration p type name value =>
    obtain ⟨-, -, -, hValue⟩ := id h
    exact List.forall_mem_cons.mpr ⟨h, hValue.nodes⟩
  | function head body ih =>
    obtain ⟨-, hBody⟩ := id h
    exact List.forall_mem_cons.mpr ⟨h, wellFormed_of_mem_blockNodes ih hBody⟩
  | conditional p condition thenBody elseBody ihThen ihElse =>
    obtain ⟨hCondition, hThen, hElse⟩ := id h
    have branch : ∀ x ∈ elseNodes elseBody, x.WellFormed := by
      cases elseBody with
      | none => exact nofun
      | some body => exact wellFormed_of_mem_blockNodes (ihElse body rfl) hElse
    exact List.forall_mem_cons.mpr ⟨h, List.forall_mem_append.mpr ⟨hCondition.nodes,
      List.forall_mem_append.mpr ⟨wellFormed_of_mem_blockNodes ihThen hThen, branch⟩⟩⟩
  | classDecl p name implements fields ms ih =>
    obtain ⟨-, -, -, hMethods⟩ := id h
    refine List.forall_mem_cons.mpr ⟨h, fun x there => ?_⟩
    rw [ClassDecl.nodes, methodNodes_eq_flatMap] at there
    obtain ⟨m, among, within⟩ := List.mem_flatMap.mp there
    have hm := methodsWellFormed_iff.mp hMethods m among
    rw [m.nodes_eq] at within
    obtain ⟨head, body⟩ := m
    exact wellFormed_of_mem_blockNodes (ih _ among) hm.2 x within
  | interfaceDecl decl => exact List.forall_mem_singleton.mpr h
  | assignment p target value =>
    obtain ⟨hTarget, hValue⟩ := id h
    exact List.forall_mem_cons.mpr
      ⟨h, List.forall_mem_append.mpr ⟨hTarget.nodes, hValue.nodes⟩⟩
  | expression p e => exact List.forall_mem_cons.mpr ⟨h, Expr.WellFormed.nodes h⟩

theorem Program.WellFormed.nodes {p : Program} (h : p.WellFormed) :
    ∀ x ∈ p.nodes, x.WellFormed :=
  wellFormed_of_mem_blockNodes (fun _ _ hs => hs.nodes) h

/-! ## Parts

The parts of a program that carry a place: its expressions and statements, at any depth, and what
declarations are made of.
-/

/-- A part of a program that carries a place. -/
inductive Part where
  | expression (e : Expr)
  | statement (s : Stmt)
  | method (m : Routine)
  | signature (s : Signature)
  | field (f : Field)
  | param (p : Param)
  | type (r : TypeRef)

def Part.position : Part → Position
  | expression e => e.position
  | statement s => s.position
  | method m => m.signature.position
  | signature s => s.position
  | field f => f.position
  | param p => p.position
  | type r => r.position

def Param.parts (p : Param) : List Part :=
  [.param p, .type p.type]

def Field.parts (f : Field) : List Part :=
  [.field f, .type f.type]

def Signature.parts (s : Signature) : List Part :=
  s.params.flatMap Param.parts ++ [.type s.returns]

def Routine.parts (m : Routine) : List Part :=
  .method m :: m.signature.parts

/-- The parts of the declaration that a statement is, apart from expressions and statements. -/
def Stmt.declaredParts : Stmt → List Part
  | .declaration _ type _ _ => [.type type]
  | .function f => f.signature.parts
  | .classDecl decl =>
    decl.fields.flatMap Field.parts ++ decl.methods.flatMap Routine.parts
  | .interfaceDecl decl => decl.methods.flatMap fun s => .signature s :: s.parts
  | .conditional _ _ _ _ | .assignment _ _ _ | .expression _ _ => []

def Stmt.blocks : Stmt → List (List Stmt)
  | .function f => [f.body]
  | .conditional _ _ thenBody elseBody => thenBody :: elseBody.toList
  | .classDecl decl => decl.methods.map Routine.body
  | .declaration _ _ _ _ | .interfaceDecl _ | .assignment _ _ _ | .expression _ _ => []

namespace Node

/-- A node and the parts of the declaration that it is, if it is one. -/
def parts : Node → List Part
  | expression e => [.expression e]
  | statement s => .statement s :: s.declaredParts

def blocks : Node → List (List Stmt)
  | expression _ => []
  | statement s => s.blocks

end Node

namespace Program

def parts (p : Program) : List Part :=
  p.nodes.flatMap Node.parts

/-- The blocks of a program: its statements, and the blocks in it at any depth. -/
def blocks (p : Program) : List (List Stmt) :=
  p.statements :: p.nodes.flatMap Node.blocks

end Program

/-- That a token is the leftmost atom of an expression, or the name in front if that is a call, and
has its place. What is put together from a left operand or a receiver has their place too. -/
def Token.Begins (t : Token) : Expr → Prop
  | .integer p value =>
    t.kind = .integer ∧ value = Text.naturalValue t.text.toList ∧ p = t.position
  | .string p text | .template p text => t.kind = .string ∧ text = t.text ∧ p = t.position
  | .identifier p name | .functionCall p name _ | .creation p name _ =>
    t.kind = .identifier ∧ name = t.text ∧ p = t.position
  | .binary p _ left _ => t.Begins left ∧ p = t.position
  | .methodCall p receiver _ _ | .fieldAccess p receiver _ => t.Begins receiver ∧ p = t.position

namespace Token.Begins

variable {t : Token} {e : Expr}

theorem position (h : t.Begins e) : e.position = t.position := by
  cases e with
  | integer | string | template | identifier | functionCall | creation => exact h.2.2
  | binary | methodCall | fieldAccess => exact h.2

theorem kind (h : t.Begins e) : t.kind = .integer ∨ t.kind = .string ∨ t.kind = .identifier := by
  induction e with
  | integer => exact .inl h.1
  | string | template => exact .inr (.inl h.1)
  | identifier | functionCall | creation => exact .inr (.inr h.1)
  | binary _ _ _ _ ih | methodCall _ _ _ _ ih | fieldAccess _ _ _ ih => exact ih h.1

end Token.Begins

end ScriptLang
