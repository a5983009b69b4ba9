import ScriptLang.Proofs.Evaluation.Limit
import ScriptLang.Proofs.Evaluation.Reached

/-!
Only recursion runs forever. If the names of functions and methods have ranks, and each body calls
only names of a rank below that of its own definition, then the nesting of calls is bounded by the
ranks, and a run ends. The ranks belong to names: a function may be defined anew during the run, and
a method is found by its name in whatever class the receiver has.
-/

set_option autoImplicit false
set_option relaxedAutoImplicit false

namespace ScriptLang

mutual

/-- The nodes of the expressions of a statement, through conditionals and not inside the bodies
that it defines. -/
def Stmt.ownNodes : Stmt → List Node
  | .declaration _ _ _ value => value.nodes
  | .conditional _ condition thenBody elseBody =>
    condition.nodes ++ (blockOwnNodes thenBody ++ elseOwnNodes elseBody)
  | .assignment _ target value => target.nodes ++ value.nodes
  | .expression _ e => e.nodes
  | .function _ | .classDecl _ | .interfaceDecl _ => []

def blockOwnNodes : List Stmt → List Node
  | [] => []
  | s :: more => s.ownNodes ++ blockOwnNodes more

def elseOwnNodes : Option (List Stmt) → List Node
  | none => []
  | some body => blockOwnNodes body

end

structure Ranking where
  functions : String → Nat
  methods : String → Nat

namespace Ranking

variable (r : Ranking)

/-- That a node calls nothing of rank `bound` or more. What prints is built in and has no rank. -/
def Below (bound : Nat) : Node → Prop
  | .expression (.functionCall _ name _) => name ≠ "print" → r.functions name < bound
  | .expression (.methodCall _ _ method _) => r.methods method < bound
  | _ => True

/-- That a node, if it defines functions or methods, gives them bodies which call nothing of their
own rank or more. -/
def Orders : Node → Prop
  | .statement (.function f) =>
    ∀ x ∈ blockOwnNodes f.body, r.Below (r.functions f.signature.name) x
  | .statement (.classDecl decl) =>
    ∀ m ∈ decl.methods, ∀ x ∈ blockOwnNodes m.body, r.Below (r.methods m.signature.name) x
  | _ => True

instance (bound : Nat) : DecidablePred (r.Below bound)
  | .expression (.functionCall _ name _) =>
    inferInstanceAs (Decidable (name ≠ "print" → r.functions name < bound))
  | .expression (.methodCall _ _ method _) => inferInstanceAs (Decidable (r.methods method < bound))
  | .expression (.integer _ _) | .expression (.string _ _) | .expression (.template _ _)
  | .expression (.identifier _ _) | .expression (.binary _ _ _ _)
  | .expression (.fieldAccess _ _ _) | .expression (.creation _ _ _) | .statement _ =>
    inferInstanceAs (Decidable True)

instance : DecidablePred r.Orders
  | .statement (.function f) => inferInstanceAs
    (Decidable (∀ x ∈ blockOwnNodes f.body, r.Below (r.functions f.signature.name) x))
  | .statement (.classDecl decl) => inferInstanceAs (Decidable (∀ m ∈ decl.methods,
    ∀ x ∈ blockOwnNodes m.body, r.Below (r.methods m.signature.name) x))
  | .statement (.declaration _ _ _ _) | .statement (.conditional _ _ _ _)
  | .statement (.interfaceDecl _) | .statement (.assignment _ _ _) | .statement (.expression _ _)
  | .expression _ => inferInstanceAs (Decidable True)

variable {r}

private theorem Below.mono {bound more : Nat} {x : Node} (h : r.Below bound x) (le : bound ≤ more) :
    r.Below more x := by
  unfold Below at h ⊢
  split at h
  · exact fun other => (h other).trans_le le
  · exact h.trans_le le
  · trivial

variable (r)

private theorem exists_below (nodes : List Node) : ∃ bound, ∀ x ∈ nodes, r.Below bound x := by
  induction nodes with
  | nil => exact ⟨0, nofun⟩
  | cons x more ih =>
    obtain ⟨bound, below⟩ := ih
    obtain ⟨rank, own⟩ : ∃ rank, r.Below rank x := by
      unfold Below
      split
      · exact ⟨_, fun _ => Nat.lt_succ_self _⟩
      · exact ⟨_, Nat.lt_succ_self _⟩
      · exact ⟨0, trivial⟩
    refine ⟨max rank bound, List.forall_mem_cons.mpr ⟨?_, fun y there => ?_⟩⟩
    · exact own.mono (Nat.le_max_left rank bound)
    · exact (below y there).mono (Nat.le_max_right rank bound)

end Ranking

namespace Evaluation

variable {r : Ranking}

/-- The nodes that a task goes through before the next body of a call. -/
def Task.ownNodes : Task → List Node
  | expression e => e.nodes
  | functionFrame _ args | methodFrame _ _ args => argNodes args
  | checkedBindings _ args | bindings _ args => argNodes args
  | statement s => s.ownNodes
  | block body | program body => blockOwnNodes body

/-- The body that a task goes on to when it has bound the parameters of a call. -/
def Task.body? : Task → Option (List Stmt)
  | functionFrame f _ => some f.body
  | methodFrame _ routine _ => some routine.body
  | _ => none

/-- That the calls which a point makes are of ranks below the nesting that is still allowed, and so
are those of the body that it goes on to, with one call less. -/
structure Point.Tame (r : Ranking) (a : Point) : Prop where
  calls : ∀ x ∈ a.task.ownNodes, r.Below a.limit x
  body : ∀ body ∈ a.task.body?, ∃ rank < a.limit, ∀ x ∈ blockOwnNodes body, r.Below rank x

variable {a b : Point}

private theorem Point.Starts.tame (h : a.Starts b) (good : a.Good r.Orders) (tame : a.Tame r) :
    b.Tame r := by
  have reached := (h.good good).machine.defined
  obtain ⟨calls, body⟩ := tame
  cases h with
  | @functionFrame limit p name args f m other found equal =>
    refine ⟨fun x there => calls x (List.mem_cons_of_mem _ there), ?_⟩
    rintro _ ⟨⟩
    have lower : r.functions name < limit := calls _ (Expr.mem_nodes _) other
    refine ⟨r.functions name, lower, ?_⟩
    obtain rfl | ⟨head, rfl, orders⟩ := reached.functions.get? found
    · exact nofun
    · exact orders
  | @methodFrame limit p receiver method args decl routine className fields m n hr found named =>
    refine ⟨fun x there => calls x ?_, ?_⟩
    · exact List.mem_cons_of_mem _ (List.mem_append_right _ there)
    rintro _ ⟨⟩
    have lower : r.methods method < limit := calls _ (Expr.mem_nodes _)
    refine ⟨r.methods method, lower, ?_⟩
    have orders := reached.classes.get? found routine (List.mem_of_find?_eq_some named)
    have same : routine.signature.name = method := by simpa using List.find?_some named
    rwa [same] at orders
  | functionBody | methodBody =>
    obtain ⟨rank, lower, below⟩ := body _ rfl
    exact ⟨fun x there => (below x there).mono (Nat.le_of_lt_succ lower), nofun⟩
  | _ =>
    refine ⟨fun x there => calls x ?_, nofun⟩
    simp only [Task.ownNodes] at there
    simp [Task.ownNodes, Expr.nodes, argNodes, Stmt.ownNodes, blockOwnNodes, elseOwnNodes, there]

private theorem Point.Reaches.tame (h : a.Reaches b) (good : a.Good r.Orders) (tame : a.Tame r) :
    b.Tame r := by
  induction h with
  | refl => exact tame
  | tail reached starts ih => exact starts.tame (Point.Reaches.good reached good) ih

private theorem Point.Tame.not_raises (tame : a.Tame r) : ¬ a.Raises .tooDeep := by
  intro raised
  cases raised with
  | functionTooDeep | methodTooDeep =>
    obtain ⟨rank, lower, -⟩ := tame.body _ rfl
    exact Nat.not_lt_zero rank lower

/-- The ranks of what a program calls bound the nesting of its calls. -/
theorem interpret_ne_tooDeep {p : Program} (orders : ∀ x ∈ p.nodes, r.Orders x) {limit : Nat}
    (below : ∀ x ∈ blockOwnNodes p.statements, r.Below limit x) :
    (interpret limit p .initial).1 ≠ .error .tooDeep := by
  intro deep
  obtain ⟨a, reached, raised⟩ := exists_raises_of_interpret deep
  have start : (Point.start limit p).Tame r := ⟨below, nofun⟩
  exact (reached.tame (Point.good_start limit orders) start).not_raises raised

end Evaluation

open Evaluation

/-- Only recursion can make a program run forever. If every body in the program calls only functions
and methods of a rank below that of its own definition, then the program ends, with success or with
an error of its own. -/
theorem Program.ends_of_ranked (r : Ranking) {p : Program} (orders : ∀ x ∈ p.nodes, r.Orders x) :
    ∃ outcome left, p.EndsFrom .initial outcome left ∧
      (outcome = .ok () ∨ ∃ e, outcome = .error (.error e)) := by
  obtain ⟨limit, below⟩ := r.exists_below (blockOwnNodes p.statements)
  have inside := interpret_ne_tooDeep orders below
  refine ⟨_, _, ⟨limit, rfl, inside⟩, ?_⟩
  cases ended : (interpret limit p .initial).1 with
  | ok => exact .inl ended
  | error stop =>
    cases stop with
    | error e => exact .inr ⟨e, ended⟩
    | tooDeep => exact absurd ended inside
    | noFrame =>
      obtain ⟨a, -, raised⟩ := exists_raises_of_interpret ended
      cases raised

/-- A function that is defined anew between two calls of a method which calls it. -/
theorem Program.ends_of_ranked_of_redefinition :
    let nowhere : Position := ⟨0, 0⟩
    let int : TypeRef := ⟨nowhere, .int⟩
    let routine (name : String) (e : Expr) : Routine :=
      ⟨⟨nowhere, name, [], int⟩, [.expression nowhere e]⟩
    let one : Stmt := .function (routine "size" (.integer nowhere 1))
    let two : Stmt := .function (routine "size" (.functionCall nowhere "unit" []))
    let box : ClassDecl :=
      ⟨nowhere, "Box", none, [], [routine "show" (.functionCall nowhere "size" [])]⟩
    let shown : Stmt := .expression nowhere
      (.methodCall nowhere (.creation nowhere "Box" []) "show" [])
    let p : Program := ⟨[one, .classDecl box, shown, two, shown]⟩
    let r : Ranking := ⟨fun name => if name = "size" then 1 else 0, fun _ => 2⟩
    (∀ x ∈ p.nodes, r.Orders x) ∧
      ∃ outcome left, p.EndsFrom .initial outcome left ∧
        (outcome = .ok () ∨ ∃ e, outcome = .error (.error e)) := by
  intro nowhere int routine one two box shown p r
  have orders : ∀ x ∈ p.nodes, r.Orders x := by decide
  exact ⟨orders, ends_of_ranked r orders⟩

end ScriptLang
