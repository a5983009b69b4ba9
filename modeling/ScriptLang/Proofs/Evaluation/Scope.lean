import ScriptLang.Evaluation

/-!
What an evaluation leaves of the scope in which it began. An expression leaves every variable and
every saved table as it was, however many calls it makes and wherever it stops; a statement changes
the variables that it names as targets and no others. No function, class or interface is forgotten.
-/

set_option autoImplicit false
set_option relaxedAutoImplicit false

namespace ScriptLang

def Table.NamesIn {α : Type} (t u : Table α) : Prop :=
  ∀ name, (t.get? name).isSome → (u.get? name).isSome

private theorem Table.NamesIn.refl {α : Type} (t : Table α) : t.NamesIn t :=
  fun _ found => found

private theorem Table.NamesIn.trans {α : Type} {t u v : Table α} (first : t.NamesIn u)
    (second : u.NamesIn v) : t.NamesIn v :=
  fun name found => second name (first name found)

theorem Table.namesIn_insert {α : Type} (t : Table α) (name : String) (a : α) :
    t.NamesIn (t.insert name a) := by
  intro other found
  rw [Table.get?_insert]
  split
  · rfl
  · exact found

mutual

/-- The variables that a statement may define: the targets of its declarations and assignments,
through conditionals and not inside the bodies of functions and methods. -/
def Stmt.targets : Stmt → List String
  | .declaration _ _ name _ => [name]
  | .assignment _ (.identifier _ name) _ => [name]
  | .conditional _ _ thenBody elseBody => blockTargets thenBody ++ elseTargets elseBody
  | _ => []

def blockTargets : List Stmt → List String
  | [] => []
  | s :: more => s.targets ++ blockTargets more

def elseTargets : Option (List Stmt) → List String
  | none => []
  | some body => blockTargets body

end

namespace Machine

/-- What a computation inside a call leaves: the saved tables as they were, and at least the names
of functions, classes and interfaces that there were. -/
structure KeepsFrames (before after : Machine) : Prop where
  frames : after.env.frames = before.env.frames
  functions : before.env.functions.NamesIn after.env.functions
  classes : before.env.classes.NamesIn after.env.classes
  interfaces : before.env.interfaces.NamesIn after.env.interfaces

/-- What an expression leaves: the variables too. -/
structure KeepsScope (before after : Machine) : Prop extends KeepsFrames before after where
  vars : after.env.vars = before.env.vars

/-- What a statement leaves that may define the variables `names`. -/
structure ChangesOnly (names : List String) (before after : Machine) : Prop
    extends KeepsFrames before after where
  vars : ∀ name, name ∉ names → after.env.vars.get? name = before.env.vars.get? name

/-- The machine that leaves a frame: `m` opened it and `n` is reached in it. -/
def restore (m n : Machine) : Machine :=
  { n with env := { n.env with vars := m.env.vars, frames := m.env.frames } }.record
    (.popFrame n.env.depth)

/-- A relation between machines that holds of a whole computation when it holds of its parts. -/
class Composes (R : Machine → Machine → Prop) : Prop where
  refl : ∀ m, R m m
  trans : ∀ {a b c}, R a b → R b c → R a c

instance composes_keepsFrames : Composes KeepsFrames where
  refl _ := ⟨rfl, .refl _, .refl _, .refl _⟩
  trans first second :=
    ⟨second.frames.trans first.frames, first.functions.trans second.functions,
      first.classes.trans second.classes, first.interfaces.trans second.interfaces⟩

instance composes_keepsScope : Composes KeepsScope where
  refl m := ⟨composes_keepsFrames.refl m, rfl⟩
  trans first second :=
    ⟨composes_keepsFrames.trans first.toKeepsFrames second.toKeepsFrames,
      second.vars.trans first.vars⟩

instance composes_changesOnly (names : List String) : Composes (ChangesOnly names) where
  refl m := ⟨composes_keepsFrames.refl m, fun _ _ => rfl⟩
  trans first second :=
    ⟨composes_keepsFrames.trans first.toKeepsFrames second.toKeepsFrames,
      fun name other => (second.vars name other).trans (first.vars name other)⟩

private theorem ChangesOnly.mono {names more : List String} {a b : Machine}
    (h : ChangesOnly names a b) (included : names ⊆ more) : ChangesOnly more a b :=
  ⟨h.toKeepsFrames, fun name other => h.vars name fun found => other (included found)⟩

private theorem KeepsScope.changesOnly {a b : Machine} (h : KeepsScope a b) (names : List String) :
    ChangesOnly names a b :=
  ⟨h.toKeepsFrames, fun name _ => by rw [h.vars]⟩

end Machine

open Machine

namespace Evaluation

variable {α β : Type} {R : Machine → Machine → Prop} [Composes R]

/-- Wherever the computation stops, with a value or an error, its machine stands in the relation
`R` to the one that it began with. -/
def Leaves (R : Machine → Machine → Prop) (x : Evaluation α) : Prop :=
  ∀ m, R m (x m).2

theorem leaves_pure (a : α) : Leaves R (pure a : Evaluation α) :=
  Composes.refl

private theorem leaves_raise (cause : EvalCause) (position : Position) :
    Leaves R (raise cause position : Evaluation α) :=
  Composes.refl

@[simp] theorem raise_apply (cause : EvalCause) (position : Position) (m : Machine) :
    (raise cause position : Evaluation α) m = (.error (.error ⟨cause, position⟩), m) := rfl

private theorem leaves_environment : Leaves R environment :=
  Composes.refl

theorem Leaves.bind {x : Evaluation α} {f : α → Evaluation β}
    (first : Leaves R x) (second : ∀ a, Leaves R (f a)) : Leaves R (x >>= f) := by
  intro m
  have start := first m
  rw [Attempt.bind_apply]
  rcases hx : x m with ⟨_ | a, n⟩
  · simpa only [hx] using start
  · rw [hx] at start
    exact Composes.trans start (second a n)

private theorem Leaves.map (f : α → β) {x : Evaluation α} (hx : Leaves R x) :
    Leaves R (f <$> x) := by
  rw [map_eq_pure_bind]
  exact hx.bind fun a => leaves_pure (f a)

private theorem Leaves.frames {x : Evaluation α} (hx : Leaves KeepsScope x) :
    Leaves KeepsFrames x :=
  fun m => (hx m).toKeepsFrames

private theorem Leaves.changesOnly {x : Evaluation α} (hx : Leaves KeepsScope x)
    (names : List String) : Leaves (ChangesOnly names) x :=
  fun m => (hx m).changesOnly names

private theorem Leaves.widen {names more : List String} {x : Evaluation α}
    (hx : Leaves (ChangesOnly names) x) (included : names ⊆ more) :
    Leaves (ChangesOnly more) x :=
  fun m => (hx m).mono included

private theorem leaves_record (e : Event) : Leaves KeepsScope (record e) :=
  fun _ => ⟨⟨rfl, .refl _, .refl _, .refl _⟩, rfl⟩

private theorem leaves_printLine (text : String) : Leaves KeepsScope (printLine text) :=
  fun _ => ⟨⟨rfl, .refl _, .refl _, .refl _⟩, rfl⟩

private theorem leaves_defineVariable (name : String) (v : Value) :
    Leaves (ChangesOnly [name]) (defineVariable name v) := by
  intro m
  refine ⟨⟨rfl, .refl _, .refl _, .refl _⟩, fun other fresh => ?_⟩
  have unequal : other ≠ name := fun same => fresh (same ▸ List.mem_singleton_self name)
  exact (Table.get?_insert _ _ _ _).trans (if_neg unequal)

private theorem leaves_defineFunction (name : String) (f : Callable) :
    Leaves (ChangesOnly []) (modifyEnvironment (·.defineFunction name f)) :=
  fun _ => ⟨⟨rfl, Table.namesIn_insert _ _ _, .refl _, .refl _⟩, fun _ _ => rfl⟩

private theorem leaves_defineClass (name : String) (decl : ClassDecl) :
    Leaves (ChangesOnly []) (modifyEnvironment (·.defineClass name decl)) :=
  fun _ => ⟨⟨rfl, .refl _, Table.namesIn_insert _ _ _, .refl _⟩, fun _ _ => rfl⟩

private theorem leaves_defineInterface (name : String) (decl : InterfaceDecl) :
    Leaves (ChangesOnly []) (modifyEnvironment (·.defineInterface name decl)) :=
  fun _ => ⟨⟨rfl, .refl _, .refl _, Table.namesIn_insert _ _ _⟩, fun _ _ => rfl⟩

theorem leaves_defineVariable_frames (name : String) (v : Value) :
    Leaves KeepsFrames (defineVariable name v) :=
  fun m => (leaves_defineVariable name v m).toKeepsFrames

theorem inFrame_apply {x : Evaluation α} (hx : Leaves KeepsFrames x) (m : Machine) :
    inFrame x m = ((x m.pushFrame).1, m.restore (x m.pushFrame).2) := by
  have top : (x m.pushFrame).2.env.popFrame? =
      some { (x m.pushFrame).2.env with vars := m.env.vars, frames := m.env.frames } := by
    simp only [Environment.popFrame?, (hx m.pushFrame).frames]
    rfl
  simp only [inFrame, popFrame, top]
  rfl

private theorem Leaves.inFrame {x : Evaluation α} (hx : Leaves KeepsFrames x) :
    Leaves KeepsScope (inFrame x) := by
  intro m
  obtain ⟨-, functions, classes, interfaces⟩ := hx m.pushFrame
  rw [inFrame_apply hx]
  exact ⟨⟨rfl, functions, classes, interfaces⟩, rfl⟩

section Open

variable {bodyOf : List Stmt → Evaluation (Option Value)}

mutual

private theorem leaves_evaluateWith (hb : ∀ body, Leaves KeepsFrames (bodyOf body)) :
    ∀ e : Expr, Leaves KeepsScope (evaluateWith bodyOf e)
  | .integer _ _ | .string _ _ => by
    simp only [evaluateWith]
    exact leaves_pure _
  | .template _ _ => by
    simp only [evaluateWith]
    exact leaves_environment.bind fun _ =>
      leaves_pure _
  | .identifier position name => by
    simp only [evaluateWith]
    refine leaves_environment.bind fun env => ?_
    split
    · exact leaves_pure _
    · exact leaves_raise _ _
  | .binary position operator left right => by
    simp only [evaluateWith]
    refine (leaves_evaluateWith hb left).bind fun a => ?_
    refine (leaves_evaluateWith hb right).bind fun b => ?_
    split
    · exact leaves_pure _
    · exact leaves_raise _ _
  | .functionCall position name args => by
    simp only [evaluateWith]
    split
    · refine (leaves_evaluateSoleWith hb args).bind fun sole => ?_
      split
      · exact (leaves_printLine _).bind fun _ =>
          leaves_pure _
      · exact leaves_raise _ _
    · refine leaves_environment.bind fun env => ?_
      split
      · exact leaves_raise _ _
      · rename_i f _
        split
        · exact leaves_raise _ _
        -- What arguments and body do to the variables ends with the frame.
        · refine leaves_environment.bind fun _ => ?_
          refine (leaves_record _).bind fun _ => Leaves.inFrame ?_
          refine (leaves_bindCheckedWith hb f.params args).bind fun _ => ?_
          exact (hb f.body).bind fun _ => leaves_pure _
  | .methodCall position receiver method args => by
    simp only [evaluateWith]
    refine (leaves_evaluateWith hb receiver).bind fun this => ?_
    split
    · refine leaves_environment.bind fun env => ?_
      split
      · exact leaves_raise _ _
      · split
        · exact leaves_raise _ _
        · rename_i m _
          split
          · exact leaves_raise _ _
          · refine leaves_environment.bind fun _ => ?_
            refine (leaves_record _).bind fun _ => Leaves.inFrame ?_
            refine (leaves_defineVariable_frames _ _).bind fun _ => ?_
            refine (leaves_bindWith hb m.signature.params args).bind
              fun _ => ?_
            exact (hb m.body).bind fun _ => leaves_pure _
    · exact leaves_raise _ _
  | .fieldAccess position receiver field => by
    simp only [evaluateWith]
    refine (leaves_evaluateWith hb receiver).bind fun object => ?_
    split
    · split
      · exact leaves_pure _
      · exact leaves_raise _ _
    · exact leaves_raise _ _
  | .creation position className _ => by
    simp only [evaluateWith]
    refine leaves_environment.bind fun env => ?_
    split
    · exact leaves_pure _
    · exact leaves_raise _ _

private theorem leaves_evaluateSoleWith (hb : ∀ body, Leaves KeepsFrames (bodyOf body)) :
    ∀ args : List Expr, Leaves KeepsScope (evaluateSoleWith bodyOf args)
  | [] | _ :: _ :: _ => by
    simp only [evaluateSoleWith]
    exact leaves_pure _
  | [arg] => by
    simp only [evaluateSoleWith]
    exact (leaves_evaluateWith hb arg).map some

theorem leaves_bindCheckedWith (hb : ∀ body, Leaves KeepsFrames (bodyOf body)) :
    ∀ (params : List Param) (args : List Expr),
      Leaves KeepsFrames (bindCheckedWith bodyOf params args)
  | param :: params, arg :: args => by
    simp only [bindCheckedWith]
    refine (leaves_evaluateWith hb arg).frames.bind fun v => ?_
    split
    · exact (leaves_defineVariable_frames _ _).bind
        fun _ => leaves_bindCheckedWith hb params args
    · exact leaves_raise _ _
  | [], _ | _ :: _, [] => by
    simp only [bindCheckedWith]
    exact leaves_pure _

theorem leaves_bindWith (hb : ∀ body, Leaves KeepsFrames (bodyOf body)) :
    ∀ (params : List Param) (args : List Expr),
      Leaves KeepsFrames (bindWith bodyOf params args)
  | param :: params, arg :: args => by
    simp only [bindWith]
    refine (leaves_evaluateWith hb arg).frames.bind fun v => ?_
    exact (leaves_defineVariable_frames _ _).bind fun _ => leaves_bindWith hb params args
  | [], _ | _ :: _, [] => by
    simp only [bindWith]
    exact leaves_pure _

end

mutual

private theorem leaves_executeWith (hb : ∀ body, Leaves KeepsFrames (bodyOf body)) :
    ∀ s : Stmt, Leaves (ChangesOnly s.targets) (executeWith bodyOf s)
  | .declaration position type name value => by
    simp only [executeWith, Stmt.targets]
    refine ((leaves_evaluateWith hb value).changesOnly _).bind fun v => ?_
    split
    · exact (leaves_defineVariable name v).bind fun _ => leaves_pure _
    · exact leaves_raise _ _
  | .expression _ expr => by
    simp only [executeWith, Stmt.targets]
    exact ((leaves_evaluateWith hb expr).changesOnly _).map some
  | .conditional _ condition thenBody elseBody => by
    simp only [executeWith, Stmt.targets]
    refine ((leaves_evaluateWith hb condition).changesOnly _).bind fun v => ?_
    split
    · exact (leaves_executeBlockWith hb thenBody).widen (List.subset_append_left _ _)
    · exact (leaves_executeElseWith hb elseBody).widen (List.subset_append_right _ _)
  | .assignment position target value => by
    simp only [executeWith]
    refine ((leaves_evaluateWith hb value).changesOnly _).bind fun v => ?_
    split
    · exact (leaves_defineVariable _ v).bind fun _ => leaves_pure _
    · exact leaves_raise _ _
  | .function ⟨head, body⟩ => by
    simp only [executeWith]
    refine ((leaves_record _).changesOnly _).bind fun _ => ?_
    exact Leaves.bind (leaves_defineFunction _ _) fun _ => leaves_pure _
  | .classDecl decl => by
    simp only [executeWith]
    refine ((leaves_record _).changesOnly _).bind fun _ => ?_
    exact Leaves.bind (leaves_defineClass _ _) fun _ => leaves_pure _
  | .interfaceDecl decl => by
    simp only [executeWith]
    refine ((leaves_record _).changesOnly _).bind fun _ => ?_
    exact Leaves.bind (leaves_defineInterface _ _) fun _ => leaves_pure _

private theorem leaves_executeBlockWith (hb : ∀ body, Leaves KeepsFrames (bodyOf body)) :
    ∀ body : List Stmt, Leaves (ChangesOnly (blockTargets body)) (executeBlockWith bodyOf body)
  | [] => by
    simp only [executeBlockWith]
    exact leaves_pure _
  | s :: more => by
    simp only [executeBlockWith, blockTargets]
    refine Leaves.bind ((leaves_executeWith hb s).widen (List.subset_append_left _ _))
      fun carried => ?_
    split
    · exact leaves_pure _
    · exact (leaves_executeBlockWith hb more).widen (List.subset_append_right _ _)

private theorem leaves_executeElseWith (hb : ∀ body, Leaves KeepsFrames (bodyOf body)) :
    ∀ body : Option (List Stmt),
      Leaves (ChangesOnly (elseTargets body)) (executeElseWith bodyOf body)
  | none => by
    simp only [executeElseWith]
    exact leaves_pure _
  | some body => by
    simp only [executeElseWith, elseTargets]
    exact leaves_executeBlockWith hb body

end

private theorem leaves_interpretWith (hb : ∀ body, Leaves KeepsFrames (bodyOf body))
    (body : List Stmt) : Leaves (ChangesOnly (blockTargets body)) (interpretWith bodyOf body) := by
  induction body with
  | nil => exact leaves_pure ()
  | cons s more ih =>
    have first := (leaves_executeWith hb s).widen (List.subset_append_left _ (blockTargets more))
    refine Leaves.bind (first.map _) fun _ => ?_
    exact ih.widen (List.subset_append_right _ _)

end Open

/-- The bodies that an evaluation calls leave the frames, whatever the limit on nested calls. -/
theorem leaves_bodyWithin (limit : Nat) (body : List Stmt) :
    Leaves KeepsFrames (bodyWithin limit body) := by
  induction limit generalizing body with
  | zero => exact fun m => Composes.refl m
  | succ limit ih => exact fun m => (leaves_executeBlockWith ih body m).toKeepsFrames

theorem leaves_evaluate (limit : Nat) (e : Expr) : Leaves KeepsScope (evaluate limit e) :=
  leaves_evaluateWith (leaves_bodyWithin limit) e

private theorem leaves_execute (limit : Nat) (s : Stmt) :
    Leaves (ChangesOnly s.targets) (execute limit s) :=
  leaves_executeWith (leaves_bodyWithin limit) s

theorem leaves_interpret (limit : Nat) (p : Program) :
    Leaves (ChangesOnly (blockTargets p.statements)) (interpret limit p) :=
  leaves_interpretWith (leaves_bodyWithin limit) p.statements

/-- A declaration that fails has defined nothing, neither its own variable nor another. -/
theorem vars_of_declaration_error {limit : Nat} {m : Machine} {position : Position}
    {type : TypeRef} {name : String} {value : Expr} {stop : Stop}
    (failed : (execute limit (.declaration position type name value) m).1 = .error stop) :
    (execute limit (.declaration position type name value) m).2.env.vars = m.env.vars := by
  have kept := (leaves_evaluate limit value m).vars
  simp only [execute, executeWith, Attempt.bind_apply] at failed ⊢
  unfold evaluate at kept
  rcases hv : evaluateWith (bodyWithin limit) value m with ⟨_ | v, n⟩
  · simpa only [hv] using kept
  · simp only [hv] at kept failed ⊢
    split at failed
    · cases failed
    · rename_i unfit
      simpa only [if_neg unfit, raise_apply] using kept

theorem vars_of_assignment_error {limit : Nat} {m : Machine} {position : Position}
    {target value : Expr} {stop : Stop}
    (failed : (execute limit (.assignment position target value) m).1 = .error stop) :
    (execute limit (.assignment position target value) m).2.env.vars = m.env.vars := by
  have kept := (leaves_evaluate limit value m).vars
  unfold execute at failed ⊢
  unfold evaluate at kept
  rcases hv : evaluateWith (bodyWithin limit) value m with ⟨_ | v, n⟩
  · cases target <;> simpa only [executeWith, Attempt.bind_apply, hv] using kept
  · rw [hv] at kept
    cases target with
    | identifier _ name =>
      simp only [executeWith, Attempt.bind_apply, hv] at failed
      cases failed
    | _ => simpa only [executeWith, Attempt.bind_apply, hv, raise_apply] using kept

/-- Calls leave the scope of their caller intact. Whether it ends with a value or an error, an
expression leaves the variables and the saved tables as they were, and a statement leaves the
saved tables and every variable but its targets; a declaration or assignment that fails leaves
its target too. No name of a function, class or interface is lost. -/
theorem evaluate_keepsScope_execute_changesOnly (limit : Nat) (m : Machine) :
    (∀ e, KeepsScope m (evaluate limit e m).2) ∧
      (∀ s, ChangesOnly s.targets m (execute limit s m).2) ∧
      (∀ position type name value stop,
        (execute limit (.declaration position type name value) m).1 = .error stop →
          (execute limit (.declaration position type name value) m).2.env.vars = m.env.vars) ∧
      ∀ position target value stop,
        (execute limit (.assignment position target value) m).1 = .error stop →
          (execute limit (.assignment position target value) m).2.env.vars = m.env.vars := by
  refine ⟨fun e => leaves_evaluate limit e m, fun s => leaves_execute limit s m, ?_, ?_⟩
  · intro position type name value stop failed
    exact vars_of_declaration_error failed
  · intro position target value stop failed
    exact vars_of_assignment_error failed

/-- A declaration whose initial value is printed on the way and does not fit its type. -/
theorem vars_of_declaration_mismatch :
    let nowhere : Position := ⟨0, 0⟩
    let mismatch : Stmt := .declaration nowhere ⟨nowhere, .int⟩ "r"
      (.functionCall nowhere "print" [.string nowhere "s"])
    (execute 1 mismatch .initial).1 =
        .error (.error ⟨.declarationMismatch .int "String", nowhere⟩) ∧
      (execute 1 mismatch .initial).2.env.vars = .empty :=
  ⟨rfl, (evaluate_keepsScope_execute_changesOnly 1 .initial).2.2.1 _ _ _ _ _ rfl⟩

end Evaluation

end ScriptLang
