import Mathlib.Logic.Relation
import ScriptLang.Proofs.Evaluation.Call
import ScriptLang.Proofs.Program.Nodes

/-!
The points of a run: every evaluation that goes on within another, with the machine on which it
starts. An evaluation that ends with an error has started, at some point within it, the evaluation
that raised the error by itself; what can be raised there is said once, rule by rule.
-/

set_option autoImplicit false
set_option relaxedAutoImplicit false

namespace ScriptLang

namespace Evaluation

inductive Task where
  | expression (e : Expr)
  | functionFrame (f : Callable) (args : List Expr)
  | methodFrame (this : Value) (routine : Routine) (args : List Expr)
  | checkedBindings (params : List Param) (args : List Expr)
  | bindings (params : List Param) (args : List Expr)
  | statement (s : Stmt)
  | block (body : List Stmt)
  | program (statements : List Stmt)

namespace Task

def run (limit : Nat) : Task → Evaluation (Option Value)
  | expression e => some <$> evaluate limit e
  | functionFrame f args => some <$> Evaluation.functionFrame (bodyWithin limit) f args
  | methodFrame this routine args =>
    some <$> Evaluation.methodFrame (bodyWithin limit) this routine args
  | checkedBindings params args => do
    bindCheckedWith (bodyWithin limit) params args
    return none
  | bindings params args => do
    bindWith (bodyWithin limit) params args
    return none
  | statement s => execute limit s
  | block body => executeBlockWith (bodyWithin limit) body
  | program statements => do
    interpretWith (bodyWithin limit) statements
    return none

/-- The nodes that a task goes through, those of the called body included. -/
def nodes : Task → List Node
  | expression e => e.nodes
  | functionFrame f args => argNodes args ++ blockNodes f.body
  | methodFrame _ routine args => argNodes args ++ blockNodes routine.body
  | checkedBindings _ args | bindings _ args => argNodes args
  | statement s => s.nodes
  | block body | program body => blockNodes body

/-- A measure of what a task still evaluates before the next body of a call. -/
def weight : Task → Nat
  | expression e => 4 * e.nodes.length
  | functionFrame _ args | methodFrame _ _ args => 4 * (argNodes args).length + 2
  | checkedBindings _ args | bindings _ args => 4 * (argNodes args).length + 1
  | statement s => 4 * s.nodes.length
  | block body | program body => 4 * (blockNodes body).length + 1

end Task

/-- A task with the machine on which it starts, and the nesting of calls still allowed. -/
structure Point where
  limit : Nat
  task : Task
  machine : Machine

/-- How the task of a point ends, and the machine that it leaves. -/
def Point.outcome (a : Point) : Except Stop (Option Value) × Machine :=
  a.task.run a.limit a.machine

def Point.start (limit : Nat) (p : Program) : Point :=
  ⟨limit, .program p.statements, .initial⟩

/-- That one evaluation starts another: which, and on which machine. -/
inductive Point.Starts : Point → Point → Prop where
  | left {limit p operator left right m} :
      Starts ⟨limit, .expression (.binary p operator left right), m⟩
        ⟨limit, .expression left, m⟩
  | right {limit p operator left right a m n} : evaluate limit left m = (.ok a, n) →
      Starts ⟨limit, .expression (.binary p operator left right), m⟩
        ⟨limit, .expression right, n⟩
  | printed {limit p arg m} : Starts ⟨limit, .expression (.functionCall p "print" [arg]), m⟩
      ⟨limit, .expression arg, m⟩
  | functionFrame {limit p name args f m} : name ≠ "print" → m.env.functions.get? name = some f →
      args.length = f.params.length →
      Starts ⟨limit, .expression (.functionCall p name args), m⟩
        ⟨limit, .functionFrame f args, (m.record (.callFunction name m.env.depth)).pushFrame⟩
  | receiver {limit p receiver method args m} :
      Starts ⟨limit, .expression (.methodCall p receiver method args), m⟩
        ⟨limit, .expression receiver, m⟩
  | methodFrame {limit p receiver method args decl routine className fields m n} :
      evaluate limit receiver m = (.ok (.object className fields), n) →
      n.env.classes.get? className = some decl →
      decl.methods.find? (·.signature.name = method) = some routine →
      args.length = routine.signature.params.length →
      Starts ⟨limit, .expression (.methodCall p receiver method args), m⟩
        ⟨limit, .methodFrame (.object className fields) routine args,
          (n.record (.callMethod className method n.env.depth)).pushFrame⟩
  | accessed {limit p receiver field m} :
      Starts ⟨limit, .expression (.fieldAccess p receiver field), m⟩
        ⟨limit, .expression receiver, m⟩
  | checkedBindings {limit args f m} : Starts ⟨limit, .functionFrame f args, m⟩
      ⟨limit, .checkedBindings f.params args, m⟩
  | functionBody {limit args f m n} :
      bindCheckedWith (bodyWithin (limit + 1)) f.params args m = (.ok (), n) →
      Starts ⟨limit + 1, .functionFrame f args, m⟩ ⟨limit, .block f.body, n⟩
  | bindings {limit args routine this m} : Starts ⟨limit, .methodFrame this routine args, m⟩
      ⟨limit, .bindings routine.signature.params args,
        { m with env := m.env.defineVariable "this" this }⟩
  | methodBody {limit args routine this m n} :
      bindWith (bodyWithin (limit + 1)) routine.signature.params args
        { m with env := m.env.defineVariable "this" this } = (.ok (), n) →
      Starts ⟨limit + 1, .methodFrame this routine args, m⟩ ⟨limit, .block routine.body, n⟩
  | checkedArg {limit arg args param params m} :
      Starts ⟨limit, .checkedBindings (param :: params) (arg :: args), m⟩
        ⟨limit, .expression arg, m⟩
  | checkedRest {limit arg args v param params m n} :
      evaluate limit arg m = (.ok v, n) → v.fits param.type.type →
      Starts ⟨limit, .checkedBindings (param :: params) (arg :: args), m⟩
        ⟨limit, .checkedBindings params args,
          { n with env := n.env.defineVariable param.name v }⟩
  | arg {limit arg args param params m} :
      Starts ⟨limit, .bindings (param :: params) (arg :: args), m⟩
        ⟨limit, .expression arg, m⟩
  | rest {limit arg args v param params m n} : evaluate limit arg m = (.ok v, n) →
      Starts ⟨limit, .bindings (param :: params) (arg :: args), m⟩
        ⟨limit, .bindings params args, { n with env := n.env.defineVariable param.name v }⟩
  | declared {limit p name value type m} :
      Starts ⟨limit, .statement (.declaration p type name value), m⟩
        ⟨limit, .expression value, m⟩
  | carried {limit p e m} :
      Starts ⟨limit, .statement (.expression p e), m⟩ ⟨limit, .expression e, m⟩
  | condition {limit p condition thenBody elseBody m} :
      Starts ⟨limit, .statement (.conditional p condition thenBody elseBody), m⟩
        ⟨limit, .expression condition, m⟩
  | thenBranch {limit p condition v thenBody elseBody m n} :
      evaluate limit condition m = (.ok v, n) → v.isTruthy →
      Starts ⟨limit, .statement (.conditional p condition thenBody elseBody), m⟩
        ⟨limit, .block thenBody, n⟩
  | elseBranch {limit p condition v thenBody body m n} :
      evaluate limit condition m = (.ok v, n) → v.isTruthy = false →
      Starts ⟨limit, .statement (.conditional p condition thenBody (some body)), m⟩
        ⟨limit, .block body, n⟩
  | assigned {limit p target value m} : Starts ⟨limit, .statement (.assignment p target value), m⟩
      ⟨limit, .expression value, m⟩
  | first {limit s more m} : Starts ⟨limit, .block (s :: more), m⟩ ⟨limit, .statement s, m⟩
  | next {limit s more m n} : execute limit s m = (.ok none, n) →
      Starts ⟨limit, .block (s :: more), m⟩ ⟨limit, .block more, n⟩
  | programFirst {limit s more m} : Starts ⟨limit, .program (s :: more), m⟩ ⟨limit, .statement s, m⟩
  | programNext {limit s more carried m n} : execute limit s m = (.ok carried, n) →
      Starts ⟨limit, .program (s :: more), m⟩ ⟨limit, .program more, n⟩

/-- That an evaluation stops by itself, and not because of one that it started. -/
inductive Point.Raises : Point → Stop → Prop where
  | undefinedVariable {limit p name m} : m.env.vars.get? name = none →
      Raises ⟨limit, .expression (.identifier p name), m⟩ (.error ⟨.undefinedVariable name, p⟩)
  | operate {limit p operator left right a b cause m n k} :
      evaluate limit left m = (.ok a, n) → evaluate limit right n = (.ok b, k) →
      Value.operate operator a b = .error cause →
      Raises ⟨limit, .expression (.binary p operator left right), m⟩ (.error ⟨cause, p⟩)
  | printArity {limit p args m} : args.length ≠ 1 →
      Raises ⟨limit, .expression (.functionCall p "print" args), m⟩ (.error ⟨.printArity, p⟩)
  | undefinedFunction {limit p name args m} : name ≠ "print" → m.env.functions.get? name = none →
      Raises ⟨limit, .expression (.functionCall p name args), m⟩
        (.error ⟨.undefinedFunction name, p⟩)
  | functionArity {limit p name args f m} : name ≠ "print" → m.env.functions.get? name = some f →
      args.length ≠ f.params.length →
      Raises ⟨limit, .expression (.functionCall p name args), m⟩
        (.error ⟨.functionArity name f.params.length args.length, p⟩)
  | callOnNonObject {limit p receiver method args v m n} : evaluate limit receiver m = (.ok v, n) →
      (∀ className fields, v ≠ .object className fields) →
      Raises ⟨limit, .expression (.methodCall p receiver method args), m⟩
        (.error ⟨.callOnNonObject, p⟩)
  | unknownClass {limit p receiver method args className fields m n} :
      evaluate limit receiver m = (.ok (.object className fields), n) →
      n.env.classes.get? className = none →
      Raises ⟨limit, .expression (.methodCall p receiver method args), m⟩
        (.error ⟨.classNotFound className, p⟩)
  | methodNotFound {limit p receiver method args decl className fields m n} :
      evaluate limit receiver m = (.ok (.object className fields), n) →
      n.env.classes.get? className = some decl →
      decl.methods.find? (·.signature.name = method) = none →
      Raises ⟨limit, .expression (.methodCall p receiver method args), m⟩
        (.error ⟨.methodNotFound method className, p⟩)
  | methodArity {limit p receiver method args decl routine className fields m n} :
      evaluate limit receiver m = (.ok (.object className fields), n) →
      n.env.classes.get? className = some decl →
      decl.methods.find? (·.signature.name = method) = some routine →
      args.length ≠ routine.signature.params.length →
      Raises ⟨limit, .expression (.methodCall p receiver method args), m⟩
        (.error ⟨.methodArity method routine.signature.params.length args.length, p⟩)
  | accessOnNonObject {limit p receiver field v m n} : evaluate limit receiver m = (.ok v, n) →
      (∀ className fields, v ≠ .object className fields) →
      Raises ⟨limit, .expression (.fieldAccess p receiver field), m⟩
        (.error ⟨.accessOnNonObject, p⟩)
  | fieldNotFound {limit p receiver className fields field m n} :
      evaluate limit receiver m = (.ok (.object className fields), n) →
      fields.get? field = none →
      Raises ⟨limit, .expression (.fieldAccess p receiver field), m⟩
        (.error ⟨.fieldNotFound field, p⟩)
  | createdUnknownClass {limit p args className m} : m.env.classes.get? className = none →
      Raises ⟨limit, .expression (.creation p className args), m⟩
        (.error ⟨.classNotFound className, p⟩)
  | argumentMismatch {limit arg args v param params m n} :
      evaluate limit arg m = (.ok v, n) → v.fits param.type.type = false →
      Raises ⟨limit, .checkedBindings (param :: params) (arg :: args), m⟩
        (.error ⟨.argumentMismatch param.name param.type.type v.kindName, arg.position⟩)
  | functionTooDeep {args f m n} : bindCheckedWith (bodyWithin 0) f.params args m = (.ok (), n) →
      Raises ⟨0, .functionFrame f args, m⟩ .tooDeep
  | methodTooDeep {args routine this m n} : bindWith (bodyWithin 0) routine.signature.params args
        { m with env := m.env.defineVariable "this" this } = (.ok (), n) →
      Raises ⟨0, .methodFrame this routine args, m⟩ .tooDeep
  | declarationMismatch {limit p name value v type m n} :
      evaluate limit value m = (.ok v, n) → v.fits type.type = false →
      Raises ⟨limit, .statement (.declaration p type name value), m⟩
        (.error ⟨.declarationMismatch type.type v.kindName, p⟩)
  | unsupportedTarget {limit p target value m} : (∀ q name, target ≠ .identifier q name) →
      Raises ⟨limit, .statement (.assignment p target value), m⟩
        (.error ⟨.unsupportedTarget, p⟩)

section Origin

variable {α β : Type} {limit : Nat} {m : Machine} {stop : Stop}

private theorem bind_error {x : Evaluation α} {f : α → Evaluation β}
    (h : ((x >>= f) m).1 = .error stop) :
    (x m).1 = .error stop ∨ ∃ a n, x m = (.ok a, n) ∧ (f a n).1 = .error stop := by
  rw [Attempt.bind_apply] at h
  rcases hx : x m with ⟨stop' | a, n⟩
  · rw [hx] at h
    obtain rfl := Except.error.inj h
    exact .inl rfl
  · rw [hx] at h
    exact .inr ⟨a, n, rfl, h⟩

private theorem error_bind {x : Evaluation α} {f : α → Evaluation β}
    (h : (x m).1 = .error stop) : ((x >>= f) m).1 = .error stop := by
  rw [Attempt.bind_apply]
  rcases hx : x m with ⟨stop' | a, n⟩
  · rw [hx] at h
    exact congrArg Except.error (Except.error.inj h)
  · rw [hx] at h
    cases h

private theorem map_error {x : Evaluation α} {f : α → β} :
    ((f <$> x) m).1 = .error stop ↔ (x m).1 = .error stop := by
  rw [map_eq_pure_bind, Attempt.bind_apply]
  rcases x m with ⟨stop' | a, n⟩ <;> simp

private theorem raise_error {cause : EvalCause} {p : Position}
    (h : (raise (α := α) cause p m).1 = .error stop) : stop = .error ⟨cause, p⟩ :=
  (Except.error.inj h).symm

/-- That a point stops by itself, or because of an evaluation that it starts. -/
def Point.Stops (a : Point) (stop : Stop) : Prop :=
  a.Raises stop ∨ ∃ b, a.Starts b ∧ b.outcome.1 = .error stop

private theorem stops_of_expression {a : Point} {e : Expr} {n : Machine}
    (start : a.Starts ⟨limit, .expression e, n⟩) (h : (evaluate limit e n).1 = .error stop) :
    a.Stops stop :=
  .inr ⟨_, start, map_error.mpr h⟩

private theorem stops_print {p : Position} {args : List Expr}
    (h : (evaluate limit (.functionCall p "print" args) m).1 = .error stop) :
    Point.Stops ⟨limit, .expression (.functionCall p "print" args), m⟩ stop := by
  unfold evaluate at h
  rw [evaluateWith_print] at h
  match args, h with
  | [], h | _ :: _ :: _, h =>
    obtain rfl := raise_error h
    exact .inl (.printArity (by simp))
  | [arg], h =>
    simp only [evaluateSoleWith, bind_map_left] at h
    obtain h | ⟨v, n, -, h⟩ := bind_error h
    · exact stops_of_expression .printed h
    · cases h

private theorem stops_functionCall {p : Position} {name : String} {args : List Expr}
    (other : name ≠ "print")
    (h : (evaluate limit (.functionCall p name args) m).1 = .error stop) :
    Point.Stops ⟨limit, .expression (.functionCall p name args), m⟩ stop := by
  unfold evaluate at h
  cases found : m.env.functions.get? name with
  | none =>
    rw [functionCall_undefined other found] at h
    obtain rfl := raise_error h
    exact .inl (.undefinedFunction other found)
  | some f =>
    by_cases equal : args.length = f.params.length
    · rw [functionCall_found other found equal,
        inFrame_apply (leaves_functionFrame (leaves_bodyWithin limit) f args)] at h
      exact .inr ⟨_, .functionFrame other found equal, map_error.mpr h⟩
    · rw [functionCall_arity other found equal] at h
      obtain rfl := raise_error h
      exact .inl (.functionArity other found equal)

private theorem stops_methodCall {p : Position} {receiver : Expr} {method : String}
    {args : List Expr}
    (h : (evaluate limit (.methodCall p receiver method args) m).1 = .error stop) :
    Point.Stops ⟨limit, .expression (.methodCall p receiver method args), m⟩ stop := by
  unfold evaluate at h
  rcases hr : evaluateWith (bodyWithin limit) receiver m with ⟨stop' | this, n⟩
  · rw [methodCall_error hr] at h
    refine stops_of_expression .receiver ?_
    rw [evaluate, hr]
    exact h
  · by_cases object : ∃ className fields, this = .object className fields
    · obtain ⟨className, fields, rfl⟩ := object
      cases found : n.env.classes.get? className with
      | none =>
        rw [methodCall_unknownClass hr found] at h
        obtain rfl := raise_error h
        exact .inl (.unknownClass hr found)
      | some decl =>
        cases named : decl.methods.find? (·.signature.name = method) with
        | none =>
          rw [methodCall_unknown hr found named] at h
          obtain rfl := raise_error h
          exact .inl (.methodNotFound hr found named)
        | some routine =>
          by_cases equal : args.length = routine.signature.params.length
          · rw [methodCall_found hr found named equal,
              inFrame_apply (leaves_methodFrame (leaves_bodyWithin limit) _ routine args)] at h
            exact .inr ⟨_, .methodFrame hr found named equal, map_error.mpr h⟩
          · rw [methodCall_arity hr found named equal] at h
            obtain rfl := raise_error h
            exact .inl (.methodArity hr found named equal)
    · have other : ∀ className fields, this ≠ .object className fields :=
        fun className fields same => object ⟨className, fields, same⟩
      rw [methodCall_other hr other] at h
      obtain rfl := raise_error h
      exact .inl (.callOnNonObject hr other)

private theorem stops_expression {e : Expr} (h : (evaluate limit e m).1 = .error stop) :
    Point.Stops ⟨limit, .expression e, m⟩ stop := by
  cases e with
  | integer | string | template => cases h
  | identifier p name =>
    simp only [evaluate, evaluateWith, environment_bind] at h
    cases found : m.env.vars.get? name with
    | some v =>
      rw [found] at h
      cases h
    | none =>
      rw [found] at h
      obtain rfl := raise_error h
      exact .inl (.undefinedVariable found)
  | binary p operator left right =>
    simp only [evaluate, evaluateWith] at h
    obtain h | ⟨a, n, ha, h⟩ := bind_error h
    · exact stops_of_expression .left h
    obtain h | ⟨b, k, hb, h⟩ := bind_error h
    · exact stops_of_expression (.right ha) h
    cases result : Value.operate operator a b with
    | ok v =>
      rw [result] at h
      cases h
    | error cause =>
      rw [result] at h
      obtain rfl := raise_error h
      exact .inl (.operate ha hb result)
  | functionCall p name args =>
    by_cases print : name = "print"
    · subst print
      exact stops_print h
    · exact stops_functionCall print h
  | methodCall p receiver method args => exact stops_methodCall h
  | fieldAccess p receiver field =>
    simp only [evaluate, evaluateWith] at h
    obtain h | ⟨object, n, ho, h⟩ := bind_error h
    · exact stops_of_expression .accessed h
    cases object with
    | object className fields =>
      cases found : fields.get? field with
      | some v =>
        simp only [found] at h
        cases h
      | none =>
        simp only [found] at h
        obtain rfl := raise_error h
        exact .inl (.fieldNotFound ho found)
    | _ =>
      obtain rfl := raise_error h
      exact .inl (.accessOnNonObject ho (by simp))
  | creation p className args =>
    simp only [evaluate, evaluateWith, environment_bind] at h
    cases found : m.env.classes.get? className with
    | some decl =>
      rw [found] at h
      cases h
    | none =>
      rw [found] at h
      obtain rfl := raise_error h
      exact .inl (.createdUnknownClass found)

private theorem stops_functionFrame {f : Callable} {args : List Expr}
    (h : (functionFrame (bodyWithin limit) f args m).1 = .error stop) :
    Point.Stops ⟨limit, .functionFrame f args, m⟩ stop := by
  unfold functionFrame at h
  obtain h | ⟨⟨⟩, n, bound, h⟩ := bind_error h
  · exact .inr ⟨_, .checkedBindings, error_bind h⟩
  · obtain h | ⟨v, k, -, h⟩ := bind_error h
    · cases limit with
      | zero =>
        obtain rfl := Except.error.inj h
        exact .inl (.functionTooDeep bound)
      | succ limit => exact .inr ⟨_, .functionBody bound, h⟩
    · cases h

private theorem stops_methodFrame {this : Value} {routine : Routine} {args : List Expr}
    (h : (methodFrame (bodyWithin limit) this routine args m).1 = .error stop) :
    Point.Stops ⟨limit, .methodFrame this routine args, m⟩ stop := by
  unfold methodFrame at h
  obtain h | ⟨⟨⟩, _, opened, h⟩ := bind_error h
  · cases h
  obtain ⟨-, rfl⟩ := Prod.mk.inj opened
  obtain h | ⟨⟨⟩, n, bound, h⟩ := bind_error h
  · exact .inr ⟨_, .bindings, error_bind h⟩
  · obtain h | ⟨v, k, -, h⟩ := bind_error h
    · cases limit with
      | zero =>
        obtain rfl := Except.error.inj h
        exact .inl (.methodTooDeep bound)
      | succ limit => exact .inr ⟨_, .methodBody bound, h⟩
    · cases h

private theorem stops_checkedBindings {params : List Param} {args : List Expr}
    (h : (bindCheckedWith (bodyWithin limit) params args m).1 = .error stop) :
    Point.Stops ⟨limit, .checkedBindings params args, m⟩ stop := by
  match params, args, h with
  | [], _, h | _ :: _, [], h => simp [bindCheckedWith] at h
  | param :: params, arg :: args, h =>
    simp only [bindCheckedWith] at h
    obtain h | ⟨v, n, hv, h⟩ := bind_error h
    · exact stops_of_expression .checkedArg h
    · split at h
      · rename_i fits
        exact .inr ⟨_, .checkedRest hv fits, error_bind h⟩
      · rename_i unfit
        obtain rfl := raise_error h
        exact .inl (.argumentMismatch hv (Bool.eq_false_iff.mpr unfit))

private theorem stops_bindings {params : List Param} {args : List Expr}
    (h : (bindWith (bodyWithin limit) params args m).1 = .error stop) :
    Point.Stops ⟨limit, .bindings params args, m⟩ stop := by
  match params, args, h with
  | [], _, h | _ :: _, [], h => simp [bindWith] at h
  | param :: params, arg :: args, h =>
    simp only [bindWith] at h
    obtain h | ⟨v, n, hv, h⟩ := bind_error h
    · exact stops_of_expression .arg h
    · exact .inr ⟨_, .rest hv, error_bind h⟩

private theorem stops_statement {s : Stmt} (h : (execute limit s m).1 = .error stop) :
    Point.Stops ⟨limit, .statement s, m⟩ stop := by
  cases s with
  | declaration p type name value =>
    simp only [execute, executeWith] at h
    obtain h | ⟨v, n, hv, h⟩ := bind_error h
    · exact stops_of_expression .declared h
    · split at h
      · cases h
      · rename_i unfit
        obtain rfl := raise_error h
        exact .inl (.declarationMismatch hv (Bool.eq_false_iff.mpr unfit))
  | expression p e =>
    simp only [execute, executeWith] at h
    exact stops_of_expression .carried (map_error.mp h)
  | conditional p condition thenBody elseBody =>
    simp only [execute, executeWith] at h
    obtain h | ⟨v, n, hv, h⟩ := bind_error h
    · exact stops_of_expression .condition h
    · split at h
      · rename_i truthy
        exact .inr ⟨_, .thenBranch hv truthy, h⟩
      · rename_i falsy
        cases elseBody with
        | none => cases h
        | some body =>
          simp only [executeElseWith] at h
          exact .inr ⟨_, .elseBranch hv (Bool.eq_false_iff.mpr falsy), h⟩
  | assignment p target value =>
    by_cases simple : ∃ q name, target = .identifier q name
    · obtain ⟨q, name, rfl⟩ := simple
      simp only [execute, executeWith] at h
      obtain h | ⟨v, n, -, h⟩ := bind_error h
      · exact stops_of_expression .assigned h
      · cases h
    · have other : ∀ q name, target ≠ .identifier q name :=
        fun q name same => simple ⟨q, name, same⟩
      rw [execute, executeWith_assignment_other other] at h
      obtain h | ⟨v, n, -, h⟩ := bind_error h
      · exact stops_of_expression .assigned h
      · obtain rfl := raise_error h
        exact .inl (.unsupportedTarget other)
  | function routine =>
    obtain ⟨head, body⟩ := routine
    cases h
  | classDecl decl => cases h
  | interfaceDecl decl => cases h

private theorem stops_block {body : List Stmt}
    (h : (executeBlockWith (bodyWithin limit) body m).1 = .error stop) :
    Point.Stops ⟨limit, .block body, m⟩ stop := by
  cases body with
  | nil => cases h
  | cons s more =>
    simp only [executeBlockWith] at h
    obtain h | ⟨carried, n, hs, h⟩ := bind_error h
    · exact .inr ⟨_, .first, h⟩
    · cases carried with
      | some v => cases h
      | none => exact .inr ⟨_, .next hs, h⟩

private theorem stops_program {statements : List Stmt}
    (h : (interpretWith (bodyWithin limit) statements m).1 = .error stop) :
    Point.Stops ⟨limit, .program statements, m⟩ stop := by
  cases statements with
  | nil => cases h
  | cons s more =>
    simp only [interpretWith, discard, Functor.discard, map_const, Function.comp_apply,
      bind_map_left] at h
    obtain h | ⟨carried, n, hs, h⟩ := bind_error h
    · exact .inr ⟨_, .programFirst, h⟩
    · exact .inr ⟨_, .programNext hs, error_bind h⟩

/-- An evaluation that ends with an error raised it by itself, or started one that ends with it. -/
theorem Point.stops_of_error {a : Point} (h : a.outcome.1 = .error stop) : a.Stops stop := by
  obtain ⟨limit, task, m⟩ := a
  have unit_error {x : Evaluation Unit}
      (h : ((do x; return (none : Option Value)) m).1 = .error stop) : (x m).1 = .error stop := by
    obtain h | ⟨⟨⟩, n, -, h⟩ := bind_error h
    · exact h
    · cases h
  cases task with
  | expression e => exact stops_expression (map_error.mp h)
  | functionFrame f args => exact stops_functionFrame (map_error.mp h)
  | methodFrame this routine args => exact stops_methodFrame (map_error.mp h)
  | checkedBindings params args => exact stops_checkedBindings (unit_error h)
  | bindings params args => exact stops_bindings (unit_error h)
  | statement s => exact stops_statement h
  | block body => exact stops_block h
  | program statements => exact stops_program (unit_error h)

theorem Point.Starts.decreases {a b : Point} (h : a.Starts b) :
    b.limit < a.limit ∨ b.limit = a.limit ∧ b.task.weight < a.task.weight := by
  have args (e : Expr) (more : List Expr) :
      (argNodes (e :: more)).length = e.nodes.length + (argNodes more).length := by
    rw [argNodes, List.length_append]
  have block (s : Stmt) (more : List Stmt) :
      (blockNodes (s :: more)).length = s.nodes.length + (blockNodes more).length := by
    rw [blockNodes, List.length_append]
  cases h with
  | functionBody | methodBody => exact .inl (Nat.lt_succ_self _)
  | @checkedRest _ arg | @rest _ arg =>
    have := arg.length_nodes_pos
    refine .inr ⟨rfl, ?_⟩
    simp only [Task.weight, args]
    omega
  | @next _ s | @programNext _ s =>
    have := s.length_nodes_pos
    refine .inr ⟨rfl, ?_⟩
    simp only [Task.weight, block]
    omega
  | _ =>
    refine .inr ⟨rfl, ?_⟩
    simp only [Task.weight, Expr.nodes, argNodes, Stmt.nodes, elseNodes, block,
      List.length_cons, List.length_append, List.length_nil]
    omega

/-- A run reaches the points that are started at its own point, and those that they reach. -/
abbrev Point.Reaches : Point → Point → Prop :=
  Relation.ReflTransGen Point.Starts

/-- An error has an origin: a point reached in the run where it was raised. -/
theorem Point.exists_raises {a : Point} (h : a.outcome.1 = .error stop) :
    ∃ b, a.Reaches b ∧ b.Raises stop := by
  obtain raised | ⟨b, starts, stopped⟩ := stops_of_error h
  · exact ⟨a, .refl, raised⟩
  · obtain ⟨c, reaches, raised⟩ := exists_raises stopped
    exact ⟨c, .head starts reaches, raised⟩
termination_by (a.limit, a.task.weight)
decreasing_by
  have := starts.decreases
  simp only [Prod.lex_def]
  omega

theorem exists_raises_of_interpret {p : Program}
    (h : (interpret limit p .initial).1 = .error stop) :
    ∃ a, (Point.start limit p).Reaches a ∧ a.Raises stop :=
  Point.exists_raises (error_bind h)

end Origin

end Evaluation

end ScriptLang
