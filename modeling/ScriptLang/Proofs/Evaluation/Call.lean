import ScriptLang.Proofs.Evaluation.Scope

/-!
What a call does, step by step: it looks up what is called, compares the numbers of arguments and
parameters, and runs the body in a frame. The equations here tell each outcome of an expression from
the outcomes of its parts, so that later proofs need not open the evaluation of calls again.
-/

set_option autoImplicit false
set_option relaxedAutoImplicit false

namespace ScriptLang

open Machine

namespace Evaluation

@[simp] theorem environment_bind {α : Type} (f : Environment → Evaluation α) (m : Machine) :
    (environment >>= f) m = f m.env m := rfl

section Open

variable (bodyOf : List Stmt → Evaluation (Option Value))

def functionFrame (f : Callable) (args : List Expr) : Evaluation Value := do
  bindCheckedWith bodyOf f.params args
  return (← bodyOf f.body).getD (.zero f.returns.type)

def methodFrame (this : Value) (m : Routine) (args : List Expr) : Evaluation Value := do
  defineVariable "this" this
  bindWith bodyOf m.signature.params args
  return (← bodyOf m.body).getD (.zero m.signature.returns.type)

variable {bodyOf}

theorem leaves_functionFrame (hb : ∀ body, Leaves KeepsFrames (bodyOf body)) (f : Callable)
    (args : List Expr) : Leaves KeepsFrames (functionFrame bodyOf f args) := by
  refine (leaves_bindCheckedWith hb f.params args).bind fun _ => ?_
  exact (hb f.body).bind fun _ => leaves_pure _

theorem leaves_methodFrame (hb : ∀ body, Leaves KeepsFrames (bodyOf body)) (this : Value)
    (m : Routine) (args : List Expr) : Leaves KeepsFrames (methodFrame bodyOf this m args) := by
  refine (leaves_defineVariable_frames _ _).bind fun _ => ?_
  refine (leaves_bindWith hb m.signature.params args).bind fun _ => ?_
  exact (hb m.body).bind fun _ => leaves_pure _

variable {position : Position} {name className method field : String} {args : List Expr}
  {receiver : Expr} {m n : Machine} {f : Callable} {decl : ClassDecl} {routine : Routine}
  {fields : Table Value} {v : Value}

theorem binary_of_operands {operator : Operator} {left right : Expr} {a b : Value} {k : Machine}
    (first : evaluateWith bodyOf left m = (.ok a, n))
    (second : evaluateWith bodyOf right n = (.ok b, k)) :
    evaluateWith bodyOf (.binary position operator left right) m =
      ((Value.operate operator a b).mapError fun cause => .error ⟨cause, position⟩, k) := by
  rw [evaluateWith, Attempt.bind_apply_ok first, Attempt.bind_apply_ok second]
  cases Value.operate operator a b <;> rfl

theorem evaluateWith_print :
    evaluateWith bodyOf (.functionCall position "print" args) = (do
      match ← evaluateSoleWith bodyOf args with
      | some v =>
        printLine v.display
        return .string ""
      | none => raise .printArity position) := by
  unfold evaluateWith
  exact if_pos rfl

theorem functionCall_undefined (other : name ≠ "print")
    (missing : m.env.functions.get? name = none) :
    evaluateWith bodyOf (.functionCall position name args) m =
      raise (.undefinedFunction name) position m := by
  rw [evaluateWith, if_neg other, environment_bind, missing]

theorem functionCall_arity (other : name ≠ "print") (found : m.env.functions.get? name = some f)
    (unequal : args.length ≠ f.params.length) :
    evaluateWith bodyOf (.functionCall position name args) m =
      raise (.functionArity name f.params.length args.length) position m := by
  rw [evaluateWith, if_neg other, environment_bind, found]
  exact congrFun (if_pos unequal) m

theorem functionCall_found (other : name ≠ "print") (found : m.env.functions.get? name = some f)
    (equal : args.length = f.params.length) :
    evaluateWith bodyOf (.functionCall position name args) m =
      inFrame (functionFrame bodyOf f args) (m.record (.callFunction name m.env.depth)) := by
  rw [evaluateWith, if_neg other, environment_bind, found]
  exact congrFun (if_neg fun unequal => unequal equal) m

theorem methodCall_error {stop : Stop} (h : evaluateWith bodyOf receiver m = (.error stop, n)) :
    evaluateWith bodyOf (.methodCall position receiver method args) m = (.error stop, n) := by
  rw [evaluateWith]
  exact Attempt.bind_apply_error h

theorem methodCall_other (h : evaluateWith bodyOf receiver m = (.ok v, n))
    (other : ∀ className fields, v ≠ .object className fields) :
    evaluateWith bodyOf (.methodCall position receiver method args) m =
      raise .callOnNonObject position n := by
  rw [evaluateWith, Attempt.bind_apply_ok h]
  cases v with
  | object className fields => exact absurd rfl (other className fields)
  | _ => rfl

section Object

variable (h : evaluateWith bodyOf receiver m = (.ok (.object className fields), n))

include h

theorem methodCall_unknownClass (missing : n.env.classes.get? className = none) :
    evaluateWith bodyOf (.methodCall position receiver method args) m =
      raise (.classNotFound className) position n := by
  rw [evaluateWith, Attempt.bind_apply_ok h]
  dsimp only
  rw [environment_bind, missing]

theorem methodCall_unknown (found : n.env.classes.get? className = some decl)
    (missing : decl.methods.find? (·.signature.name = method) = none) :
    evaluateWith bodyOf (.methodCall position receiver method args) m =
      raise (.methodNotFound method className) position n := by
  rw [evaluateWith, Attempt.bind_apply_ok h]
  dsimp only
  rw [environment_bind, found]
  dsimp only
  rw [missing]

theorem methodCall_arity (found : n.env.classes.get? className = some decl)
    (named : decl.methods.find? (·.signature.name = method) = some routine)
    (unequal : args.length ≠ routine.signature.params.length) :
    evaluateWith bodyOf (.methodCall position receiver method args) m =
      raise (.methodArity method routine.signature.params.length args.length) position n := by
  rw [evaluateWith, Attempt.bind_apply_ok h]
  dsimp only
  rw [environment_bind, found]
  dsimp only
  rw [named]
  exact congrFun (if_pos unequal) n

theorem methodCall_found (found : n.env.classes.get? className = some decl)
    (named : decl.methods.find? (·.signature.name = method) = some routine)
    (equal : args.length = routine.signature.params.length) :
    evaluateWith bodyOf (.methodCall position receiver method args) m =
      inFrame (methodFrame bodyOf (.object className fields) routine args)
        (n.record (.callMethod className method n.env.depth)) := by
  rw [evaluateWith, Attempt.bind_apply_ok h]
  dsimp only
  rw [environment_bind, found]
  dsimp only
  rw [named]
  exact congrFun (if_neg fun unequal => unequal equal) n

end Object

theorem executeWith_assignment_other {target value : Expr}
    (other : ∀ p name, target ≠ .identifier p name) :
    executeWith bodyOf (.assignment position target value) = (do
      let _ ← evaluateWith bodyOf value
      raise .unsupportedTarget position) := by
  cases target with
  | identifier p own => exact absurd rfl (other p own)
  | _ => simp only [executeWith]

end Open

end Evaluation

end ScriptLang
