import ScriptLang.Proofs.Evaluation.Point
import ScriptLang.Proofs.Evaluation.Soundness

/-!
What holds at every point of a run. A run begins on a machine that holds plain values and on the
code of its program, and every evaluation hands both on to those that it starts and to those that
follow it. So at every point of a run the values are plain, the classes of all objects are known,
and the code is code of the program.
-/

set_option autoImplicit false
set_option relaxedAutoImplicit false

namespace ScriptLang

open Machine

namespace Evaluation

private theorem operateInts_eq_error {operator : Operator} {m n : Int64} {cause : EvalCause}
    (h : Value.operateInts operator m n = .error cause) :
    cause = .divisionByZero ∨
      ∃ sign, operator = .unknown sign ∧ cause = .unsupportedOperator sign := by
  cases operator with
  | divide =>
    simp only [Value.operateInts] at h
    split at h
    · exact .inl (Except.error.inj h).symm
    · cases h
  | unknown sign => exact .inr ⟨sign, rfl, (Except.error.inj h).symm⟩
  | _ => cases h

theorem operate_eq_error {operator : Operator} {v w : Value} {cause : EvalCause}
    (h : Value.operate operator v w = .error cause) :
    (∃ left right, cause = .operandMismatch operator left right) ∨ cause = .divisionByZero ∨
      ∃ sign, operator = .unknown sign ∧ cause = .unsupportedOperator sign := by
  unfold Value.operate at h
  split at h
  · cases h
  · cases h
  · exact .inr (operateInts_eq_error h)
  · exact .inl ⟨_, _, (Except.error.inj h).symm⟩

/-- The values that a task holds apart from those on its machine. -/
def Task.values : Task → List Value
  | .methodFrame this _ _ => [this]
  | _ => []

structure Point.Good (P : Node → Prop) (a : Point) : Prop where
  machine : a.machine.Good P
  code : ∀ x ∈ a.task.nodes, P x
  values : ∀ v ∈ a.task.values, v.Plain a.machine.env.classes

variable {P : Node → Prop} {a b : Point}

theorem Point.good_start (limit : Nat) {p : Program} (code : ∀ x ∈ p.nodes, P x) :
    (Point.start limit p).Good P :=
  ⟨good_initial, code, List.forall_mem_nil _⟩

/-- A good point leaves a good machine, and yields a plain value if any. -/
theorem Point.Good.secures (good : a.Good P) :
    Secures P a.machine (a.task.run a.limit) Carries := by
  obtain ⟨limit, task, m⟩ := a
  obtain ⟨machine, code, values⟩ := good
  have hb := secureBodies_bodyWithin P limit
  have wrap (v : Value) (n : Machine) (plain : Yields v n) : Carries (some v) n := by
    rintro _ ⟨⟩
    exact plain
  have unit {x : Evaluation Unit} (h : Secures P m x fun _ _ => True) :
      Secures P m (do x; return none) Carries :=
    h.bind fun _ _ reached _ => secures_pure reached fun _ there => by cases there
  cases task with
  | expression e => exact (secures_evaluateWith hb e machine).map some wrap
  | functionFrame f args =>
    obtain ⟨-, body⟩ := List.forall_mem_append.mp code
    have bound := secures_bindCheckedWith hb f.params args machine
    exact (secures_functionFrame hb body bound).map some wrap
  | methodFrame this routine args =>
    obtain ⟨-, body⟩ := List.forall_mem_append.mp code
    have opened := machine.defineVariable "this" (values this (List.mem_singleton_self this))
    have bound := secures_bindWith hb routine.signature.params args opened
    exact (secures_methodFrame hb body bound).map some wrap
  | checkedBindings params args => exact unit (secures_bindCheckedWith hb params args machine)
  | bindings params args => exact unit (secures_bindWith hb params args machine)
  | statement s => exact secures_executeWith hb s code machine
  | block body => exact secures_executeBlockWith hb body code machine
  | program statements => exact unit (secures_interpretWith hb statements code machine)

private theorem good_of_evaluate {limit : Nat} {e : Expr} {m n : Machine} {v : Value}
    (machine : m.Good P) (h : evaluate limit e m = (.ok v, n)) :
    n.Good P ∧ v.Plain n.env.classes :=
  (secures_evaluateWith (secureBodies_bodyWithin P limit) e machine).reached h

theorem Point.Starts.good (h : a.Starts b) (good : a.Good P) : b.Good P := by
  obtain ⟨machine, code, values⟩ := good
  cases h with
  -- Each of these starts on the machine on which its point does.
  | left | printed | receiver | accessed | checkedArg | arg | declared | carried | condition
  | assigned | first | programFirst =>
    refine ⟨machine, fun x there => code x ?_, List.forall_mem_nil _⟩
    simp only [Task.nodes] at there
    simp [Task.nodes, Expr.nodes, argNodes, Stmt.nodes, blockNodes, there]
  | right h =>
    refine ⟨(good_of_evaluate machine h).1, fun x there => code x ?_, List.forall_mem_nil _⟩
    simp only [Task.nodes] at there
    simp [Task.nodes, Expr.nodes, there]
  | functionFrame other found equal =>
    refine ⟨(machine.record _).pushFrame, ?_, List.forall_mem_nil _⟩
    refine List.forall_mem_append.mpr ⟨fun x there => code x ?_, machine.holds.functions.get? found⟩
    simp [Task.nodes, Expr.nodes, there]
  | methodFrame hr found named equal =>
    obtain ⟨reached, plain⟩ := good_of_evaluate machine hr
    refine ⟨(reached.record _).pushFrame, ?_, List.forall_mem_singleton.mpr plain⟩
    refine List.forall_mem_append.mpr ⟨fun x there => code x ?_, reached.holds.method found named⟩
    simp [Task.nodes, Expr.nodes, there]
  | checkedBindings => exact ⟨machine, (List.forall_mem_append.mp code).1, List.forall_mem_nil _⟩
  | @functionBody limit args f m n h =>
    have hb := secureBodies_bodyWithin P (limit + 1)
    have bound := secures_bindCheckedWith hb f.params args machine
    exact ⟨(bound.reached h).1, (List.forall_mem_append.mp code).2, List.forall_mem_nil _⟩
  | bindings =>
    have plain := values _ (List.mem_singleton_self _)
    exact ⟨machine.defineVariable "this" plain, (List.forall_mem_append.mp code).1,
      List.forall_mem_nil _⟩
  | @methodBody limit args routine this m n h =>
    have plain := values _ (List.mem_singleton_self this)
    have hb := secureBodies_bodyWithin P (limit + 1)
    have opened := machine.defineVariable "this" plain
    have bound := secures_bindWith hb routine.signature.params args opened
    exact ⟨(bound.reached h).1, (List.forall_mem_append.mp code).2, List.forall_mem_nil _⟩
  | checkedRest h _ | rest h =>
    obtain ⟨reached, plain⟩ := good_of_evaluate machine h
    refine ⟨reached.defineVariable _ plain, fun x there => code x ?_, List.forall_mem_nil _⟩
    simp only [Task.nodes] at there
    simp [Task.nodes, argNodes, there]
  | thenBranch h _ | elseBranch h _ =>
    refine ⟨(good_of_evaluate machine h).1, fun x there => code x ?_, List.forall_mem_nil _⟩
    simp only [Task.nodes] at there
    simp [Task.nodes, Stmt.nodes, elseNodes, there]
  | @next limit s more m n h | @programNext limit s more _ m n h =>
    obtain ⟨first, others⟩ : (∀ x ∈ s.nodes, P x) ∧ ∀ x ∈ blockNodes more, P x := by
      simpa only [Task.nodes, blockNodes, List.forall_mem_append] using code
    have executed := secures_executeWith (secureBodies_bodyWithin P limit) s first machine
    exact ⟨(executed.reached h).1, others, List.forall_mem_nil _⟩

theorem Point.Reaches.good (h : a.Reaches b) (good : a.Good P) : b.Good P := by
  induction h with
  | refl => exact good
  | tail _ starts ih => exact starts.good ih

private theorem Point.Good.isSome_class {limit : Nat} {position : Position} {receiver : Expr}
    {method className : String} {args : List Expr} {m n : Machine} {fields : Table Value}
    (good : Point.Good P ⟨limit, .expression (.methodCall position receiver method args), m⟩)
    (h : evaluate limit receiver m = (.ok (.object className fields), n)) :
    (n.env.classes.get? className).isSome :=
  (good_of_evaluate good.machine h).2.1

private theorem Point.Good.creation_of_raises (good : a.Good P) {className : String}
    {position : Position} (h : a.Raises (.error ⟨.classNotFound className, position⟩)) :
    ∃ args, a.task = .expression (.creation position className args) ∧
      a.machine.env.classes.get? className = none := by
  cases h with
  | operate _ _ result =>
    obtain ⟨_, _, other⟩ | other | ⟨_, _, other⟩ := operate_eq_error result <;> cases other
  | unknownClass hr missing =>
    have known := good.isSome_class hr
    rw [missing] at known
    cases known
  | createdUnknownClass missing => exact ⟨_, rfl, missing⟩

/-- What a run holds. At every point that a run reaches, on the machine with which an evaluation
starts and on the one that it leaves, with a value or an error, the variables and the saved
variables are plain and classes are stored under their names; the values that are yielded are plain
too. A method call finds the class of its receiver, and if a class is not found in a run then where
an object of it was to be created. -/
theorem plain_of_reached (limit : Nat) (p : Program) :
    (∀ a, (Point.start limit p).Reaches a →
        a.machine.env.Sound ∧ a.outcome.2.env.Sound ∧
          ∀ v n, a.outcome = (.ok (some v), n) → v.Plain n.env.classes) ∧
      (∀ within position receiver method args m className fields n,
        (Point.start limit p).Reaches
            ⟨within, .expression (.methodCall position receiver method args), m⟩ →
          evaluate within receiver m = (.ok (.object className fields), n) →
            (n.env.classes.get? className).isSome) ∧
      ∀ className position n,
        interpret limit p .initial = (.error (.error ⟨.classNotFound className, position⟩), n) →
          ∃ within args m,
            (Point.start limit p).Reaches
              ⟨within, .expression (.creation position className args), m⟩ ∧
            m.env.classes.get? className = none := by
  have start : (Point.start limit p).Good fun _ => True := Point.good_start limit fun _ _ => trivial
  refine ⟨fun a reached => ?_, ?_, ?_⟩
  · have good := reached.good start
    refine ⟨good.machine.sound, good.secures.good.sound, fun v n ended => ?_⟩
    exact good.secures.yields ended v rfl
  · intro within position receiver method args m className fields n reached h
    exact (reached.good start).isSome_class h
  · intro className position n h
    obtain ⟨a, reached, raised⟩ := exists_raises_of_interpret (congrArg Prod.fst h)
    obtain ⟨args, task, missing⟩ := (reached.good start).creation_of_raises raised
    obtain ⟨within, _, m⟩ := a
    obtain rfl : _ = Task.expression _ := task
    exact ⟨within, args, m, reached, missing⟩

/-- A run in which a method is called on a new object and then a class is not found. -/
theorem plain_of_reached_unknown_class :
    let nowhere : Position := ⟨0, 0⟩
    let shown : Stmt :=
      .expression nowhere (.fieldAccess nowhere (.identifier nowhere "this") "size")
    let box : ClassDecl := ⟨nowhere, "Box", none, [⟨nowhere, "size", ⟨nowhere, .int⟩⟩],
      [⟨⟨nowhere, "show", [], ⟨nowhere, .int⟩⟩, [shown]⟩]⟩
    let created : Expr := .creation nowhere "Box" []
    let called : Expr := .methodCall nowhere created "show" []
    let p : Program :=
      ⟨[.classDecl box, .expression nowhere called,
        .expression nowhere (.creation nowhere "Crate" [])]⟩
    let defined := (execute 1 (.classDecl box) .initial).2
    let left := (interpret 1 p .initial).2
    (Point.start 1 p).Reaches ⟨1, .expression called, defined⟩ ∧
      evaluate 1 created defined = (.ok (.newObject "Box" box), defined) ∧
      (defined.env.classes.get? "Box").isSome ∧
      interpret 1 p .initial = (.error (.error ⟨.classNotFound "Crate", nowhere⟩), left) ∧
      left.env.Sound ∧
      ∃ within args m,
        (Point.start 1 p).Reaches ⟨within, .expression (.creation nowhere "Crate" args), m⟩ ∧
        m.env.classes.get? "Crate" = none := by
  intro nowhere shown box created called p defined left
  have reached : (Point.start 1 p).Reaches ⟨1, .expression called, defined⟩ :=
    .tail (.tail (.single (.programNext rfl)) .programFirst) .carried
  have evaluated : evaluate 1 created defined = (.ok (.newObject "Box" box), defined) := rfl
  have failed : interpret 1 p .initial =
    (.error (.error ⟨.classNotFound "Crate", nowhere⟩), left) := rfl
  obtain ⟨sound, known, origin⟩ := plain_of_reached 1 p
  exact ⟨reached, evaluated, known _ _ _ _ _ _ _ _ _ reached evaluated, failed,
    (sound _ .refl).2.1, origin _ _ _ failed⟩

end Evaluation

end ScriptLang
