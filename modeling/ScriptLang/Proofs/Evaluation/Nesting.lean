import ScriptLang.Attempt
import ScriptLang.Proofs.Evaluation.Point

/-!
The trace of a run is well nested. Every call that is recorded opens a frame at once, every frame
that is opened is closed, also when an error leaves several at a time, and the depths that are
recorded are the numbers of frames open.
-/

set_option autoImplicit false
set_option relaxedAutoImplicit false

namespace ScriptLang

/-- The depth that the record of a call tells. -/
def Event.callDepth? : Event → Option Nat
  | callFunction _ depth | callMethod _ _ depth => some depth
  | defineFunction _ | defineClass _ | defineInterface _ | pushFrame _ _ | popFrame _
  | runFile _ => none

private theorem Event.origin_ne_of_callDepth? {e : Event} {depth : Nat}
    (h : e.callDepth? = some depth) : e.origin ≠ "exline.env" := by
  cases e with
  | callFunction | callMethod => simp [origin]
  | _ => cases h

/-- Records of frames that begin and end with `depth` frames open: each frame that is opened is
closed once, and both records tell the number of frames open while it is. -/
inductive Balanced : Nat → List Event → Prop where
  | none {depth : Nat} : Balanced depth []
  | frame {depth size : Nat} {inner rest : List Event} : Balanced (depth + 1) inner →
      Balanced depth rest →
      Balanced depth (.pushFrame (depth + 1) size :: (inner ++ .popFrame (depth + 1) :: rest))

/-- Records that are made after `before` and begin and end with `depth` frames open. A call is
recorded right before its frame is opened; `Calls` says on which machine it was made, and the frame
tells how many variables there were on it. -/
inductive Nested (Calls : Event → Machine → Prop) : List Event → Nat → List Event → Prop where
  | none {before : List Event} {depth : Nat} : Nested Calls before depth []
  | other {before rest : List Event} {depth : Nat} {e : Event} : e.origin ≠ "exline.env" →
      e.callDepth? = none → Nested Calls (before ++ [e]) depth rest →
      Nested Calls before depth (e :: rest)
  | call {inner rest : List Event} {call : Event} {caller : Machine} : Calls call caller →
      call.callDepth? = some caller.env.depth →
      Nested Calls
        (caller.trace.toList ++ [call, .pushFrame (caller.env.depth + 1) caller.env.vars.size])
        (caller.env.depth + 1) inner →
      Nested Calls
        (caller.trace.toList ++ call :: .pushFrame (caller.env.depth + 1) caller.env.vars.size ::
          (inner ++ [.popFrame (caller.env.depth + 1)]))
        caller.env.depth rest →
      Nested Calls caller.trace.toList caller.env.depth
        (call :: .pushFrame (caller.env.depth + 1) caller.env.vars.size ::
          (inner ++ .popFrame (caller.env.depth + 1) :: rest))

/-- How a record stands among those before and after it. -/
inductive Stands (Calls : Event → Machine → Prop) (before : List Event) :
    List Event → Event → List Event → Prop where
  | other {front back : List Event} {e : Event} : e.origin ≠ "exline.env" → e.callDepth? = none →
      Stands Calls before front e back
  | call {front back : List Event} {call : Event} {caller : Machine} : Calls call caller →
      caller.trace.toList = before ++ front → call.callDepth? = some caller.env.depth →
      Stands Calls before front call
        (.pushFrame (caller.env.depth + 1) caller.env.vars.size :: back)
  | push (front : List Event) {back : List Event} {call : Event} {depth size : Nat} :
      call.callDepth? = some depth →
      Stands Calls before (front ++ [call]) (.pushFrame (depth + 1) size) back
  | pop {front back : List Event} {depth : Nat} : Stands Calls before front (.popFrame depth) back

private theorem Stands.extend {Calls : Event → Machine → Prop} {before new front back : List Event}
    {e : Event} (h : Stands Calls (before ++ new) front e back) (behind : List Event) :
    Stands Calls before (new ++ front) e (back ++ behind) := by
  cases h with
  | other plain uncalled => exact .other plain uncalled
  | call made at' told => exact .call made (by simpa using at') told
  | push front told => simpa using Stands.push (new ++ front) told
  | pop => exact .pop

namespace Nested

variable {Calls More : Event → Machine → Prop} {before new more : List Event} {depth : Nat}

private theorem mono (h : Nested Calls before depth new) (imp : ∀ call caller, Calls call caller →
    More call caller) : Nested More before depth new := by
  induction h with
  | none => exact .none
  | other plain uncalled _ ih => exact .other plain uncalled ih
  | call made told _ _ ihInner ih => exact .call (imp _ _ made) told ihInner ih

private theorem append (h : Nested Calls before depth new)
    (h' : Nested Calls (before ++ new) depth more) : Nested Calls before depth (new ++ more) := by
  induction h with
  | none => simpa using h'
  | other plain uncalled _ ih =>
    exact .other plain uncalled (ih (by simpa using h'))
  | call made told inner _ _ ih =>
    have rest := ih (by simpa using h')
    simpa using Nested.call made told inner rest

private theorem balanced (h : Nested Calls before depth new) :
    Balanced depth (new.filter (·.origin = "exline.env")) := by
  induction h with
  | none => exact .none
  | other plain _ _ ih => simpa [plain] using ih
  | @call inner rest call caller _ told _ _ ihInner ih =>
    have plain : call.origin ≠ "exline.env" := Event.origin_ne_of_callDepth? told
    rw [List.filter_cons_of_neg (by simpa using plain), List.filter_cons_of_pos (by rfl),
      List.filter_append, List.filter_cons_of_pos (by rfl)]
    exact .frame ihInner ih

private theorem stands (h : Nested Calls before depth new) {front back : List Event} {e : Event}
    (split : new = front ++ e :: back) : Stands Calls before front e back := by
  induction h generalizing front back with
  | none => simp at split
  | @other before rest depth first plain uncalled _ ih =>
    cases front with
    | nil =>
      obtain ⟨rfl, rfl⟩ := List.cons.inj split
      exact .other plain uncalled
    | cons _ front =>
      obtain ⟨rfl, rfl⟩ := List.cons.inj split
      simpa using (ih rfl).extend []
  | @call inner rest call caller made told _ _ ihInner ih =>
    cases front with
    | nil =>
      obtain ⟨rfl, rfl⟩ := List.cons.inj split
      exact .call made (by simp) told
    | cons first front =>
      obtain ⟨rfl, behind⟩ := List.cons.inj split
      cases front with
      | nil =>
        obtain ⟨rfl, rfl⟩ := List.cons.inj behind
        exact .push [] told
      | cons second front =>
        obtain ⟨rfl, later⟩ := List.cons.inj behind
        -- Past the opening of the frame, the record is in the frame, at its end or behind it.
        obtain ⟨front, rfl, ended⟩ | ⟨ending, rfl, ended⟩ :=
          List.append_eq_append_iff.mp later
        · cases front with
          | nil =>
            obtain ⟨rfl, rfl⟩ := List.cons.inj ended
            exact .pop
          | cons _ front =>
            obtain ⟨rfl, rfl⟩ := List.cons.inj ended
            simpa using (ih rfl).extend []
        · cases ending with
          | nil =>
            obtain ⟨rfl, rfl⟩ := List.cons.inj ended
            exact .pop
          | cons _ ending =>
            obtain ⟨rfl, rfl⟩ := List.cons.inj ended
            simpa using (ihInner rfl).extend _

end Nested

namespace Machine

/-- What a computation adds to the trace is well nested, and it ends at the depth at which it
began. -/
def AddsNested (Calls : Event → Machine → Prop) (m n : Machine) : Prop :=
  n.env.depth = m.env.depth ∧ ∃ new, n.trace.toList = m.trace.toList ++ new ∧
    Nested Calls m.trace.toList m.env.depth new

variable {Calls More : Event → Machine → Prop} {m n : Machine}

private theorem AddsNested.mono (h : AddsNested Calls m n)
    (imp : ∀ call caller, Calls call caller → More call caller) : AddsNested More m n := by
  obtain ⟨depth, new, trace, nested⟩ := h
  exact ⟨depth, new, trace, nested.mono imp⟩

instance composes_addsNested (Calls : Event → Machine → Prop) : Composes (AddsNested Calls) where
  refl _ := ⟨rfl, [], by simp, .none⟩
  trans := by
    rintro a b c ⟨depth, new, trace, nested⟩ ⟨depth', new', trace', nested'⟩
    rw [trace, depth] at nested'
    exact ⟨depth'.trans depth, new ++ new', by simp [trace', trace], nested.append nested'⟩

private theorem addsNested_of_eq (frames : n.env.frames = m.env.frames)
    (trace : n.trace = m.trace) : AddsNested Calls m n :=
  ⟨congrArg List.length frames, [], by simp [trace], .none⟩

private theorem addsNested_record {e : Event} (plain : e.origin ≠ "exline.env")
    (uncalled : e.callDepth? = none) (frames : n.env.frames = m.env.frames)
    (trace : n.trace = m.trace.push e) : AddsNested Calls m n :=
  ⟨congrArg List.length frames, [e], by simp [trace], .other plain uncalled .none⟩

private theorem addsNested_restore {call : Event} (made : Calls call m)
    (told : call.callDepth? = some m.env.depth)
    (inside : AddsNested Calls (m.record call).pushFrame n) :
    AddsNested Calls m ((m.record call).restore n) := by
  obtain ⟨depth, inner, trace, nested⟩ := inside
  have opened : (m.record call).pushFrame.trace.toList =
      m.trace.toList ++ [call, .pushFrame (m.env.depth + 1) m.env.vars.size] := by
    simp [pushFrame, record, Environment.pushFrame, Environment.depth]
  have entered : (m.record call).pushFrame.env.depth = m.env.depth + 1 := rfl
  rw [opened, entered] at nested
  have closed : ((m.record call).restore n).trace.toList = m.trace.toList ++
      call :: .pushFrame (m.env.depth + 1) m.env.vars.size ::
        (inner ++ [.popFrame (m.env.depth + 1)]) := by
    change (n.trace.push (.popFrame n.env.depth)).toList = _
    rw [Array.toList_push, trace, opened, depth, entered]
    simp
  exact ⟨rfl, _, closed, .call made told nested .none⟩

end Machine

namespace Evaluation

open Machine

/-- The tasks that run in a frame of their own. -/
def Task.IsFrame : Task → Prop
  | .functionFrame _ _ | .methodFrame _ _ _ => True
  | _ => False

/-- That a run makes a call: it opens the frame of the call on the machine of the caller, right
after the record of the call. -/
def Point.Calls (a : Point) (call : Event) (caller : Machine) : Prop :=
  ∃ b, a.Reaches b ∧ b.task.IsFrame ∧ b.machine = (caller.record call).pushFrame

section Step

variable {α β : Type} {R : Machine → Machine → Prop} [Composes R]

private theorem related_bind {x : Evaluation α} {f : α → Evaluation β} {m : Machine}
    (first : R m (x m).2) (second : ∀ a n, x m = (.ok a, n) → R n (f a n).2) :
    R m ((x >>= f) m).2 := by
  rw [Attempt.bind_apply]
  rcases hx : x m with ⟨_ | a, n⟩
  · simpa [hx] using first
  · exact Composes.trans (by simpa [hx] using first) (second a n hx)

end Step

section Run

variable {limit : Nat} {m : Machine} {a : Point}

/-- What the evaluations that a point starts add to the trace is well nested. -/
def Point.StartsNested (a : Point) : Prop :=
  ∀ b, a.Starts b → AddsNested a.Calls b.machine b.outcome.2

private theorem adds_evaluate (ih : a.StartsNested) {e : Expr} {n : Machine}
    (start : a.Starts ⟨limit, .expression e, n⟩) :
    AddsNested a.Calls n (evaluate limit e n).2 := by
  simpa only [Point.outcome, Task.run, Attempt.map_apply] using ih _ start

private theorem adds_frame (ih : a.StartsNested) {b : Point} (start : a.Starts b)
    (frame : b.task.IsFrame) {call : Event} {caller : Machine}
    (told : call.callDepth? = some caller.env.depth)
    (opened : b.machine = (caller.record call).pushFrame) :
    AddsNested a.Calls caller ((caller.record call).restore b.outcome.2) :=
  addsNested_restore ⟨b, .single start, frame, opened⟩ told (opened ▸ ih b start)

private theorem adds_functionCall {p : Position} {name : String} {args : List Expr}
    (ih : Point.StartsNested ⟨limit, .expression (.functionCall p name args), m⟩) :
    AddsNested (Point.Calls ⟨limit, .expression (.functionCall p name args), m⟩) m
      (evaluate limit (.functionCall p name args) m).2 := by
  unfold evaluate
  by_cases print : name = "print"
  · subst print
    rw [evaluateWith_print]
    match args with
    | [] | _ :: _ :: _ => exact Composes.refl m
    | [arg] =>
      simp only [evaluateSoleWith, bind_map_left]
      refine related_bind (adds_evaluate ih .printed) fun v n _ => ?_
      exact addsNested_of_eq rfl rfl
  · cases found : m.env.functions.get? name with
    | none =>
      rw [functionCall_undefined print found]
      exact Composes.refl m
    | some f =>
      by_cases equal : args.length = f.params.length
      · -- The frame is closed whether its task ends with a value or an error.
        rw [functionCall_found print found equal,
          inFrame_apply (leaves_functionFrame (leaves_bodyWithin limit) f args)]
        have inside := adds_frame ih (.functionFrame print found equal) trivial rfl rfl
        simpa only [Point.outcome, Task.run, Attempt.map_apply] using inside
      · rw [functionCall_arity print found equal]
        exact Composes.refl m

private theorem adds_methodCall {p : Position} {receiver : Expr} {method : String}
    {args : List Expr}
    (ih : Point.StartsNested ⟨limit, .expression (.methodCall p receiver method args), m⟩) :
    AddsNested (Point.Calls ⟨limit, .expression (.methodCall p receiver method args), m⟩) m
      (evaluate limit (.methodCall p receiver method args) m).2 := by
  have first := adds_evaluate ih .receiver
  unfold evaluate at first ⊢
  rcases hr : evaluateWith (bodyWithin limit) receiver m with ⟨stop | this, n⟩
  · rw [hr] at first
    rwa [methodCall_error hr]
  · rw [hr] at first
    by_cases object : ∃ className fields, this = .object className fields
    · obtain ⟨className, fields, rfl⟩ := object
      cases found : n.env.classes.get? className with
      | none => rwa [methodCall_unknownClass hr found]
      | some decl =>
        cases named : decl.methods.find? (·.signature.name = method) with
        | none => rwa [methodCall_unknown hr found named]
        | some routine =>
          by_cases equal : args.length = routine.signature.params.length
          · rw [methodCall_found hr found named equal,
              inFrame_apply (leaves_methodFrame (leaves_bodyWithin limit) _ routine args)]
            have inside := adds_frame ih (.methodFrame hr found named equal) trivial rfl rfl
            refine Composes.trans first ?_
            simpa only [Point.outcome, Task.run, Attempt.map_apply] using inside
          · rwa [methodCall_arity hr found named equal]
    · have other : ∀ className fields, this ≠ .object className fields :=
        fun className fields same => object ⟨className, fields, same⟩
      rwa [methodCall_other hr other]

private theorem adds_expression {e : Expr}
    (ih : Point.StartsNested ⟨limit, .expression e, m⟩) :
    AddsNested (Point.Calls ⟨limit, .expression e, m⟩) m (evaluate limit e m).2 := by
  cases e with
  | integer | string | template => exact Composes.refl m
  | identifier p name =>
    simp only [evaluate, evaluateWith, environment_bind]
    cases m.env.vars.get? name <;> exact Composes.refl m
  | binary p operator left right =>
    simp only [evaluate, evaluateWith]
    refine related_bind (adds_evaluate ih .left) fun a n ha => ?_
    refine related_bind (adds_evaluate ih (.right ha)) fun b k _ => ?_
    cases Value.operate operator a b <;> exact Composes.refl k
  | functionCall => exact adds_functionCall ih
  | methodCall => exact adds_methodCall ih
  | fieldAccess p receiver field =>
    simp only [evaluate, evaluateWith]
    refine related_bind (adds_evaluate ih .accessed) fun object n _ => ?_
    cases object with
    | object className fields =>
      dsimp only
      cases fields.get? field <;> exact Composes.refl n
    | _ => exact Composes.refl n
  | creation p className args =>
    simp only [evaluate, evaluateWith, environment_bind]
    cases m.env.classes.get? className <;> exact Composes.refl m

private theorem snd_unit (x : Evaluation Unit) (m : Machine) :
    ((do x; return (none : Option Value)) m).2 = (x m).2 := by
  rw [bind_pure_comp, Attempt.map_apply]

private theorem adds_functionFrame {f : Callable} {args : List Expr}
    (ih : Point.StartsNested ⟨limit, .functionFrame f args, m⟩) :
    AddsNested (Point.Calls ⟨limit, .functionFrame f args, m⟩) m
      (functionFrame (bodyWithin limit) f args m).2 := by
  have first := ih _ .checkedBindings
  rw [Point.outcome, Task.run, snd_unit] at first
  refine related_bind first fun _ n bound => ?_
  rw [bind_pure_comp, Attempt.map_apply]
  cases limit with
  | zero => exact Composes.refl n
  | succ limit => exact ih _ (.functionBody bound)

private theorem adds_methodFrame {this : Value} {routine : Routine} {args : List Expr}
    (ih : Point.StartsNested ⟨limit, .methodFrame this routine args, m⟩) :
    AddsNested (Point.Calls ⟨limit, .methodFrame this routine args, m⟩) m
      (methodFrame (bodyWithin limit) this routine args m).2 := by
  have first := ih _ .bindings
  rw [Point.outcome, Task.run, snd_unit] at first
  refine related_bind (addsNested_of_eq rfl rfl) fun _ k opened => ?_
  obtain ⟨-, rfl⟩ := Prod.mk.inj opened
  refine related_bind first fun _ n bound => ?_
  rw [bind_pure_comp, Attempt.map_apply]
  cases limit with
  | zero => exact Composes.refl n
  | succ limit => exact ih _ (.methodBody bound)

private theorem adds_checkedBindings {params : List Param} {args : List Expr}
    (ih : Point.StartsNested ⟨limit, .checkedBindings params args, m⟩) :
    AddsNested (Point.Calls ⟨limit, .checkedBindings params args, m⟩) m
      (bindCheckedWith (bodyWithin limit) params args m).2 := by
  match params, args with
  | [], _ | _ :: _, [] =>
    simp only [bindCheckedWith]
    exact Composes.refl m
  | param :: params, arg :: args =>
    refine related_bind (adds_evaluate ih .checkedArg) fun v n hv => ?_
    by_cases fits : v.fits param.type.type
    · have rest := ih _ (.checkedRest hv fits)
      rw [Point.outcome, Task.run, snd_unit] at rest
      rw [if_pos fits]
      exact Composes.trans (addsNested_of_eq rfl rfl) rest
    · rw [if_neg fits]
      exact Composes.refl n

private theorem adds_bindings {params : List Param} {args : List Expr}
    (ih : Point.StartsNested ⟨limit, .bindings params args, m⟩) :
    AddsNested (Point.Calls ⟨limit, .bindings params args, m⟩) m
      (bindWith (bodyWithin limit) params args m).2 := by
  match params, args with
  | [], _ | _ :: _, [] =>
    simp only [bindWith]
    exact Composes.refl m
  | param :: params, arg :: args =>
    refine related_bind (adds_evaluate ih .arg) fun v n hv => ?_
    have rest := ih _ (.rest hv)
    rw [Point.outcome, Task.run, snd_unit] at rest
    exact Composes.trans (addsNested_of_eq rfl rfl) rest

private theorem adds_statement {s : Stmt} (ih : Point.StartsNested ⟨limit, .statement s, m⟩) :
    AddsNested (Point.Calls ⟨limit, .statement s, m⟩) m (execute limit s m).2 := by
  cases s with
  | declaration p type name value =>
    simp only [execute, executeWith]
    refine related_bind (adds_evaluate ih .declared) fun v n _ => ?_
    by_cases fits : v.fits type.type
    · rw [if_pos fits]
      exact addsNested_of_eq rfl rfl
    · rw [if_neg fits]
      exact Composes.refl n
  | expression p e =>
    simp only [execute, executeWith, Attempt.map_apply]
    exact adds_evaluate ih .carried
  | conditional p condition thenBody elseBody =>
    simp only [execute, executeWith]
    refine related_bind (adds_evaluate ih .condition) fun v n hv => ?_
    by_cases truthy : v.isTruthy
    · rw [if_pos truthy]
      exact ih _ (.thenBranch hv truthy)
    · rw [if_neg truthy]
      cases elseBody with
      | none => exact Composes.refl n
      | some body => exact ih _ (.elseBranch hv (Bool.eq_false_iff.mpr truthy))
  | assignment p target value =>
    simp only [execute, executeWith]
    refine related_bind (adds_evaluate ih .assigned) fun v n _ => ?_
    cases target with
    | identifier q name => exact addsNested_of_eq rfl rfl
    | _ => exact Composes.refl n
  | function routine =>
    obtain ⟨head, body⟩ := routine
    exact addsNested_record (e := .defineFunction head.name) (by simp [Event.origin]) rfl rfl rfl
  | classDecl decl =>
    exact addsNested_record (e := .defineClass decl.name) (by simp [Event.origin]) rfl rfl rfl
  | interfaceDecl decl =>
    exact addsNested_record (e := .defineInterface decl.name) (by simp [Event.origin]) rfl rfl rfl

private theorem adds_block {body : List Stmt} (ih : Point.StartsNested ⟨limit, .block body, m⟩) :
    AddsNested (Point.Calls ⟨limit, .block body, m⟩) m
      (executeBlockWith (bodyWithin limit) body m).2 := by
  cases body with
  | nil => exact Composes.refl m
  | cons s more =>
    refine related_bind (ih _ .first) fun carried n hs => ?_
    cases carried with
    | some v => exact Composes.refl n
    | none => exact ih _ (.next hs)

private theorem adds_program {body : List Stmt}
    (ih : Point.StartsNested ⟨limit, .program body, m⟩) :
    AddsNested (Point.Calls ⟨limit, .program body, m⟩) m
      (interpretWith (bodyWithin limit) body m).2 := by
  cases body with
  | nil => exact Composes.refl m
  | cons s more =>
    simp only [interpretWith, discard, Functor.discard, map_const, Function.comp_apply,
      bind_map_left]
    refine related_bind (ih _ .programFirst) fun carried n hs => ?_
    have rest := ih _ (.programNext hs)
    rwa [Point.outcome, Task.run, snd_unit] at rest

/-- The step: a point adds well-nested records if those that it starts do. -/
private theorem Point.StartsNested.adds (ih : a.StartsNested) :
    AddsNested a.Calls a.machine a.outcome.2 := by
  obtain ⟨limit, task, m⟩ := a
  cases task with
  | expression e =>
    rw [Point.outcome, Task.run, Attempt.map_apply]
    exact adds_expression ih
  | functionFrame f args =>
    rw [Point.outcome, Task.run, Attempt.map_apply]
    exact adds_functionFrame ih
  | methodFrame this routine args =>
    rw [Point.outcome, Task.run, Attempt.map_apply]
    exact adds_methodFrame ih
  | checkedBindings params args =>
    rw [Point.outcome, Task.run, snd_unit]
    exact adds_checkedBindings ih
  | bindings params args =>
    rw [Point.outcome, Task.run, snd_unit]
    exact adds_bindings ih
  | statement s => exact adds_statement ih
  | block body => exact adds_block ih
  | program body =>
    rw [Point.outcome, Task.run, snd_unit]
    exact adds_program ih

/-- The run: every point adds well-nested records. -/
theorem Point.addsNested (a : Point) : AddsNested a.Calls a.machine a.outcome.2 := by
  -- What is called in an evaluation that a point starts is called in the point.
  refine StartsNested.adds fun b starts => (addsNested b).mono ?_
  rintro call caller ⟨c, reaches, frame, opened⟩
  exact ⟨c, .head starts reaches, frame, opened⟩
termination_by (a.limit, a.task.weight)
decreasing_by
  have := starts.decreases
  simp only [Prod.lex_def]
  omega

end Run

/-- The trace is well nested, whatever a program does and however it ends. The frames that are
recorded are balanced, from the depth at which the run begins. Every record of a call tells the
depth of its caller and is followed at once by the opening of a frame, which tells the next depth
and the number of the caller's variables; and frames are opened in no other way. -/
theorem nested_of_interpret (limit : Nat) (p : Program) (start : Machine) :
    ∃ new, (interpret limit p start).2.trace.toList = start.trace.toList ++ new ∧
      Balanced start.env.depth (new.filter (·.origin = "exline.env")) ∧
      (∀ front call back depth, new = front ++ call :: back → call.callDepth? = some depth →
        ∃ caller rest, Point.Calls ⟨limit, .program p.statements, start⟩ call caller ∧
          caller.trace.toList = start.trace.toList ++ front ∧ caller.env.depth = depth ∧
          back = .pushFrame (depth + 1) caller.env.vars.size :: rest) ∧
      ∀ front depth size back, new = front ++ .pushFrame depth size :: back →
        ∃ before call outer, front = before ++ [call] ∧ call.callDepth? = some outer ∧
          depth = outer + 1 := by
  obtain ⟨-, new, trace, nested⟩ :=
    Point.addsNested ⟨limit, .program p.statements, start⟩
  rw [Point.outcome, Task.run, snd_unit] at trace
  refine ⟨new, trace, nested.balanced, ?_, ?_⟩
  · intro front call back depth split told
    cases nested.stands split with
    | other _ uncalled => simp [told] at uncalled
    | call made at' told' =>
      obtain rfl := Option.some.inj (told'.symm.trans told)
      exact ⟨_, _, made, at', rfl, rfl⟩
    | push | pop => cases told
  · intro front depth size back split
    cases nested.stands split with
    | other plain _ => exact absurd rfl plain
    | call _ _ told => cases told
    | push _ told => exact ⟨_, _, _, rfl, told, rfl⟩

/-- An error in a call that is made for an argument leaves two frames. -/
example :
    let nowhere : Position := ⟨0, 0⟩
    let int : TypeRef := ⟨nowhere, .int⟩
    let missing : Stmt := .expression nowhere (.identifier nowhere "b")
    let f : Routine := ⟨⟨nowhere, "f", [⟨nowhere, "a", int⟩], int⟩, [missing]⟩
    let call (arg : Expr) : Expr := .functionCall nowhere "f" [arg]
    let p : Program := ⟨[.function f, .expression nowhere (call (call (.integer nowhere 1)))]⟩
    (interpret 2 p .initial).2.trace.toList =
      [.defineFunction "f", .callFunction "f" 0, .pushFrame 1 0, .callFunction "f" 1,
        .pushFrame 2 0, .popFrame 2, .popFrame 1] :=
  rfl

end Evaluation

end ScriptLang
