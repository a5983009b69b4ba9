import ScriptLang.Attempt
import ScriptLang.Proofs.Evaluation.Point

/-!
How a call binds its parameters. Its arguments are evaluated in its own frame, one after the other,
each where `this` and the parameters before it are bound already. Whatever they call leaves that
table alone, so the body starts on the table of the caller with `this` and the parameters put over
it and nothing else.
-/

set_option autoImplicit false
set_option relaxedAutoImplicit false

namespace ScriptLang

open Machine

/-- The table with values bound to parameters, one after the other. -/
def Table.override : Table Value → List Param → List Value → Table Value
  | t, param :: params, v :: values => (t.insert param.name v).override params values
  | t, _, _ => t

private theorem Table.get?_override (t : Table Value) (params : List Param) (values : List Value)
    (name : String) :
    (t.override params values).get? name =
      (((params.zip values).reverse.find? (·.1.name = name)).map Prod.snd).or (t.get? name) := by
  induction params generalizing t values with
  | nil => simp [override]
  | cons param params ih =>
    cases values with
    | nil => simp [override]
    | cons v values =>
      rw [override, ih, get?_insert, List.zip_cons_cons, List.reverse_cons, List.find?_append]
      cases (params.zip values).reverse.find? (·.1.name = name) with
      | some found => simp
      | none =>
        by_cases same : param.name = name
        · simp [same]
        · simp [same, Ne.symm same]

namespace Evaluation

variable {limit : Nat} {params : List Param} {args : List Expr} {m k : Machine}
  {values : List Value}

/-- That parameters are bound one after the other, each to what its argument yields on the machine
that the binding of those before it leaves. -/
inductive Binds (limit : Nat) : List Param → List Expr → Machine → List Value → Machine → Prop where
  | none {m : Machine} : Binds limit [] [] m [] m
  | more {param : Param} {params : List Param} {arg : Expr} {args : List Expr} {v : Value}
      {values : List Value} {m n k : Machine} : evaluate limit arg m = (.ok v, n) →
      Binds limit params args { n with env := n.env.defineVariable param.name v } values k →
      Binds limit (param :: params) (arg :: args) m (v :: values) k

abbrev Fit : List Param → List Value → Prop :=
  List.Forall₂ fun param v => v.fits param.type.type

private theorem bindWith_eq_ok_iff (equal : args.length = params.length) :
    bindWith (bodyWithin limit) params args m = (.ok (), k) ↔
      ∃ values, Binds limit params args m values k := by
  induction params generalizing args m with
  | nil =>
    obtain rfl := List.length_eq_zero_iff.mp equal
    constructor
    · rintro ⟨⟩
      exact ⟨[], .none⟩
    · rintro ⟨_, ⟨⟩⟩
      rfl
  | cons param params ih =>
    obtain ⟨arg, args, rfl⟩ := List.exists_cons_of_length_eq_add_one equal
    rw [bindWith, Attempt.bind_eq_ok]
    constructor
    · rintro ⟨v, n, evaluated, bound⟩
      obtain ⟨values, rest⟩ := (ih (Nat.succ.inj equal)).mp bound
      exact ⟨v :: values, .more evaluated rest⟩
    · rintro ⟨_, bound⟩
      cases bound with
      | more evaluated rest =>
        exact ⟨_, _, evaluated, (ih (Nat.succ.inj equal)).mpr ⟨_, rest⟩⟩

private theorem bindCheckedWith_eq_ok_iff (equal : args.length = params.length) :
    bindCheckedWith (bodyWithin limit) params args m = (.ok (), k) ↔
      ∃ values, Binds limit params args m values k ∧ Fit params values := by
  induction params generalizing args m with
  | nil =>
    obtain rfl := List.length_eq_zero_iff.mp equal
    constructor
    · rintro ⟨⟩
      exact ⟨[], .none, .nil⟩
    · rintro ⟨_, ⟨⟩, -⟩
      rfl
  | cons param params ih =>
    obtain ⟨arg, args, rfl⟩ := List.exists_cons_of_length_eq_add_one equal
    rw [bindCheckedWith, Attempt.bind_eq_ok]
    constructor
    · rintro ⟨v, n, evaluated, bound⟩
      split at bound
      · rename_i fits
        obtain ⟨values, rest, fit⟩ := (ih (Nat.succ.inj equal)).mp bound
        exact ⟨v :: values, .more evaluated rest, .cons fits fit⟩
      · cases bound
    · rintro ⟨_, bound, fit⟩
      cases bound with
      | more evaluated rest =>
        obtain ⟨fits, fit⟩ := List.forall₂_cons.mp fit
        refine ⟨_, _, evaluated, ?_⟩
        rw [if_pos fits]
        exact (ih (Nat.succ.inj equal)).mpr ⟨_, rest, fit⟩

namespace Binds

private theorem length_eq (h : Binds limit params args m values k) :
    values.length = params.length := by
  induction h with
  | none => rfl
  | more _ _ ih => simp [ih]

/-- What the arguments call changes no variable: the table that is left is the first one with the
parameters put over it. -/
private theorem vars (h : Binds limit params args m values k) :
    k.env.vars = m.env.vars.override params values := by
  induction h with
  | none => rfl
  | @more param _ arg _ v _ m n _ evaluated _ ih =>
    have kept : n.env.vars = m.env.vars := by
      simpa [evaluated] using (leaves_evaluate limit arg m).vars
    rw [ih, Table.override, ← kept]
    rfl

/-- Each argument is evaluated where the parameters before it, and no others, are bound. -/
private theorem yields (h : Binds limit params args m values k) (i : Nat)
    (inside : i < args.length) :
    ∃ before after v, Binds limit (params.take i) (args.take i) m (values.take i) before ∧
      evaluate limit args[i] before = (.ok v, after) ∧ values[i]? = some v := by
  induction h generalizing i with
  | none => simp at inside
  | @more param params arg args v values m n k evaluated rest ih =>
    cases i with
    | zero => exact ⟨m, n, v, .none, evaluated, rfl⟩
    | succ i =>
      obtain ⟨before, after, w, bound, yielded, there⟩ := ih i (by simpa using inside)
      exact ⟨before, after, w, .more evaluated bound, yielded, there⟩

end Binds

/-- How the parameters of a call are bound, from the machine on which its frame is entered to the
one on which its body starts. `table` is the table in which the first argument is evaluated. -/
structure Bound (limit : Nat) (table : Table Value) (params : List Param) (args : List Expr)
    (values : List Value) (entry start : Machine) : Prop where
  binds : Binds limit params args entry values start
  length_eq : values.length = params.length
  vars : start.env.vars = table.override params values
  /-- Of parameters with one name the last counts. -/
  last : ∀ name, start.env.vars.get? name =
    (((params.zip values).reverse.find? (·.1.name = name)).map Prod.snd).or (table.get? name)
  /-- Each value is what its argument yields where the parameters before it are bound. -/
  yields : ∀ i (inside : i < args.length), ∃ before after v,
    Binds limit (params.take i) (args.take i) entry (values.take i) before ∧
      before.env.vars = table.override (params.take i) (values.take i) ∧
      evaluate limit args[i] before = (.ok v, after) ∧ values[i]? = some v

private theorem Binds.bound {table : Table Value} (h : Binds limit params args m values k)
    (entered : m.env.vars = table) : Bound limit table params args values m k where
  binds := h
  length_eq := h.length_eq
  vars := entered ▸ h.vars
  last name := by rw [h.vars, entered, Table.get?_override]
  yields i inside := by
    obtain ⟨before, after, v, bound, yielded, there⟩ := h.yields i inside
    exact ⟨before, after, v, bound, entered ▸ bound.vars, yielded, there⟩

section Frame

variable {f : Callable} {routine : Routine} {this : Value}

private theorem functionFrame_of_bound
    (h : bindCheckedWith (bodyWithin limit) f.params args m = (.ok (), k)) :
    functionFrame (bodyWithin limit) f args m =
      ((bodyWithin limit f.body k).1.map (·.getD (.zero f.returns.type)),
        (bodyWithin limit f.body k).2) := by
  rw [functionFrame, Attempt.bind_apply_ok h, bind_pure_comp, Attempt.map_apply]

private theorem methodFrame_of_bound (h : bindWith (bodyWithin limit) routine.signature.params args
      { m with env := m.env.defineVariable "this" this } = (.ok (), k)) :
    methodFrame (bodyWithin limit) this routine args m =
      ((bodyWithin limit routine.body k).1.map (·.getD (.zero routine.signature.returns.type)),
        (bodyWithin limit routine.body k).2) := by
  have opened : defineVariable "this" this m =
      (.ok (), { m with env := m.env.defineVariable "this" this }) := rfl
  rw [methodFrame, Attempt.bind_apply_ok opened, Attempt.bind_apply_ok h, bind_pure_comp,
    Attempt.map_apply]

end Frame

/-- The law of argument binding, for functions and for methods. A call that passes its checks looks
up the routine first; if its body is reached then on the table of the caller, overridden by `this`
in a method and then by the parameters in order, and the call ends as the body does from there.
Nothing is asked of what the arguments call or redefine. -/
theorem bound_of_body_started (limit : Nat) (m : Machine) (position : Position)
    (args : List Expr) :
    (∀ name f body start, name ≠ "print" → m.env.functions.get? name = some f →
      args.length = f.params.length →
      let entry := (m.record (.callFunction name m.env.depth)).pushFrame
      Point.Starts ⟨limit + 1, .functionFrame f args, entry⟩ ⟨limit, .block body, start⟩ →
        body = f.body ∧
        (∃ values, Bound (limit + 1) m.env.vars f.params args values entry start ∧
          Fit f.params values) ∧
        ∃ outcome left, executeBlockWith (bodyWithin limit) f.body start = (outcome, left) ∧
          evaluate (limit + 1) (.functionCall position name args) m =
            (outcome.map (·.getD (.zero f.returns.type)), m.restore left)) ∧
      ∀ receiver method className fields n decl routine body start,
        evaluate (limit + 1) receiver m = (.ok (.object className fields), n) →
        n.env.classes.get? className = some decl →
        decl.methods.find? (·.signature.name = method) = some routine →
        args.length = routine.signature.params.length →
        let this := Value.object className fields
        let entry := (n.record (.callMethod className method n.env.depth)).pushFrame
        Point.Starts ⟨limit + 1, .methodFrame this routine args, entry⟩
            ⟨limit, .block body, start⟩ →
          body = routine.body ∧
          (∃ values, Bound (limit + 1) (m.env.vars.insert "this" this) routine.signature.params
            args values { entry with env := entry.env.defineVariable "this" this } start) ∧
          ∃ outcome left,
            executeBlockWith (bodyWithin limit) routine.body start = (outcome, left) ∧
            evaluate (limit + 1) (.methodCall position receiver method args) m =
              (outcome.map (·.getD (.zero routine.signature.returns.type)), m.restore left) := by
  refine ⟨?_, ?_⟩
  · intro name f body start other found equal entry starts
    cases starts with
    | functionBody bound =>
      obtain ⟨values, binds, fit⟩ := (bindCheckedWith_eq_ok_iff equal).mp bound
      refine ⟨rfl, ⟨values, binds.bound rfl, fit⟩, _, _, rfl, ?_⟩
      rw [evaluate, functionCall_found other found equal,
        inFrame_apply (leaves_functionFrame (leaves_bodyWithin _) f args),
        functionFrame_of_bound bound]
      rfl
  · intro receiver method className fields n decl routine body start evaluated found named equal
      this entry starts
    cases starts with
    | methodBody bound =>
      obtain ⟨values, binds⟩ := (bindWith_eq_ok_iff equal).mp bound
      -- The receiver is evaluated outside of the frame, and leaves the variables as they were.
      have scope : KeepsScope m n := by
        simpa only [evaluated] using leaves_evaluate (limit + 1) receiver m
      refine ⟨rfl, ⟨values, binds.bound ?_⟩, _, _, rfl, ?_⟩
      · rw [← scope.vars]
        rfl
      · rw [evaluate, methodCall_found evaluated found named equal,
          inFrame_apply (leaves_methodFrame (leaves_bodyWithin _) _ routine args),
          methodFrame_of_bound bound]
        simp only [restore, ← scope.vars, ← scope.frames]
        rfl

/-- A call `f(5 f(x g(x)))` in which `g` defines `f` anew, and a method with two parameters of one
name. -/
theorem bound_of_redefining_argument :
    let nowhere : Position := ⟨0, 0⟩
    let int : TypeRef := ⟨nowhere, .int⟩
    let five : Expr := .integer nowhere 5
    let x : Expr := .identifier nowhere "x"
    let sum : Stmt := .expression nowhere (.binary nowhere .add x (.identifier nowhere "y"))
    let f : Callable := ⟨[⟨nowhere, "x", int⟩, ⟨nowhere, "y", int⟩], int, [sum], false⟩
    let g : Callable := ⟨[⟨nowhere, "n", int⟩], int, [.function ⟨⟨nowhere, "f", [], int⟩, []⟩,
      .expression nowhere (.identifier nowhere "n")], false⟩
    let last : Routine := ⟨⟨nowhere, "last", [⟨nowhere, "x", int⟩, ⟨nowhere, "x", int⟩], int⟩,
      [.expression nowhere x]⟩
    let box : ClassDecl := ⟨nowhere, "Box", none, [], [last]⟩
    let functions := (Environment.initial.defineFunction "f" f).defineFunction "g" g
    let m : Machine := { Machine.initial with env := functions.defineClass "Box" box }
    let this := Value.newObject "Box" box
    let args := [five, .functionCall nowhere "f" [x, .functionCall nowhere "g" [x]]]
    let entry := (m.record (.callFunction "f" 0)).pushFrame
    let start := (bindCheckedWith (bodyWithin 3) f.params args entry).2
    let methodArgs := [five, .functionCall nowhere "f" [x, x]]
    let opened := (m.record (.callMethod "Box" "last" 0)).pushFrame
    let methodEntry := { opened with env := opened.env.defineVariable "this" this }
    let methodStart := (bindWith (bodyWithin 3) last.signature.params methodArgs methodEntry).2
    (∃ values, Bound 3 m.env.vars f.params args values entry start ∧ Fit f.params values) ∧
      start.env.vars.entries = [("x", .int 5), ("y", .int 10)] ∧
      (start.env.functions.get? "f").map Callable.params = some [] ∧
      (evaluate 3 (.functionCall nowhere "f" args) m).1 = .ok (.int 15) ∧
      (∃ values, Bound 3 (m.env.vars.insert "this" this) last.signature.params methodArgs values
        methodEntry methodStart) ∧
      methodStart.env.vars.entries = [("this", this), ("x", .int 10)] := by
  intro nowhere int five x sum f g last box functions m this args entry start methodArgs opened
    methodEntry methodStart
  obtain ⟨-, bound, -⟩ := (bound_of_body_started 2 m nowhere args).1 "f" f f.body start
    (by decide) rfl rfl (.functionBody rfl)
  obtain ⟨-, methodBound, -⟩ := (bound_of_body_started 2 m nowhere methodArgs).2
    (.creation nowhere "Box" []) "last" "Box" (.ofList []) m box last last.body methodStart
    rfl rfl rfl rfl (.methodBody rfl)
  exact ⟨bound, rfl, rfl, rfl, methodBound, rfl⟩

end Evaluation

end ScriptLang
