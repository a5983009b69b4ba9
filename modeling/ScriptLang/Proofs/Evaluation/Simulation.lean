import ScriptLang.Proofs.Evaluation.Call
import ScriptLang.Proofs.Program.Nodes

/-!
Two evaluations side by side. A simulation relates machines whose functions and classes may hold
different bodies, and says which expressions and bodies stand for which. If the bodies that are
called behave alike, so does everything that calls them: related machines lead to the same value or
the same error, up to its place, and to related machines. One of the two evaluations may be allowed
to run out of its limit earlier.
-/

set_option autoImplicit false
set_option relaxedAutoImplicit false

namespace ScriptLang

/-- What a call sees of a parameter whose type is checked. -/
def Param.slot (p : Param) : String × Ty :=
  (p.name, p.type.type)

def Field.slot (d : Field) : String × Ty :=
  (d.name, d.type.type)

theorem rel_map {α β : Type} {r : α → β → Prop} {f : α → β} (h : ∀ a, r a (f a))
    (found : Option α) : Option.Rel r found (found.map f) := by
  cases found with
  | none => exact .none
  | some a => exact .some (h a)

section Like

variable (bodies : List Stmt → List Stmt → Prop)

structure Callable.Like (f f' : Callable) : Prop where
  params : f'.params.map Param.slot = f.params.map Param.slot
  returns : f'.returns.type = f.returns.type
  body : bodies f.body f'.body

/-- Methods that bind and return alike; the types of their parameters are not looked at. -/
structure Routine.Like (m m' : Routine) : Prop where
  params : m'.signature.params.map Param.name = m.signature.params.map Param.name
  returns : m'.signature.returns.type = m.signature.returns.type
  body : bodies m.body m'.body

/-- Classes whose objects start alike and whose methods are found alike. -/
structure ClassDecl.Like (d d' : ClassDecl) : Prop where
  fields : d'.fields.map Field.slot = d.fields.map Field.slot
  methods : ∀ name, Option.Rel (Routine.Like bodies)
    (d.methods.find? (·.signature.name = name)) (d'.methods.find? (·.signature.name = name))

variable {bodies}

theorem ClassDecl.like_of_map {d d' : ClassDecl} {g : Routine → Routine}
    (fields : d'.fields.map Field.slot = d.fields.map Field.slot)
    (methods : d'.methods = d.methods.map g) (named : ∀ r, (g r).signature.name = r.signature.name)
    (like : ∀ r, Routine.Like bodies r (g r)) : d.Like bodies d' where
  fields := fields
  methods name := by
    simp only [methods, List.find?_map, Function.comp_def, named]
    exact rel_map like _

private theorem ClassDecl.Like.newObject_eq {d d' : ClassDecl} (h : d.Like bodies d')
    (name : String) : Value.newObject name d' = Value.newObject name d := by
  have starts (fields : List Field) : fields.map (fun f => (f.name, Value.zero f.type.type)) =
      (fields.map Field.slot).map fun slot => (slot.1, Value.zero slot.2) := by
    rw [List.map_map]
    rfl
  unfold Value.newObject
  rw [starts, starts, h.fields]

end Like

/-- A change of expressions that evaluation cannot see, but for the places in its errors. The
arguments of an object creation may change as they like. -/
structure Disguise (place : Position → Position) (expr : Expr → Expr) : Prop where
  integer : ∀ p value, expr (.integer p value) = .integer (place p) value
  string : ∀ p text, expr (.string p text) = .string (place p) text
  template : ∀ p text, expr (.template p text) = .template (place p) text
  identifier : ∀ p name, expr (.identifier p name) = .identifier (place p) name
  binary : ∀ p operator left right,
    expr (.binary p operator left right) = .binary (place p) operator (expr left) (expr right)
  functionCall : ∀ p name args,
    expr (.functionCall p name args) = .functionCall (place p) name (args.map expr)
  methodCall : ∀ p receiver method args, expr (.methodCall p receiver method args) =
    .methodCall (place p) (expr receiver) method (args.map expr)
  fieldAccess : ∀ p receiver field,
    expr (.fieldAccess p receiver field) = .fieldAccess (place p) (expr receiver) field
  creation : ∀ p className args,
    ∃ others, expr (.creation p className args) = .creation (place p) className others

namespace Disguise

variable {place : Position → Position} {expr : Expr → Expr}

protected theorem id : Disguise id id where
  integer _ _ := rfl
  string _ _ := rfl
  template _ _ := rfl
  identifier _ _ := rfl
  binary _ _ _ _ := rfl
  functionCall p name args := by simp
  methodCall p receiver method args := by simp
  fieldAccess _ _ _ := rfl
  creation p className args := ⟨args, rfl⟩

private theorem position (h : Disguise place expr) (e : Expr) :
    (expr e).position = place e.position := by
  cases e with
  | creation p className args =>
    obtain ⟨others, same⟩ := h.creation p className args
    rw [same]
    rfl
  | _ =>
    simp only [h.integer, h.string, h.template, h.identifier, h.binary, h.functionCall,
      h.methodCall, h.fieldAccess, Expr.position]

private theorem ne_identifier (h : Disguise place expr) {e : Expr}
    (other : ∀ p name, e ≠ .identifier p name) (p : Position) (name : String) :
    expr e ≠ .identifier p name := by
  cases e with
  | identifier q own => exact absurd rfl (other q own)
  | creation q className args =>
    obtain ⟨others, same⟩ := h.creation q className args
    simp [same]
  | _ =>
    simp [h.integer, h.string, h.template, h.binary, h.functionCall, h.methodCall, h.fieldAccess]

end Disguise

def Stop.relocate (f : Position → Position) : Stop → Stop
  | error e => error ⟨e.cause, f e.position⟩
  | noFrame => noFrame
  | tooDeep => tooDeep

theorem Stop.mapError_relocate_id {α : Type} (outcome : Except Stop α) :
    outcome.mapError (Stop.relocate id) = outcome := by
  rcases outcome with (⟨e⟩ | _ | _) | a <;> rfl

/-- Two evaluations side by side: which machines, expressions and bodies of the one stand for which
of the other, on what expressions of the first. -/
structure Simulation where
  machines : Machine → Machine → Prop
  bodies : List Stmt → List Stmt → Prop
  place : Position → Position
  expr : Expr → Expr
  admits : Node → Prop
  disguise : Disguise place expr
  identifier : ∀ {m m' : Machine} {p : Position} {name : String}, machines m m' →
    admits (.expression (.identifier p name)) → m'.env.vars.get? name = m.env.vars.get? name
  template : ∀ {m m' : Machine} {p : Position} {text : String}, machines m m' →
    admits (.expression (.template p text)) →
      interpolate m'.env.vars text = interpolate m.env.vars text
  function : ∀ {m m' : Machine} {name : String}, machines m m' → name ≠ "print" →
    Option.Rel (Callable.Like bodies) (m.env.functions.get? name) (m'.env.functions.get? name)
  classDecl : ∀ {m m' : Machine} (name : String), machines m m' →
    Option.Rel (ClassDecl.Like bodies) (m.env.classes.get? name) (m'.env.classes.get? name)
  define : ∀ {m m' : Machine} (name : String) (v : Value), machines m m' →
    machines { m with env := m.env.defineVariable name v }
      { m' with env := m'.env.defineVariable name v }
  print : ∀ {m m' : Machine} (text : String), machines m m' →
    machines { m with printed := m.printed ++ text ++ "\n" }
      { m' with printed := m'.printed ++ text ++ "\n" }
  callFunction : ∀ {m m' : Machine} (name : String), machines m m' →
    machines (m.record (.callFunction name m.env.depth))
      (m'.record (.callFunction name m'.env.depth))
  callMethod : ∀ {m m' : Machine} (className name : String), machines m m' →
    machines (m.record (.callMethod className name m.env.depth))
      (m'.record (.callMethod className name m'.env.depth))
  push : ∀ {m m' : Machine}, machines m m' → machines m.pushFrame m'.pushFrame
  restore : ∀ {m m' n n' : Machine}, machines m m' → machines n n' →
    machines (m.restore n) (m'.restore n')

namespace Simulation

open Evaluation Machine

variable (S : Simulation) {α β : Type}

/-- That two evaluations end alike on two machines. If `early`, the first may run too deep where
the second does not. -/
def AlikeAt (early : Prop) (m m' : Machine) (x y : Evaluation α) : Prop :=
  (early ∧ (x m).1 = .error .tooDeep) ∨
    (y m').1 = (x m).1.mapError (Stop.relocate S.place) ∧ S.machines (x m).2 (y m').2

def Alike (early : Prop) (x y : Evaluation α) : Prop :=
  ∀ m m', S.machines m m' → S.AlikeAt early m m' x y

variable {S} {early : Prop}

theorem alike_pure (a : α) : S.Alike early (pure a) (pure a) :=
  fun _ _ related => .inr ⟨rfl, related⟩

private theorem alikeAt_raise {m m' : Machine} (related : S.machines m m') (cause : EvalCause)
    (p : Position) :
    S.AlikeAt (α := α) early m m' (raise cause p) (raise cause (S.place p)) :=
  .inr ⟨rfl, related⟩

private theorem alike_raise (cause : EvalCause) (p : Position) :
    S.Alike (α := α) early (raise cause p) (raise cause (S.place p)) :=
  fun _ _ related => alikeAt_raise related cause p

theorem AlikeAt.bind {m m' : Machine} {x y : Evaluation α} {f g : α → Evaluation β}
    (first : S.AlikeAt early m m' x y)
    (second : ∀ {a n n'}, x m = (.ok a, n) → y m' = (.ok a, n') → S.machines n n' →
      S.AlikeAt early n n' (f a) (g a)) : S.AlikeAt early m m' (x >>= f) (y >>= g) := by
  unfold AlikeAt at first ⊢
  simp only [Attempt.bind_apply]
  rcases hx : x m with ⟨stop | a, n⟩
  · rw [hx] at first
    rcases first with ⟨early, deep⟩ | ⟨same, related⟩
    · obtain rfl := Except.error.inj deep
      exact .inl ⟨early, rfl⟩
    · rcases hy : y m' with ⟨stop' | a', n'⟩
      · rw [hy] at same related
        obtain rfl := Except.error.inj same
        exact .inr ⟨rfl, related⟩
      · rw [hy] at same
        cases same
  · rw [hx] at first
    rcases first with ⟨-, deep⟩ | ⟨same, related⟩
    · cases deep
    · rcases hy : y m' with ⟨stop' | a', n'⟩
      · rw [hy] at same
        cases same
      · rw [hy] at same related
        obtain rfl := Except.ok.inj same
        exact second hx hy related

private theorem alikeAt_environment {m m' : Machine} {f g : Environment → Evaluation α}
    (h : S.AlikeAt early m m' (f m.env) (g m'.env)) :
    S.AlikeAt early m m' (environment >>= f) (environment >>= g) :=
  h

private theorem Alike.bind {x y : Evaluation α} {f g : α → Evaluation β} (first : S.Alike early x y)
    (second : ∀ a, S.Alike early (f a) (g a)) : S.Alike early (x >>= f) (y >>= g) :=
  fun m m' related => (first m m' related).bind fun _ _ next => second _ _ _ next

private theorem Alike.map {x y : Evaluation α} (h : S.Alike early x y) (f : α → β) :
    S.Alike early (f <$> x) (f <$> y) := by
  rw [map_eq_pure_bind, map_eq_pure_bind]
  exact h.bind fun a => alike_pure (f a)

private theorem alike_modify {f g : Machine → Machine}
    (h : ∀ {m m'}, S.machines m m' → S.machines (f m) (g m')) :
    S.Alike early (modify f) (modify g) :=
  fun _ _ related => .inr ⟨rfl, h related⟩

private theorem alike_defineVariable (name : String) (v : Value) :
    S.Alike early (defineVariable name v) (defineVariable name v) :=
  alike_modify (S.define name v)

private theorem alike_printLine (text : String) : S.Alike early (printLine text) (printLine text) :=
  alike_modify (S.print text)

private theorem Alike.inFrame {x y : Evaluation α} (h : S.Alike early x y)
    (hx : Leaves KeepsFrames x) (hy : Leaves KeepsFrames y) :
    S.Alike early (inFrame x) (inFrame y) := by
  intro m m' related
  unfold AlikeAt
  rw [inFrame_apply hx, inFrame_apply hy]
  rcases h _ _ (S.push related) with early | ⟨same, reached⟩
  · exact .inl early
  · exact .inr ⟨same, S.restore related reached⟩

section Open

variable {bodyOf bodyOf' : List Stmt → Evaluation (Option Value)}

/-- That bodies which stand for each other, run with `bodyOf` and with `bodyOf'`, end alike and
leave the frames. -/
structure Bodies (S : Simulation) (early : Prop)
    (bodyOf bodyOf' : List Stmt → Evaluation (Option Value)) : Prop where
  alike : ∀ {body body'}, S.bodies body body' → S.Alike early (bodyOf body) (bodyOf' body')
  leaves : ∀ body, Leaves KeepsFrames (bodyOf body)
  leaves' : ∀ body, Leaves KeepsFrames (bodyOf' body)

private theorem alike_result (hb : S.Bodies early bodyOf bodyOf') {body body' : List Stmt}
    {returns returns' : TypeRef} (h : S.bodies body body')
    (same : returns'.type = returns.type) :
    S.Alike early (do return (← bodyOf body).getD (.zero returns.type))
      (do return (← bodyOf' body').getD (.zero returns'.type)) := by
  rw [same]
  exact (hb.alike h).bind fun _ => alike_pure _

mutual

/-- An expression and its disguise evaluate alike. -/
private theorem alike_evaluateWith (hb : S.Bodies early bodyOf bodyOf') :
    ∀ e : Expr, (∀ x ∈ e.nodes, S.admits x) →
      S.Alike early (evaluateWith bodyOf e) (evaluateWith bodyOf' (S.expr e))
  | .integer _ _, _ => by
    rw [S.disguise.integer]
    simp only [evaluateWith]
    exact alike_pure _
  | .string _ _, _ => by
    rw [S.disguise.string]
    simp only [evaluateWith]
    exact alike_pure _
  | .template _ text, known => by
    rw [S.disguise.template]
    simp only [evaluateWith]
    intro m m' related
    refine alikeAt_environment ?_
    -- The machines agree on what the marker names, as the node is admitted.
    rw [S.template related (known _ (Expr.mem_nodes _))]
    exact alike_pure _ m m' related
  | .identifier p name, known => by
    rw [S.disguise.identifier]
    simp only [evaluateWith]
    intro m m' related
    refine alikeAt_environment ?_
    rw [S.identifier related (known _ (Expr.mem_nodes _))]
    cases m.env.vars.get? name with
    | some v => exact alike_pure v m m' related
    | none => exact alikeAt_raise related _ p
  | .binary p operator left right, known => by
    rw [S.disguise.binary]
    simp only [evaluateWith]
    refine (alike_evaluateWith hb left fun x found => known x ?_).bind fun a => ?_
    · simp [Expr.nodes, found]
    refine (alike_evaluateWith hb right fun x found => known x ?_).bind fun b => ?_
    · simp [Expr.nodes, found]
    split
    · exact alike_pure _
    · exact alike_raise _ p
  | .functionCall p name args, known => by
    have inner : ∀ x ∈ argNodes args, S.admits x := fun x found =>
      known x (by simp [Expr.nodes, found])
    rw [S.disguise.functionCall]
    by_cases print : name = "print"
    · subst print
      rw [evaluateWith_print, evaluateWith_print]
      refine (alike_evaluateSoleWith hb args inner).bind fun sole => ?_
      split
      · exact (alike_printLine _).bind fun _ => alike_pure _
      · exact alike_raise _ p
    · simp only [evaluateWith, if_neg print, List.length_map]
      intro m m' related
      refine alikeAt_environment ?_
      have found := S.function related print
      generalize m.env.functions.get? name = f? at found ⊢
      generalize m'.env.functions.get? name = f?' at found ⊢
      cases found with
      | none => exact alikeAt_raise related _ p
      | @some f f' like =>
        have count : f'.params.length = f.params.length := by
          simpa using congrArg List.length like.params
        simp only [count]
        split
        · exact alikeAt_raise related _ p
        · refine alikeAt_environment (Alike.inFrame ?_ (leaves_functionFrame hb.leaves f args)
            (leaves_functionFrame hb.leaves' f' _) _ _ (S.callFunction name related))
          refine (alike_bindCheckedWith hb _ _ args like.params inner).bind fun _ => ?_
          exact alike_result hb like.body like.returns
  | .methodCall p receiver method args, known => by
    have inner : ∀ x ∈ argNodes args, S.admits x := fun x found =>
      known x (by simp [Expr.nodes, found])
    rw [S.disguise.methodCall]
    simp only [evaluateWith, List.length_map]
    refine (alike_evaluateWith hb receiver fun x found => known x ?_).bind fun this => ?_
    · simp [Expr.nodes, found]
    cases this with
    | object className fields =>
      intro m m' related
      refine alikeAt_environment ?_
      have classes := S.classDecl className related
      generalize m.env.classes.get? className = d? at classes ⊢
      generalize m'.env.classes.get? className = d?' at classes ⊢
      cases classes with
      | none => exact alikeAt_raise related _ p
      | @some d d' same =>
        have methods := same.methods method
        dsimp only
        generalize d.methods.find? _ = r? at methods ⊢
        generalize d'.methods.find? _ = r?' at methods ⊢
        cases methods with
        | none => exact alikeAt_raise related _ p
        | @some r r' like =>
          have count : r'.signature.params.length = r.signature.params.length := by
            simpa using congrArg List.length like.params
          simp only [count]
          split
          · exact alikeAt_raise related _ p
          · refine alikeAt_environment (Alike.inFrame ?_ (leaves_methodFrame hb.leaves _ r args)
              (leaves_methodFrame hb.leaves' _ r' _) _ _ (S.callMethod className method related))
            refine (alike_defineVariable "this" _).bind fun _ => ?_
            refine (alike_bindWith hb _ _ args like.params inner).bind fun _ => ?_
            exact alike_result hb like.body like.returns
    | _ => exact alike_raise _ p
  | .fieldAccess p receiver field, known => by
    rw [S.disguise.fieldAccess]
    simp only [evaluateWith]
    refine (alike_evaluateWith hb receiver fun x found => known x ?_).bind fun object => ?_
    · simp [Expr.nodes, found]
    split
    · split
      · exact alike_pure _
      · exact alike_raise _ p
    · exact alike_raise _ p
  | .creation p className args, _ => by
    obtain ⟨others, same⟩ := S.disguise.creation p className args
    rw [same]
    simp only [evaluateWith]
    intro m m' related
    refine alikeAt_environment ?_
    have classes := S.classDecl className related
    generalize m.env.classes.get? className = d? at classes ⊢
    generalize m'.env.classes.get? className = d?' at classes ⊢
    cases classes with
    | none => exact alikeAt_raise related _ p
    | some like =>
      simp only [like.newObject_eq]
      exact alike_pure _ m m' related

private theorem alike_evaluateSoleWith (hb : S.Bodies early bodyOf bodyOf') :
    ∀ args : List Expr, (∀ x ∈ argNodes args, S.admits x) →
      S.Alike early (evaluateSoleWith bodyOf args) (evaluateSoleWith bodyOf' (args.map S.expr))
  | [], _ | _ :: _ :: _, _ => by
    simp only [List.map_nil, List.map_cons, evaluateSoleWith]
    exact alike_pure _
  | [arg], known => by
    simp only [List.map_cons, List.map_nil, evaluateSoleWith]
    refine Alike.map (alike_evaluateWith hb arg fun x found => known x ?_) some
    simp [argNodes, found]

private theorem alike_bindCheckedWith (hb : S.Bodies early bodyOf bodyOf') :
    ∀ (params params' : List Param) (args : List Expr),
      params'.map Param.slot = params.map Param.slot → (∀ x ∈ argNodes args, S.admits x) →
      S.Alike early (bindCheckedWith bodyOf params args)
        (bindCheckedWith bodyOf' params' (args.map S.expr))
  | param :: params, param' :: params', arg :: args, same, known => by
    rw [List.map_cons, List.map_cons, List.cons.injEq] at same
    obtain ⟨slot, others⟩ := same
    obtain ⟨name, type⟩ := Prod.mk.inj slot
    rw [List.map_cons]
    simp only [bindCheckedWith, name, type, S.disguise.position]
    refine (alike_evaluateWith hb arg fun x found => known x ?_).bind fun v => ?_
    · simp [argNodes, found]
    split
    · refine (alike_defineVariable _ v).bind fun _ => ?_
      refine alike_bindCheckedWith hb params params' args others fun x found => known x ?_
      simp [argNodes, found]
    · exact alike_raise _ _
  | [], [], _, _, _ | _ :: _, _ :: _, [], _, _ => by
    simp only [List.map_nil, bindCheckedWith]
    exact alike_pure _
  | [], _ :: _, _, same, _ | _ :: _, [], _, same, _ => by simp at same

private theorem alike_bindWith (hb : S.Bodies early bodyOf bodyOf') :
    ∀ (params params' : List Param) (args : List Expr),
      params'.map Param.name = params.map Param.name → (∀ x ∈ argNodes args, S.admits x) →
      S.Alike early (bindWith bodyOf params args) (bindWith bodyOf' params' (args.map S.expr))
  | param :: params, param' :: params', arg :: args, same, known => by
    rw [List.map_cons, List.map_cons, List.cons.injEq] at same
    obtain ⟨name, others⟩ := same
    rw [List.map_cons]
    simp only [bindWith, name]
    refine (alike_evaluateWith hb arg fun x found => known x ?_).bind fun v => ?_
    · simp [argNodes, found]
    refine (alike_defineVariable _ v).bind fun _ => ?_
    refine alike_bindWith hb params params' args others fun x found => known x ?_
    simp [argNodes, found]
  | [], [], _, _, _ | _ :: _, _ :: _, [], _, _ => by
    simp only [List.map_nil, bindWith]
    exact alike_pure _
  | [], _ :: _, _, same, _ | _ :: _, [], _, same, _ => by simp at same

end

theorem alike_declaration (hb : S.Bodies early bodyOf bodyOf') {p p' : Position}
    {type type' : TypeRef} {name : String} {value : Expr} (place : p' = S.place p)
    (same : type'.type = type.type) (known : ∀ x ∈ value.nodes, S.admits x) :
    S.Alike early (executeWith bodyOf (.declaration p type name value))
      (executeWith bodyOf' (.declaration p' type' name (S.expr value))) := by
  simp only [executeWith, same, place]
  refine (alike_evaluateWith hb value known).bind fun v => ?_
  split
  · exact (alike_defineVariable name v).bind fun _ => alike_pure _
  · exact alike_raise _ p

theorem alike_expression (hb : S.Bodies early bodyOf bodyOf') {p p' : Position} {e : Expr}
    (known : ∀ x ∈ e.nodes, S.admits x) :
    S.Alike early (executeWith bodyOf (.expression p e))
      (executeWith bodyOf' (.expression p' (S.expr e))) := by
  simp only [executeWith]
  exact (alike_evaluateWith hb e known).map some

theorem alike_assignment (hb : S.Bodies early bodyOf bodyOf') {p p' : Position}
    {target value : Expr} (place : p' = S.place p) (known : ∀ x ∈ value.nodes, S.admits x) :
    S.Alike early (executeWith bodyOf (.assignment p target value))
      (executeWith bodyOf' (.assignment p' (S.expr target) (S.expr value))) := by
  subst place
  by_cases simple : ∃ q name, target = .identifier q name
  · obtain ⟨q, name, rfl⟩ := simple
    rw [S.disguise.identifier]
    simp only [executeWith]
    refine (alike_evaluateWith hb value known).bind fun v => ?_
    exact (alike_defineVariable name v).bind fun _ => alike_pure _
  · have other : ∀ q name, target ≠ .identifier q name := fun q name same =>
      simple ⟨q, name, same⟩
    rw [executeWith_assignment_other other,
      executeWith_assignment_other (S.disguise.ne_identifier other)]
    exact (alike_evaluateWith hb value known).bind fun _ => alike_raise _ p

theorem alike_conditional (hb : S.Bodies early bodyOf bodyOf') {p p' : Position} {condition : Expr}
    {thenBody thenBody' : List Stmt} {elseBody elseBody' : Option (List Stmt)}
    (known : ∀ x ∈ condition.nodes, S.admits x)
    (thens : S.Alike early (executeBlockWith bodyOf thenBody) (executeBlockWith bodyOf' thenBody'))
    (elses : S.Alike early (executeElseWith bodyOf elseBody) (executeElseWith bodyOf' elseBody')) :
    S.Alike early (executeWith bodyOf (.conditional p condition thenBody elseBody))
      (executeWith bodyOf' (.conditional p' (S.expr condition) thenBody' elseBody')) := by
  simp only [executeWith]
  refine (alike_evaluateWith hb condition known).bind fun v => ?_
  split
  · exact thens
  · exact elses

theorem alike_definition {e e' : Event} {f g : Environment → Environment}
    (h : ∀ {m m'}, S.machines m m' →
      S.machines { m.record e with env := f m.env } { m'.record e' with env := g m'.env }) :
    S.Alike (α := Option Value) early (do record e; modifyEnvironment f; return none)
      (do record e'; modifyEnvironment g; return none) :=
  fun _ _ related => .inr ⟨rfl, h related⟩

theorem alike_executeBlockWith_cons {s s' : Stmt} {more more' : List Stmt}
    (first : S.Alike early (executeWith bodyOf s) (executeWith bodyOf' s'))
    (rest : S.Alike early (executeBlockWith bodyOf more) (executeBlockWith bodyOf' more')) :
    S.Alike early (executeBlockWith bodyOf (s :: more))
      (executeBlockWith bodyOf' (s' :: more')) := by
  simp only [executeBlockWith]
  refine first.bind fun carried => ?_
  split
  · exact alike_pure _
  · exact rest

theorem alike_interpretWith_cons {s s' : Stmt} {more more' : List Stmt}
    (first : S.Alike early (executeWith bodyOf s) (executeWith bodyOf' s'))
    (rest : S.Alike early (interpretWith bodyOf more) (interpretWith bodyOf' more')) :
    S.Alike early (interpretWith bodyOf (s :: more)) (interpretWith bodyOf' (s' :: more')) := by
  simp only [interpretWith]
  exact (first.map _).bind fun _ => rest

end Open

end Simulation

end ScriptLang
