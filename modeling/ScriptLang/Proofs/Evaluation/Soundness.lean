import ScriptLang.Proofs.Evaluation.Call
import ScriptLang.Proofs.Program.Nodes
import ScriptLang.Proofs.Table

/-!
What a run holds. Its variables, the saved ones too, and the values of its expressions are integers,
strings, nothing, or objects of known classes; no function and no object is ever the value of a
field. The code that it holds is code of the program: a law about every node of a program is a law
about every body that its runs call.
-/

set_option autoImplicit false
set_option relaxedAutoImplicit false

namespace ScriptLang

namespace Value

/-- That a value is one that a declared type starts from. -/
def Starting (v : Value) : Prop :=
  v = .int 0 ∨ v = .string "" ∨ v = .void

/-- That a value is an integer of 64 bits, a string, nothing, or an object of a known class whose
fields hold what their types start from. -/
def Plain (classes : Table ClassDecl) : Value → Prop
  | .int n => -9223372036854775808 ≤ n.toInt ∧ n.toInt ≤ 9223372036854775807
  | .string _ => True
  | .void => True
  | .function _ => False
  | .object className fields =>
    (classes.get? className).isSome ∧ fields.Every fun _ v => v.Starting

private theorem starting_zero (type : Ty) : (zero type).Starting := by
  cases type with
  | int => exact .inl rfl
  | string => exact .inr (.inl rfl)
  | void => exact .inr (.inr rfl)
  | named _ => exact .inr (.inr rfl)

private theorem plain_int (classes : Table ClassDecl) (n : Int64) : (int n).Plain classes := by
  have lower := n.le_toInt
  have upper := n.toInt_lt
  exact ⟨by omega, by omega⟩

private theorem Starting.plain {v : Value} (h : v.Starting) (classes : Table ClassDecl) :
    v.Plain classes := by
  obtain rfl | rfl | rfl := h
  · exact plain_int classes 0
  · trivial
  · trivial

private theorem plain_zero (classes : Table ClassDecl) (type : Ty) : (zero type).Plain classes :=
  (starting_zero type).plain classes

private theorem Plain.mono {classes more : Table ClassDecl} {v : Value} (h : v.Plain classes)
    (known : classes.NamesIn more) : v.Plain more := by
  cases v with
  | object className fields => exact ⟨known className h.1, h.2⟩
  | _ => exact h

private theorem plain_newObject {classes : Table ClassDecl} {className : String} {decl : ClassDecl}
    (found : classes.get? className = some decl) : (newObject className decl).Plain classes := by
  refine ⟨by rw [found]; rfl, Table.every_ofList ?_⟩
  intro entry there
  obtain ⟨field, -, rfl⟩ := List.mem_map.mp there
  exact starting_zero _

private theorem plain_field {classes : Table ClassDecl} {className field : String}
    {fields : Table Value} {v : Value} (h : (object className fields).Plain classes)
    (found : fields.get? field = some v) :
    v.Plain classes :=
  (h.2.get? found).plain classes

private theorem plain_operateInts {operator : Operator} {a b : Int64} {v : Value}
    (classes : Table ClassDecl) (h : operateInts operator a b = .ok v) : v.Plain classes := by
  cases operator with
  | divide =>
    simp only [operateInts] at h
    split at h
    · cases h
    · obtain rfl := Except.ok.inj h
      exact plain_int classes _
  | unknown sign => cases h
  | _ =>
    obtain rfl := Except.ok.inj h
    exact plain_int classes _

private theorem plain_operate {operator : Operator} {a b v : Value} (classes : Table ClassDecl)
    (h : operate operator a b = .ok v) : v.Plain classes := by
  unfold operate at h
  split at h
  · obtain rfl := Except.ok.inj h
    exact plain_int classes _
  · obtain rfl := Except.ok.inj h
    trivial
  · exact plain_operateInts classes h
  · cases h

end Value

/-- That the variables of an environment, the saved ones too, hold plain values, and that its
classes are stored under their own names. -/
structure Environment.Sound (env : Environment) : Prop where
  vars : env.vars.Every fun _ v => v.Plain env.classes
  frames : ∀ saved ∈ env.frames, saved.Every fun _ v => v.Plain env.classes
  classes : env.classes.Every fun name decl => decl.name = name

/-- That every node of the bodies that an environment holds has a property. -/
structure Environment.Holds (P : Node → Prop) (env : Environment) : Prop where
  functions : env.functions.Every fun _ f => ∀ x ∈ blockNodes f.body, P x
  classes : env.classes.Every fun _ decl => ∀ x ∈ decl.nodes, P x

theorem Environment.Holds.method {P : Node → Prop} {env : Environment} (h : env.Holds P)
    {className method : String} {decl : ClassDecl} {routine : Routine}
    (found : env.classes.get? className = some decl)
    (named : decl.methods.find? (·.signature.name = method) = some routine) :
    ∀ x ∈ blockNodes routine.body, P x := fun x there =>
  h.classes.get? found x (ClassDecl.blockNodes_subset (List.mem_of_find?_eq_some named) there)

/-- That the definitions of the functions and classes of an environment have a property, as nodes.
The function that every environment starts with has no definition. -/
structure Environment.Defined (P : Node → Prop) (env : Environment) : Prop where
  functions : env.functions.Every fun name f =>
    f = .print ∨ ∃ head, head.name = name ∧ P (.statement (.function ⟨head, f.body⟩))
  classes : env.classes.Every fun _ decl => P (.statement (.classDecl decl))

structure Machine.Good (P : Node → Prop) (m : Machine) : Prop where
  sound : m.env.Sound
  holds : m.env.Holds P
  defined : m.env.Defined P

namespace Machine

variable {P : Node → Prop} {m n : Machine}

theorem good_initial : initial.Good P where
  sound := ⟨Table.every_empty, nofun, Table.every_empty⟩
  holds := ⟨Table.every_empty.insert nofun, Table.every_empty⟩
  defined := ⟨Table.every_empty.insert (.inl rfl), Table.every_empty⟩

theorem Good.record (h : m.Good P) (e : Event) : (m.record e).Good P :=
  ⟨h.sound, h.holds, h.defined⟩

private theorem Good.print (h : m.Good P) (text : String) : Good P { m with printed := text } :=
  ⟨h.sound, h.holds, h.defined⟩

theorem Good.pushFrame (h : m.Good P) : m.pushFrame.Good P where
  sound :=
    { vars := h.sound.vars
      frames := List.forall_mem_cons.mpr ⟨h.sound.vars, h.sound.frames⟩
      classes := h.sound.classes }
  holds := ⟨h.holds.functions, h.holds.classes⟩
  defined := ⟨h.defined.functions, h.defined.classes⟩

/-- A frame closes on the values that there were when it was opened; the classes that they need
are still known. -/
private theorem Good.restore (opened : m.Good P) (reached : n.Good P)
    (known : m.env.classes.NamesIn n.env.classes) : (m.restore n).Good P where
  sound :=
    { vars := opened.sound.vars.imp fun _ _ plain => plain.mono known
      frames := fun saved there =>
        (opened.sound.frames saved there).imp fun _ _ plain => plain.mono known
      classes := reached.sound.classes }
  holds := ⟨reached.holds.functions, reached.holds.classes⟩
  defined := ⟨reached.defined.functions, reached.defined.classes⟩

theorem Good.defineVariable (h : m.Good P) (name : String) {v : Value}
    (plain : v.Plain m.env.classes) :
    Good P { m with env := m.env.defineVariable name v } where
  sound := ⟨h.sound.vars.insert plain, h.sound.frames, h.sound.classes⟩
  holds := ⟨h.holds.functions, h.holds.classes⟩
  defined := ⟨h.defined.functions, h.defined.classes⟩

private theorem Good.defineFunction (h : m.Good P) {head : Signature} {body : List Stmt}
    (code : ∀ x ∈ (Stmt.function ⟨head, body⟩).nodes, P x) (params : List Param)
    (returns : TypeRef) (builtin : Bool) :
    Good P { m with
      env := m.env.defineFunction head.name ⟨params, returns, body, builtin⟩ } := by
  obtain ⟨definition, stored⟩ := List.forall_mem_cons.mp code
  exact
    { sound := ⟨h.sound.vars, h.sound.frames, h.sound.classes⟩
      holds := ⟨h.holds.functions.insert stored, h.holds.classes⟩
      defined := ⟨h.defined.functions.insert (.inr ⟨head, rfl, definition⟩), h.defined.classes⟩ }

private theorem Good.defineClass (h : m.Good P) {decl : ClassDecl}
    (code : ∀ x ∈ (Stmt.classDecl decl).nodes, P x) :
    Good P { m with env := m.env.defineClass decl.name decl } where
  sound :=
    { vars := h.sound.vars.imp fun _ _ plain => plain.mono (Table.namesIn_insert _ _ _)
      frames := fun saved there =>
        (h.sound.frames saved there).imp fun _ _ plain => plain.mono (Table.namesIn_insert _ _ _)
      classes := h.sound.classes.insert rfl }
  holds := ⟨h.holds.functions, h.holds.classes.insert (List.forall_mem_cons.mp code).2⟩
  defined := ⟨h.defined.functions, h.defined.classes.insert (List.forall_mem_cons.mp code).1⟩

end Machine

open Machine

namespace Evaluation

variable {α β : Type} {P : Node → Prop}

/-- That a computation, begun on a machine, leaves a good machine, and if it ends with a value then
with one for which `Q` holds there. -/
structure Secures (P : Node → Prop) (m : Machine) (x : Evaluation α) (Q : α → Machine → Prop) :
    Prop where
  good : (x m).2.Good P
  yields : ∀ {a n}, x m = (.ok a, n) → Q a n

theorem Secures.reached {m n : Machine} {x : Evaluation α} {Q : α → Machine → Prop} {a : α}
    (h : Secures P m x Q) (ended : x m = (.ok a, n)) : n.Good P ∧ Q a n := by
  have good := h.good
  rw [ended] at good
  exact ⟨good, h.yields ended⟩

abbrev Yields (v : Value) (n : Machine) : Prop :=
  v.Plain n.env.classes

abbrev Carries (carried : Option Value) (n : Machine) : Prop :=
  ∀ v ∈ carried, v.Plain n.env.classes

theorem secures_pure {Q : α → Machine → Prop} {m : Machine} (good : m.Good P) {a : α}
    (h : Q a m) : Secures P m (pure a) Q := by
  refine ⟨good, fun {b n} same => ?_⟩
  obtain ⟨value, machine⟩ := Prod.mk.inj same
  obtain rfl := Except.ok.inj value
  exact machine ▸ h

private theorem secures_raise {Q : α → Machine → Prop} {m : Machine} (good : m.Good P)
    (cause : EvalCause) (position : Position) : Secures P m (raise cause position) Q :=
  ⟨good, nofun⟩

theorem Secures.bind {m : Machine} {x : Evaluation α} {f : α → Evaluation β}
    {Q : α → Machine → Prop} {R : β → Machine → Prop} (first : Secures P m x Q)
    (second : ∀ a n, n.Good P → Q a n → Secures P n (f a) R) : Secures P m (x >>= f) R := by
  obtain ⟨good, yields⟩ := first
  rcases hx : x m with ⟨stop | a, n⟩
  · have same := Attempt.bind_apply_error (f := f) hx
    rw [hx] at good
    exact ⟨by rw [same]; exact good, fun ended => by rw [same] at ended; cases ended⟩
  · have same := Attempt.bind_apply_ok (f := f) hx
    rw [hx] at good
    obtain ⟨good', yields'⟩ := second a n good (yields hx)
    exact ⟨by rw [same]; exact good', fun ended => yields' (same ▸ ended)⟩

theorem Secures.map {m : Machine} {x : Evaluation α} {Q : α → Machine → Prop}
    {R : β → Machine → Prop} (h : Secures P m x Q) (f : α → β) (step : ∀ a n, Q a n → R (f a) n) :
    Secures P m (f <$> x) R := by
  rw [map_eq_pure_bind]
  exact h.bind fun a n good holds => secures_pure good (step a n holds)

private theorem secures_environment {m : Machine} {f : Environment → Evaluation α}
    {Q : α → Machine → Prop} (h : Secures P m (f m.env) Q) : Secures P m (environment >>= f) Q :=
  ⟨h.good, h.yields⟩

private theorem secures_modify {m : Machine} {g : Machine → Machine} {f : Unit → Evaluation α}
    {Q : α → Machine → Prop} (h : Secures P (g m) (f ()) Q) : Secures P m (modify g >>= f) Q :=
  ⟨h.good, h.yields⟩

private theorem Secures.inFrame {m : Machine} {x : Evaluation Value} (good : m.Good P)
    (hx : Leaves KeepsFrames x) (h : Secures P m.pushFrame x Yields) :
    Secures P m (inFrame x) Yields := by
  have same := inFrame_apply hx m
  refine ⟨?_, fun {v n} ended => ?_⟩
  · rw [same]
    exact good.restore h.good (hx m.pushFrame).classes
  · rw [same] at ended
    obtain ⟨value, rfl⟩ := Prod.mk.inj ended
    have plain : Yields v (x m.pushFrame).2 := h.yields (Prod.ext value rfl)
    exact plain

section Open

variable {bodyOf : List Stmt → Evaluation (Option Value)}

/-- That the bodies which are called secure plain values, and leave the frames. -/
structure SecureBodies (P : Node → Prop) (bodyOf : List Stmt → Evaluation (Option Value)) :
    Prop where
  secures : ∀ {body m}, (∀ x ∈ blockNodes body, P x) → m.Good P →
    Secures P m (bodyOf body) Carries
  leaves : ∀ body, Leaves KeepsFrames (bodyOf body)

/-- What a body yields: the value that it carries, or else the one that its type starts from. -/
private theorem secures_result (hb : SecureBodies P bodyOf) {body : List Stmt} {m : Machine}
    (code : ∀ x ∈ blockNodes body, P x) (good : m.Good P) (type : Ty) :
    Secures P m (do return (← bodyOf body).getD (.zero type)) Yields := by
  refine (hb.secures code good).bind fun carried n reached plain => secures_pure reached ?_
  cases carried with
  | none => exact Value.plain_zero _ type
  | some v => exact plain v rfl

theorem secures_functionFrame (hb : SecureBodies P bodyOf) {f : Callable} {args : List Expr}
    {m : Machine} (code : ∀ x ∈ blockNodes f.body, P x)
    (bound : Secures P m (bindCheckedWith bodyOf f.params args) fun _ _ => True) :
    Secures P m (functionFrame bodyOf f args) Yields :=
  bound.bind fun _ _ reached _ => secures_result hb code reached f.returns.type

theorem secures_methodFrame (hb : SecureBodies P bodyOf) {this : Value} {routine : Routine}
    {args : List Expr} {m : Machine} (code : ∀ x ∈ blockNodes routine.body, P x)
    (bound : Secures P { m with env := m.env.defineVariable "this" this }
      (bindWith bodyOf routine.signature.params args) fun _ _ => True) :
    Secures P m (methodFrame bodyOf this routine args) Yields :=
  secures_modify
    (bound.bind fun _ _ reached _ => secures_result hb code reached routine.signature.returns.type)

mutual

theorem secures_evaluateWith (hb : SecureBodies P bodyOf) :
    ∀ (e : Expr) {m : Machine}, m.Good P → Secures P m (evaluateWith bodyOf e) Yields
  | .integer _ n, m, good => by
    simp only [evaluateWith]
    exact secures_pure good (Value.plain_int _ _)
  | .string _ text, m, good => by
    simp only [evaluateWith]
    exact secures_pure good trivial
  | .template _ text, m, good => by
    simp only [evaluateWith]
    exact secures_environment (secures_pure good trivial)
  | .identifier p name, m, good => by
    simp only [evaluateWith]
    refine secures_environment ?_
    cases found : m.env.vars.get? name with
    | some v => exact secures_pure good (good.sound.vars.get? found)
    | none => exact secures_raise good _ _
  | .binary p operator left right, m, good => by
    simp only [evaluateWith]
    refine (secures_evaluateWith hb left good).bind fun a n goodLeft _ => ?_
    refine (secures_evaluateWith hb right goodLeft).bind fun b k goodRight _ => ?_
    cases result : Value.operate operator a b with
    | ok v => exact secures_pure goodRight (Value.plain_operate _ result)
    | error cause => exact secures_raise goodRight _ _
  | .functionCall p name args, m, good => by
    by_cases print : name = "print"
    · subst print
      rw [evaluateWith_print]
      refine (secures_evaluateSoleWith hb args good).bind fun sole n reached _ => ?_
      cases sole with
      | some v => exact secures_modify (secures_pure (reached.print _) trivial)
      | none => exact secures_raise reached _ _
    · simp only [evaluateWith, if_neg print]
      refine secures_environment ?_
      cases found : m.env.functions.get? name with
      | none => exact secures_raise good _ _
      | some f =>
        dsimp only
        split
        · exact secures_raise good _ _
        · refine secures_environment (secures_modify ?_)
          refine Secures.inFrame (good.record _) (leaves_functionFrame hb.leaves f args) ?_
          exact secures_functionFrame hb (good.holds.functions.get? found)
            (secures_bindCheckedWith hb f.params args (good.record _).pushFrame)
  | .methodCall p receiver method args, m, good => by
    simp only [evaluateWith]
    refine (secures_evaluateWith hb receiver good).bind fun this n reached plain => ?_
    cases this with
    | object className fields =>
      refine secures_environment ?_
      cases found : n.env.classes.get? className with
      | none => exact secures_raise reached _ _
      | some decl =>
        dsimp only
        cases named : decl.methods.find? (·.signature.name = method) with
        | none => exact secures_raise reached _ _
        | some r =>
          dsimp only
          split
          · exact secures_raise reached _ _
          · refine secures_environment (secures_modify ?_)
            refine Secures.inFrame (reached.record _) (leaves_methodFrame hb.leaves _ r args) ?_
            refine secures_methodFrame hb (reached.holds.method found named)
              (secures_bindWith hb r.signature.params args ?_)
            exact (reached.record _).pushFrame.defineVariable "this" plain
    | _ => exact secures_raise reached _ _
  | .fieldAccess p receiver field, m, good => by
    simp only [evaluateWith]
    refine (secures_evaluateWith hb receiver good).bind fun object n reached plain => ?_
    cases object with
    | object className fields =>
      dsimp only
      cases found : fields.get? field with
      | some v => exact secures_pure reached (Value.plain_field plain found)
      | none => exact secures_raise reached _ _
    | _ => exact secures_raise reached _ _
  | .creation p className args, m, good => by
    simp only [evaluateWith]
    refine secures_environment ?_
    cases found : m.env.classes.get? className with
    | some decl => exact secures_pure good (Value.plain_newObject found)
    | none => exact secures_raise good _ _

private theorem secures_evaluateSoleWith (hb : SecureBodies P bodyOf) :
    ∀ (args : List Expr) {m : Machine}, m.Good P →
      Secures P m (evaluateSoleWith bodyOf args) fun _ _ => True
  | [], m, good | _ :: _ :: _, m, good => by
    simp only [evaluateSoleWith]
    exact secures_pure good trivial
  | [arg], m, good => by
    simp only [evaluateSoleWith]
    exact (secures_evaluateWith hb arg good).map some fun _ _ _ => trivial

theorem secures_bindCheckedWith (hb : SecureBodies P bodyOf) :
    ∀ (params : List Param) (args : List Expr) {m : Machine}, m.Good P →
      Secures P m (bindCheckedWith bodyOf params args) fun _ _ => True
  | param :: params, arg :: args, m, good => by
    simp only [bindCheckedWith]
    refine (secures_evaluateWith hb arg good).bind fun v n reached plain => ?_
    split
    · exact secures_modify (secures_bindCheckedWith hb params args
        (reached.defineVariable param.name plain))
    · exact secures_raise reached _ _
  | [], _, m, good | _ :: _, [], m, good => by
    simp only [bindCheckedWith]
    exact secures_pure good trivial

theorem secures_bindWith (hb : SecureBodies P bodyOf) :
    ∀ (params : List Param) (args : List Expr) {m : Machine}, m.Good P →
      Secures P m (bindWith bodyOf params args) fun _ _ => True
  | param :: params, arg :: args, m, good => by
    simp only [bindWith]
    refine (secures_evaluateWith hb arg good).bind fun v n reached plain => ?_
    exact secures_modify (secures_bindWith hb params args (reached.defineVariable param.name plain))
  | [], _, m, good | _ :: _, [], m, good => by
    simp only [bindWith]
    exact secures_pure good trivial

end

mutual

/-- A statement carries a plain value if any. Its nodes are stored by the definitions in it. -/
theorem secures_executeWith (hb : SecureBodies P bodyOf) :
    ∀ (s : Stmt) {m : Machine}, (∀ x ∈ s.nodes, P x) → m.Good P →
      Secures P m (executeWith bodyOf s) Carries
  | .declaration p type name value, m, code, good => by
    simp only [executeWith]
    refine (secures_evaluateWith hb value good).bind fun v n reached plain => ?_
    split
    · exact secures_modify (secures_pure (reached.defineVariable name plain) nofun)
    · exact secures_raise reached _ _
  | .expression _ e, m, code, good => by
    simp only [executeWith]
    refine (secures_evaluateWith hb e good).map some fun v n plain => ?_
    rintro _ ⟨⟩
    exact plain
  | .conditional p condition thenBody elseBody, m, code, good => by
    simp only [executeWith]
    refine (secures_evaluateWith hb condition good).bind fun v n reached _ => ?_
    split
    · refine secures_executeBlockWith hb thenBody (fun x there => code x ?_) reached
      simp [Stmt.nodes, there]
    · refine secures_executeElseWith hb elseBody (fun x there => code x ?_) reached
      simp [Stmt.nodes, there]
  | .assignment p target value, m, code, good => by
    simp only [executeWith]
    refine (secures_evaluateWith hb value good).bind fun v n reached plain => ?_
    split
    · exact secures_modify (secures_pure (reached.defineVariable _ plain) nofun)
    · exact secures_raise reached _ _
  | .function ⟨head, body⟩, m, code, good => by
    simp only [executeWith]
    refine secures_modify (secures_modify (secures_pure ?_ nofun))
    exact (good.record _).defineFunction code _ _ _
  | .classDecl decl, m, code, good => by
    simp only [executeWith]
    refine secures_modify (secures_modify (secures_pure ?_ nofun))
    exact (good.record _).defineClass code
  | .interfaceDecl decl, m, code, good => by
    simp only [executeWith]
    refine secures_modify (secures_modify (secures_pure ?_ nofun))
    exact ⟨⟨good.sound.vars, good.sound.frames, good.sound.classes⟩,
      ⟨good.holds.functions, good.holds.classes⟩,
      ⟨good.defined.functions, good.defined.classes⟩⟩

theorem secures_executeBlockWith (hb : SecureBodies P bodyOf) :
    ∀ (body : List Stmt) {m : Machine}, (∀ x ∈ blockNodes body, P x) → m.Good P →
      Secures P m (executeBlockWith bodyOf body) Carries
  | [], m, code, good => by
    simp only [executeBlockWith]
    exact secures_pure good nofun
  | s :: more, m, code, good => by
    simp only [executeBlockWith]
    obtain ⟨first, rest⟩ : (∀ x ∈ s.nodes, P x) ∧ ∀ x ∈ blockNodes more, P x := by
      simpa only [blockNodes, List.forall_mem_append] using code
    refine (secures_executeWith hb s first good).bind fun carried n reached plain => ?_
    cases carried with
    | some v => exact secures_pure reached plain
    | none => exact secures_executeBlockWith hb more rest reached

private theorem secures_executeElseWith (hb : SecureBodies P bodyOf) :
    ∀ (body : Option (List Stmt)) {m : Machine}, (∀ x ∈ elseNodes body, P x) → m.Good P →
      Secures P m (executeElseWith bodyOf body) Carries
  | none, m, code, good => by
    simp only [executeElseWith]
    exact secures_pure good nofun
  | some body, m, code, good => by
    simp only [executeElseWith]
    exact secures_executeBlockWith hb body code good

end

theorem secures_interpretWith (hb : SecureBodies P bodyOf) (body : List Stmt) {m : Machine}
    (code : ∀ x ∈ blockNodes body, P x) (good : m.Good P) :
    Secures P m (interpretWith bodyOf body) fun _ _ => True := by
  induction body generalizing m with
  | nil => exact secures_pure good trivial
  | cons s more ih =>
    obtain ⟨first, rest⟩ : (∀ x ∈ s.nodes, P x) ∧ ∀ x ∈ blockNodes more, P x := by
      simpa only [blockNodes, List.forall_mem_append] using code
    have executed := secures_executeWith hb s first good
    refine (executed.map (R := fun _ _ => True) _ fun _ _ _ => trivial).bind fun _ n reached _ => ?_
    exact ih rest reached

end Open

theorem secureBodies_bodyWithin (P : Node → Prop) (limit : Nat) :
    SecureBodies P (bodyWithin limit) := by
  refine ⟨?_, leaves_bodyWithin limit⟩
  induction limit with
  | zero => exact fun _ good => ⟨good, nofun⟩
  | succ limit ih =>
    intro body m code good
    exact secures_executeBlockWith ⟨ih, leaves_bodyWithin limit⟩ body code good

end Evaluation

end ScriptLang
