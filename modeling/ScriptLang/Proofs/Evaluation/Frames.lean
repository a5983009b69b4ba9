import Mathlib.Data.List.Infix
import ScriptLang.Evaluation

/-!
The discipline of frames, whoever changes an environment and in whatever order. What happens between
the opening of a frame and the closing that belongs to it leaves no mark on variables and frames,
and what it defines otherwise stays. Only a closing can fail, when as many frames have been closed
as there ever were.
-/

set_option autoImplicit false
set_option relaxedAutoImplicit false

namespace ScriptLang

inductive Edit where
  | defineVariable (name : String) (v : Value)
  | defineFunction (name : String) (f : Callable)
  | defineClass (name : String) (decl : ClassDecl)
  | defineInterface (name : String) (decl : InterfaceDecl)
  | pushFrame
  | popFrame

namespace Edit

def perform : Edit → Evaluation Unit
  | defineVariable name v => Evaluation.defineVariable name v
  | defineFunction name f => Evaluation.modifyEnvironment (·.defineFunction name f)
  | defineClass name decl => Evaluation.modifyEnvironment (·.defineClass name decl)
  | defineInterface name decl => Evaluation.modifyEnvironment (·.defineInterface name decl)
  | pushFrame => modify Machine.pushFrame
  | popFrame => Evaluation.popFrame

/-- The machine after changes made one after the other, whether they fail or not. -/
def performAll (m : Machine) (edits : List Edit) : Machine :=
  edits.foldl (fun m e => (e.perform m).2) m

def isPush : Edit → Bool
  | pushFrame => true
  | _ => false

def isPop : Edit → Bool
  | popFrame => true
  | _ => false

def pushes (edits : List Edit) : Nat :=
  edits.countP isPush

/-- The number of times that changes close a frame or fail to. -/
def pops (edits : List Edit) : Nat :=
  edits.countP isPop

def popsMade (m : Machine) : List Edit → Nat
  | [] => 0
  | e :: more =>
    (if e.isPop && (e.perform m).1.isOk then 1 else 0) + popsMade (e.perform m).2 more

def function? : Edit → Option (String × Callable)
  | defineFunction name f => some (name, f)
  | _ => none

def classDecl? : Edit → Option (String × ClassDecl)
  | defineClass name decl => some (name, decl)
  | _ => none

def interfaceDecl? : Edit → Option (String × InterfaceDecl)
  | defineInterface name decl => some (name, decl)
  | _ => none

/-- That changes close the frames that they open and never one that they did not open. -/
structure Enclosed (inner : List Edit) : Prop where
  never_below : ∀ front, front <+: inner → pops front ≤ pushes front
  matched : pops inner = pushes inner

variable {m : Machine} {e : Edit} {edits inner : List Edit} {stack base : List (Table Value)}

private theorem performAll_append (m : Machine) (front back : List Edit) :
    performAll m (front ++ back) = performAll (performAll m front) back :=
  List.foldl_append

private theorem popsMade_append (m : Machine) (front back : List Edit) :
    popsMade m (front ++ back) = popsMade m front + popsMade (performAll m front) back := by
  induction front generalizing m with
  | nil => exact (Nat.zero_add _).symm
  | cons e more ih =>
    rw [List.cons_append, popsMade, ih, popsMade, Nat.add_assoc]
    rfl

private theorem pushes_cons (e : Edit) (more : List Edit) :
    pushes (e :: more) = pushes [e] + pushes more := by
  change pushes ([e] ++ more) = _
  exact List.countP_append

private theorem pops_cons (e : Edit) (more : List Edit) :
    pops (e :: more) = pops [e] + pops more := by
  change pops ([e] ++ more) = _
  exact List.countP_append

private theorem perform_popFrame_nil (h : m.env.frames = []) :
    popFrame.perform m = (.error .noFrame, m) := by
  simp only [perform, Evaluation.popFrame, Environment.popFrame?, h]

private theorem perform_popFrame_cons {saved : Table Value} {frames : List (Table Value)}
    (h : m.env.frames = saved :: frames) :
    popFrame.perform m =
      (.ok (), { m with env := { m.env with vars := saved, frames := frames } }.record
        (.popFrame m.env.depth)) := by
  simp only [perform, Evaluation.popFrame, Environment.popFrame?, h]

section Stack

/-- One change works on the frames above a base and leaves the base, unless it is a closing and
there is no frame above it. -/
private theorem perform_stack (h : m.env.frames = stack ++ base) (above : pops [e] ≤ stack.length) :
    (e.perform m).1 = .ok () ∧ ∃ stack', (e.perform m).2.env.frames = stack' ++ base ∧
      stack'.length + pops [e] = stack.length + pushes [e] := by
  cases e with
  | pushFrame => exact ⟨rfl, m.env.vars :: stack, congrArg (m.env.vars :: ·) h, rfl⟩
  | popFrame =>
    cases stack with
    | nil => exact absurd above (by decide)
    | cons saved stack =>
      rw [perform_popFrame_cons h]
      exact ⟨rfl, stack, rfl, rfl⟩
  | _ => exact ⟨rfl, stack, h, rfl⟩

theorem performAll_stack (h : m.env.frames = stack ++ base)
    (above : ∀ front, front <+: edits → pops front ≤ stack.length + pushes front) :
    popsMade m edits = pops edits ∧ ∃ stack', (performAll m edits).env.frames = stack' ++ base ∧
      stack'.length + pops edits = stack.length + pushes edits := by
  induction edits generalizing m stack with
  | nil => exact ⟨rfl, stack, h, rfl⟩
  | cons e more ih =>
    have single : pops [e] ≤ stack.length := by
      have reach := above [e] ⟨more, rfl⟩
      cases e with
      | pushFrame => exact Nat.zero_le _
      | _ => exact reach
    obtain ⟨made, stack₁, frames₁, count₁⟩ := perform_stack h single
    have later : ∀ front, front <+: more → pops front ≤ stack₁.length + pushes front := by
      intro front before
      have reach := above (e :: front) (List.cons_prefix_cons.mpr ⟨rfl, before⟩)
      rw [pops_cons, pushes_cons] at reach
      omega
    obtain ⟨rest, stack₂, frames₂, count₂⟩ := ih frames₁ later
    refine ⟨?_, stack₂, frames₂, ?_⟩
    · rw [popsMade, rest, made, pops_cons]
      cases e <;> rfl
    · rw [pops_cons, pushes_cons]
      omega

/-- What happens in a frame that is opened for it and closed after it leaves no mark on variables
and frames. -/
private theorem performAll_enclosed (h : Enclosed inner) (m : Machine) :
    let edits := pushFrame :: (inner ++ [popFrame])
    (performAll m edits).env.vars = m.env.vars ∧ (performAll m edits).env.frames = m.env.frames ∧
      popsMade m edits = pops edits := by
  intro edits
  -- The base is what the opening saves, so the changes inside work on nothing else.
  have opened : m.pushFrame.env.frames = [] ++ m.env.vars :: m.env.frames := rfl
  obtain ⟨made, stack, frames, count⟩ := performAll_stack opened fun front before =>
    le_of_le_of_eq (h.never_below front before) (Nat.zero_add _).symm
  have empty : stack = [] := by
    rw [h.matched] at count
    exact List.length_eq_zero_iff.mp (Nat.add_right_cancel count)
  subst empty
  have closed := perform_popFrame_cons frames
  have reached : performAll m edits = (popFrame.perform (performAll m.pushFrame inner)).2 :=
    performAll_append m.pushFrame inner [popFrame]
  have counted : popsMade m edits = pops inner + 1 := by
    change 0 + popsMade m.pushFrame (inner ++ [popFrame]) = _
    rw [Nat.zero_add, popsMade_append, made]
    simp only [popsMade, closed]
    rfl
  have tried : pops edits = pops inner + 1 := by
    simp [edits, pops, isPop]
  rw [reached, closed, counted, tried]
  exact ⟨rfl, rfl, rfl⟩

end Stack

section Tables

variable {α : Type}

private theorem get?_performAll (table : Environment → Table α)
    (defined? : Edit → Option (String × α))
    (step : ∀ e m, table (e.perform m).2.env = (defined? e).elim (table m.env)
      fun (name, a) => (table m.env).insert name a)
    (m : Machine) (edits : List Edit) (name : String) :
    (table (performAll m edits).env).get? name =
      ((edits.filterMap defined?).reverse.lookup name).or ((table m.env).get? name) := by
  induction edits generalizing m with
  | nil => rfl
  | cons e more ih =>
    have first : performAll m (e :: more) = performAll (e.perform m).2 more := rfl
    rw [first, ih, step]
    cases defines : defined? e with
    | none => rw [List.filterMap_cons_none defines, Option.elim_none]
    | some definition =>
      obtain ⟨other, a⟩ := definition
      rw [List.filterMap_cons_some defines, List.reverse_cons, List.lookup_append,
        Option.elim_some, Table.get?_insert, Option.or_assoc, List.lookup_cons]
      by_cases same : name = other
      · simp [same]
      · simp [same, beq_eq_false_iff_ne.mpr same]

private theorem table_popFrame (table : Environment → Table α)
    (apart : ∀ env vars frames, table { env with vars := vars, frames := frames } = table env)
    (m : Machine) : table (popFrame.perform m).2.env = table m.env := by
  cases h : m.env.frames with
  | nil => rw [perform_popFrame_nil h]
  | cons saved frames =>
    rw [perform_popFrame_cons h]
    exact apart m.env saved frames

private theorem get?_functions (m : Machine) (edits : List Edit) (name : String) :
    (performAll m edits).env.functions.get? name =
      ((edits.filterMap function?).reverse.lookup name).or (m.env.functions.get? name) := by
  refine get?_performAll (·.functions) function? (fun e m => ?_) m edits name
  cases e with
  | popFrame => exact table_popFrame (·.functions) (fun _ _ _ => rfl) m
  | _ => rfl

private theorem get?_classes (m : Machine) (edits : List Edit) (name : String) :
    (performAll m edits).env.classes.get? name =
      ((edits.filterMap classDecl?).reverse.lookup name).or (m.env.classes.get? name) := by
  refine get?_performAll (·.classes) classDecl? (fun e m => ?_) m edits name
  cases e with
  | popFrame => exact table_popFrame (·.classes) (fun _ _ _ => rfl) m
  | _ => rfl

private theorem get?_interfaces (m : Machine) (edits : List Edit) (name : String) :
    (performAll m edits).env.interfaces.get? name =
      ((edits.filterMap interfaceDecl?).reverse.lookup name).or (m.env.interfaces.get? name) := by
  refine get?_performAll (·.interfaces) interfaceDecl? (fun e m => ?_) m edits name
  cases e with
  | popFrame => exact table_popFrame (·.interfaces) (fun _ _ _ => rfl) m
  | _ => rfl

end Tables

section Depth

private theorem depth_perform (e : Edit) (m : Machine) :
    (e.perform m).2.env.depth + popsMade m [e] = m.env.depth + pushes [e] := by
  cases e with
  | popFrame =>
    cases h : m.env.frames with
    | nil => simp [popsMade, perform_popFrame_nil h, pushes, isPush, Except.isOk, Except.toBool]
    | cons saved frames =>
      simp [popsMade, perform_popFrame_cons h, pushes, isPush, isPop, Except.isOk, Except.toBool,
        Environment.depth, Machine.record, h]
  | _ => rfl

theorem depth_performAll (m : Machine) (edits : List Edit) :
    (performAll m edits).env.depth + popsMade m edits = m.env.depth + pushes edits := by
  induction edits generalizing m with
  | nil => rfl
  | cons e more ih =>
    have rest := ih (e.perform m).2
    have first := depth_perform e m
    have split : popsMade m (e :: more) = popsMade m [e] + popsMade (e.perform m).2 more := rfl
    have whole : performAll m (e :: more) = performAll (e.perform m).2 more := rfl
    rw [whole, split, pushes_cons]
    omega

private theorem perform_popFrame_iff :
    (popFrame.perform m = (.error .noFrame, m) ↔ m.env.depth = 0) ∧
      ((popFrame.perform m).1 = .ok () ↔ m.env.depth ≠ 0) := by
  cases h : m.env.frames with
  | nil => simp [perform_popFrame_nil h, Environment.depth, h]
  | cons saved frames => simp [perform_popFrame_cons h, Environment.depth, h]

end Depth

/-- Changes between the opening of a frame and the closing that belongs to it leave variables and
frames as they were; of functions, classes and interfaces the last definition of each name stays.
In any sequence of changes a closing fails, and then changes nothing, exactly if the frames closed
so far are those that were open at first and those opened so far. -/
theorem performAll_discipline (m : Machine) :
    (∀ inner, Enclosed inner →
      let edits := pushFrame :: (inner ++ [popFrame])
      let n := performAll m edits
      n.env.vars = m.env.vars ∧ n.env.frames = m.env.frames ∧ popsMade m edits = pops edits ∧
        ∀ name,
          n.env.functions.get? name =
            ((edits.filterMap function?).reverse.lookup name).or (m.env.functions.get? name) ∧
          n.env.classes.get? name =
            ((edits.filterMap classDecl?).reverse.lookup name).or (m.env.classes.get? name) ∧
          n.env.interfaces.get? name =
            ((edits.filterMap interfaceDecl?).reverse.lookup name).or
              (m.env.interfaces.get? name)) ∧
      (∀ edits,
        let n := performAll m edits
        (popFrame.perform n = (.error .noFrame, n) ↔
          popsMade m edits = m.env.depth + pushes edits) ∧
        ((popFrame.perform n).1 = .ok () ↔ popsMade m edits ≠ m.env.depth + pushes edits)) ∧
      Stop.noFrame.message? = some "no frame" := by
  refine ⟨?_, ?_, rfl⟩
  · intro inner enclosed edits n
    obtain ⟨vars, frames, made⟩ := performAll_enclosed enclosed m
    refine ⟨vars, frames, made, fun name => ⟨?_, ?_, ?_⟩⟩
    · exact get?_functions m edits name
    · exact get?_classes m edits name
    · exact get?_interfaces m edits name
  · intro edits n
    have balance := depth_performAll m edits
    have exhausted : n.env.depth = 0 ↔ popsMade m edits = m.env.depth + pushes edits := by
      change (performAll m edits).env.depth = 0 ↔ _
      omega
    exact ⟨perform_popFrame_iff.1.trans exhausted,
      perform_popFrame_iff.2.trans (not_congr exhausted)⟩

/-- Two frames, one in the other, a function that is defined in both, and a closing too many. -/
theorem performAll_discipline_of_two_frames :
    let f : Callable := { Callable.print with builtin := false }
    let inner := [defineVariable "x" (.int 2), pushFrame, defineFunction "f" f,
      defineVariable "y" .void, popFrame, defineFunction "f" .print]
    let edits := pushFrame :: (inner ++ [popFrame])
    let env := Environment.initial.defineVariable "x" (.int 1)
    let m : Machine := { Machine.initial with env }
    let n := performAll m edits
    Enclosed inner ∧ n.env.vars = m.env.vars ∧ n.env.frames = m.env.frames ∧
      n.env.functions.get? "f" = some .print ∧ popFrame.perform n = (.error .noFrame, n) := by
  intro f inner edits env m n
  have fronts : ∀ front ∈ inner.inits, pops front ≤ pushes front := by decide
  have enclosed : Enclosed inner :=
    ⟨fun front before => fronts front ((List.mem_inits front inner).mpr before), rfl⟩
  obtain ⟨restores, fails, -⟩ := performAll_discipline m
  obtain ⟨vars, frames, made, tables⟩ := restores inner enclosed
  have last : n.env.functions.get? "f" = some .print := (tables "f").1
  have failed := (fails edits).1.mpr (made.trans rfl)
  exact ⟨enclosed, vars, frames, last, failed⟩

end Edit

end ScriptLang
