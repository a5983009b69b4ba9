import ScriptLang.Program

/-!
Values and the environments that name them: tables of variables, functions and classes, and the
frames that calls put aside.
-/

set_option autoImplicit false
set_option relaxedAutoImplicit false

namespace ScriptLang

/-! ## Tables

Tables of named things in the order of their first definition. The last definition of a name
counts and keeps the place of the first.
-/

structure Table (α : Type) where
  entries : List (String × α)
deriving Repr, Inhabited

namespace Table

variable {α : Type}

def empty : Table α := ⟨[]⟩

def get? (t : Table α) (name : String) : Option α :=
  t.entries.lookup name

def insertEntry (name : String) (a : α) : List (String × α) → List (String × α)
  | [] => [(name, a)]
  | (other, b) :: rest =>
    if other = name then (name, a) :: rest else (other, b) :: insertEntry name a rest

def insert (t : Table α) (name : String) (a : α) : Table α :=
  ⟨insertEntry name a t.entries⟩

def size (t : Table α) : Nat :=
  t.entries.length

def ofList (definitions : List (String × α)) : Table α :=
  definitions.foldl (fun t (name, a) => t.insert name a) empty

private theorem lookup_insertEntry (name other : String) (a : α) (entries : List (String × α)) :
    (insertEntry name a entries).lookup other =
      if other = name then some a else entries.lookup other := by
  induction entries with
  | nil => grind [insertEntry]
  | cons entry rest ih => grind [insertEntry]

/-- A definition changes what its own name stands for and nothing else. -/
theorem get?_insert (t : Table α) (name other : String) (a : α) :
    (t.insert name a).get? other = if other = name then some a else t.get? other :=
  lookup_insertEntry name other a t.entries

end Table

/-! ## Integers

The integers of the language beside the unbounded ones: reduction to 64 bits and truncated
division. The statements at the end say that 64-bit operations are the unbounded ones, reduced.
-/

/-- The number from `-2 ^ 63` to `2 ^ 63 - 1` that differs from `n` by a multiple of `2 ^ 64`. -/
def wrap (n : Int) : Int :=
  n.bmod Int64.size

/-- The quotient of two integers without its fraction: the quotient of the magnitudes, negative
when exactly one of the two is. -/
def truncatedQuotient (a b : Int) : Int :=
  let q : Int := a.natAbs / b.natAbs
  if (a < 0) = (b < 0) then q else -q

theorem toInt_ofInt_eq_wrap (n : Int) : (Int64.ofInt n).toInt = wrap n :=
  Int64.toInt_ofInt

theorem toInt_add_eq_wrap (a b : Int64) : (a + b).toInt = wrap (a.toInt + b.toInt) :=
  Int64.toInt_add a b

theorem toInt_sub_eq_wrap (a b : Int64) : (a - b).toInt = wrap (a.toInt - b.toInt) :=
  Int64.toInt_sub a b

theorem toInt_mul_eq_wrap (a b : Int64) : (a * b).toInt = wrap (a.toInt * b.toInt) :=
  Int64.toInt_mul a b

theorem truncatedQuotient_eq_tdiv (a b : Int) : truncatedQuotient a b = a.tdiv b := by
  unfold truncatedQuotient
  rcases Int.natAbs_eq a with ha | ha <;> rcases Int.natAbs_eq b with hb | hb <;>
    rw [ha, hb] <;> generalize a.natAbs = m <;> generalize b.natAbs = n <;>
    by_cases hm : m = 0 <;> by_cases hn : n = 0 <;>
    simp [hm, hn] <;> omega

theorem toInt_div_eq_wrap (a b : Int64) :
    (a / b).toInt = wrap (truncatedQuotient a.toInt b.toInt) := by
  rw [truncatedQuotient_eq_tdiv]
  exact Int64.toInt_div a b

/-! ## Values

Values of running programs: what they are, how they are shown, and which declared types they fit.
-/

/-- A function as a value. It closes over nothing. -/
structure Callable where
  params : List Param
  returns : TypeRef
  body : List Stmt
  builtin : Bool

/-- A value. Integers have 64 bits and wrap around. -/
inductive Value where
  | int (n : Int64)
  | string (text : String)
  | void
  | function (f : Callable)
  | object (className : String) (fields : Table Value)

namespace Value

def display : Value → String
  | int n => toString n.toInt
  | string text => text
  | void => "void"
  | function _ => "<function>"
  | object className _ => "<" ++ className ++ " object>"

def isTruthy : Value → Bool
  | int n => n ≠ 0
  | string text => text ≠ ""
  | void => false
  | function _ => true
  | object _ _ => true

def kindName : Value → String
  | int _ => "Int"
  | string _ => "String"
  | void => "Void"
  | function _ => "Function"
  | object className _ => className

/-- Whether a value may be bound to a name declared with a type. A class admits its own objects
only. -/
def fits : Ty → Value → Bool
  | .int, int _ => true
  | .string, string _ => true
  | .void, void => true
  | .named name, object className _ => className = name
  | _, _ => false

/-- The value that a declared type starts from; a class starts from nothing. -/
def zero : Ty → Value
  | .int => int 0
  | .string => string ""
  | .void => void
  | .named _ => void

def ofInt (n : Int) : Value :=
  int (Int64.ofInt n)

def newObject (className : String) (decl : ClassDecl) : Value :=
  object className (.ofList (decl.fields.map fun f => (f.name, zero f.type.type)))

end Value

/-! ## Environments

Environments: four flat tables of names and a stack of saved variable tables. There is no nesting
of scopes: a call sees every variable of its caller, and leaving it restores the table saved on
entry.
-/

/-- The names that a program has defined, and the variable tables saved by the calls in progress,
the innermost first. -/
structure Environment where
  vars : Table Value
  functions : Table Callable
  classes : Table ClassDecl
  interfaces : Table InterfaceDecl
  frames : List (Table Value)

/-- The function that every environment starts with. Its parameter stands nowhere in a source. -/
def Callable.print : Callable :=
  let nowhere : Position := ⟨0, 0⟩
  { params := [⟨nowhere, "value", ⟨nowhere, .string⟩⟩]
    returns := ⟨nowhere, .string⟩
    body := []
    builtin := true }

namespace Environment

def initial : Environment where
  vars := .empty
  functions := Table.empty.insert "print" .print
  classes := .empty
  interfaces := .empty
  frames := []

def depth (env : Environment) : Nat :=
  env.frames.length

def defineVariable (env : Environment) (name : String) (v : Value) : Environment :=
  { env with vars := env.vars.insert name v }

def defineFunction (env : Environment) (name : String) (f : Callable) : Environment :=
  { env with functions := env.functions.insert name f }

def defineClass (env : Environment) (name : String) (decl : ClassDecl) : Environment :=
  { env with classes := env.classes.insert name decl }

def defineInterface (env : Environment) (name : String) (decl : InterfaceDecl) : Environment :=
  { env with interfaces := env.interfaces.insert name decl }

def pushFrame (env : Environment) : Environment :=
  { env with frames := env.vars :: env.frames }

def popFrame? (env : Environment) : Option Environment :=
  match env.frames with
  | [] => none
  | saved :: frames => some { env with vars := saved, frames := frames }

@[simp] theorem popFrame?_pushFrame (env : Environment) : env.pushFrame.popFrame? = some env := rfl

@[simp] theorem depth_pushFrame (env : Environment) : env.pushFrame.depth = env.depth + 1 := rfl

end Environment

end ScriptLang
