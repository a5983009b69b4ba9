import ScriptLang.Grammar
import ScriptLang.Program.Canonical

/-!
The grammar as a set of rules. A judgement says that a construct is spelled by the front of a token
list, and where the rest of the list begins. The rules know nothing of how a text is read: they do
not say when a repetition stops, and several may fit one list. Only two things are decided by a
look at the next token: an identifier right before a parenthesis is called, and a statement that
begins with a capitalized identifier and another identifier is a declaration.
-/

set_option autoImplicit false
set_option relaxedAutoImplicit false

namespace ScriptLang

namespace Grammar

def Opens : List Token → Prop
  | [] => False
  | t :: _ => t.spells "("

/-- Whether a declaration of a class variable stands right here: a capitalized identifier directly
followed by another identifier. -/
def DeclaresObject : List Token → Prop
  | t :: u :: _ => t.kind = .identifier ∧ isCapitalized t ∧ u.kind = .identifier
  | _ => False

inductive Run (test : Token → Prop) : List Token → List Token → Prop where
  | none {rest : List Token} : Run test rest rest
  | more {t : Token} {ts rest : List Token} : test t → Run test ts rest → Run test (t :: ts) rest

abbrev Newlines : List Token → List Token → Prop :=
  Run (·.kind = .newline)

/-- The constructs of the grammar of expressions. Operations are sorted by level: an expression of
a level holds, outside parentheses, only operators that bind at least as tightly. -/
inductive Phrase where
  /-- A literal, a name, a function call or an expression between parentheses. -/
  | atom (e : Expr)
  /-- Member accesses that make `e` of a receiver. -/
  | accesses (receiver e : Expr)
  /-- Operators of a level, each with its right operand, that make `e` of a left operand. -/
  | operands (level : Nat) (left e : Expr)
  | expression (level : Nat) (e : Expr)
  /-- Arguments one after the other. -/
  | items (args : List Expr)
  /-- Arguments between parentheses. -/
  | arguments (args : List Expr)

open Operator (primaryPrecedence)

inductive Derives : Phrase → List Token → List Token → Prop where
  | integer {t : Token} {rest : List Token} : t.kind = .integer →
      Derives (.atom (.integer t.position (Text.naturalValue t.text.toList))) (t :: rest) rest
  | string {t : Token} {rest : List Token} : t.kind = .string → ¬ Text.hasMarker t.text.toList →
      Derives (.atom (.string t.position t.text)) (t :: rest) rest
  | template {t : Token} {rest : List Token} : t.kind = .string → Text.hasMarker t.text.toList →
      Derives (.atom (.template t.position t.text)) (t :: rest) rest
  | identifier {t : Token} {rest : List Token} : t.kind = .identifier → ¬ Opens rest →
      Derives (.atom (.identifier t.position t.text)) (t :: rest) rest
  | functionCall {t : Token} {ts rest : List Token} {args : List Expr} : t.kind = .identifier →
      Derives (.arguments args) ts rest →
      Derives (.atom (.functionCall t.position t.text args)) (t :: ts) rest
  | group {p q : Token} {ts rest : List Token} {e : Expr} : p.spells "(" →
      Derives (.expression 1 e) ts (q :: rest) → q.spells ")" →
      Derives (.atom e) (p :: ts) rest
  | noAccess {rest : List Token} {e : Expr} : Derives (.accesses e e) rest rest
  | fieldAccess {d name : Token} {ts rest : List Token} {receiver e : Expr} : d.spells "." →
      name.kind = .identifier → ¬ Opens ts →
      Derives (.accesses (.fieldAccess receiver.position receiver name.text) e) ts rest →
      Derives (.accesses receiver e) (d :: name :: ts) rest
  | methodCall {d name : Token} {ts mid rest : List Token} {receiver e : Expr}
      {args : List Expr} : d.spells "." → name.kind = .identifier → name.text ≠ "new" →
      Derives (.arguments args) ts mid →
      Derives (.accesses (.methodCall receiver.position receiver name.text args) e) mid rest →
      Derives (.accesses receiver e) (d :: name :: ts) rest
  | creation {d name : Token} {ts mid rest : List Token} {position : Position}
      {className : String} {e : Expr} {args : List Expr} : d.spells "." →
      name.kind = .identifier → name.text = "new" → Derives (.arguments args) ts mid →
      Derives (.accesses (.creation position className args) e) mid rest →
      Derives (.accesses (.identifier position className) e) (d :: name :: ts) rest
  | noOperand {level : Nat} {rest : List Token} {e : Expr} :
      Derives (.operands level e e) rest rest
  | operand {level : Nat} {t : Token} {ts mid rest : List Token} {operator : Operator}
      {left right e : Expr} : 0 < level → operator.precedence = level →
      t.spells operator.sign →
      Derives (.expression (level + 1) right) ts mid →
      Derives (.operands level (.binary left.position operator left right) e) mid rest →
      Derives (.operands level left e) (t :: ts) rest
  | primary {ts mid rest : List Token} {a e : Expr} : Derives (.atom a) ts mid →
      Derives (.accesses a e) mid rest → Derives (.expression primaryPrecedence e) ts rest
  | operation {level : Nat} {ts mid rest : List Token} {left e : Expr} : 0 < level →
      level < primaryPrecedence → Derives (.expression (level + 1) left) ts mid →
      Derives (.operands level left e) mid rest → Derives (.expression level e) ts rest
  | noItem {rest : List Token} : Derives (.items []) rest rest
  | item {ts mid rest : List Token} {e : Expr} {es : List Expr} :
      Derives (.expression 1 e) ts mid → Derives (.items es) mid rest →
      Derives (.items (e :: es)) ts rest
  | arguments {p q : Token} {ts rest : List Token} {args : List Expr} : p.spells "(" →
      Derives (.items args) ts (q :: rest) → q.spells ")" →
      Derives (.arguments args) (p :: ts) rest

/-- The end of a line: a newline, or nothing before the end of the input. Without strict
terminators nothing is enough anywhere. -/
inductive LineEnd (mode : Terminators) : List Token → List Token → Prop where
  | newline {t : Token} {rest : List Token} : t.kind = .newline → LineEnd mode (t :: rest) rest
  | endOfInput {t : Token} {rest : List Token} : t.kind = .endOfInput →
      LineEnd mode (t :: rest) (t :: rest)
  | missing {t : Token} {rest : List Token} : mode = .lenient → t.kind ≠ .newline →
      t.kind ≠ .endOfInput → LineEnd mode (t :: rest) (t :: rest)

/-- Parameters up to and with the closing parenthesis. Stray tokens after each of them, neither
identifiers nor the parenthesis, mean nothing. -/
inductive Parameters : List Param → List Token → List Token → Prop where
  | none {q : Token} {rest : List Token} : q.spells ")" → Parameters [] (q :: rest) rest
  | param {name colon t : Token} {type : Ty} {ts mid rest : List Token} {ps : List Param} :
      name.kind = .identifier → colon.spells ":" → typeOf? t = some type →
      Run (isStray ·) ts mid → Parameters ps mid rest →
      Parameters (⟨name.position, name.text, ⟨t.position, type⟩⟩ :: ps) (name :: colon :: t :: ts)
        rest

inductive Heads (mode : Terminators) : Signature → List Token → List Token → Prop where
  | head {d name p separator t : Token} {type : Ty} {ts mid rest : List Token}
      {ps : List Param} : d.spells "def" → name.kind = .identifier → p.spells "(" →
      Parameters ps ts (separator :: t :: mid) → separator.kind = .operator →
      separator.text = "->" ∨ separator.text = ":" → typeOf? t = some type →
      LineEnd mode mid rest →
      Heads mode ⟨d.position, name.text, ps, ⟨t.position, type⟩⟩ (d :: name :: p :: ts) rest

/-- Heads of methods, with newlines before, between and after them. -/
inductive Signatures (mode : Terminators) : List Signature → List Token → List Token → Prop where
  | none {ts rest : List Token} : Newlines ts rest → Signatures mode [] ts rest
  | more {ts a b rest : List Token} {s : Signature} {ss : List Signature} : Newlines ts a →
      Heads mode s a b → Signatures mode ss b rest → Signatures mode (s :: ss) ts rest

inductive Fields (mode : Terminators) : Field → List Token → List Token → Prop where
  | field {t name : Token} {type : Ty} {ts rest : List Token} : typeOf? t = some type →
      name.kind = .identifier → LineEnd mode ts rest →
      Fields mode ⟨t.position, name.text, ⟨t.position, type⟩⟩ (t :: name :: ts) rest

inductive Implements : Option String → List Token → List Token → Prop where
  | none {rest : List Token} : Implements none rest rest
  | some {i name : Token} {rest : List Token} : i.spells "implements" →
      name.kind = .identifier → Implements (some name.text) (i :: name :: rest) rest

inductive Construct where
  | statement (s : Stmt)
  /-- Statements, with newlines before, between and after them. -/
  | block (body : List Stmt)
  /-- A function or method, with its body and its end. -/
  | routine (r : Routine)
  /-- Members of a class, with newlines before, between and after them. -/
  | members (fields : List Field) (methods : List Routine)

inductive Builds (mode : Terminators) : Construct → List Token → List Token → Prop where
  | declaration {t name q : Token} {type : Ty} {ts mid rest : List Token} {value : Expr} :
      typeOf? t = some type → (t.kind = .identifier → isCapitalized t) →
      name.kind = .identifier → q.spells "=" → Derives (.expression 1 value) ts mid →
      LineEnd mode mid rest →
      Builds mode (.statement (.declaration t.position ⟨t.position, type⟩ name.text value))
        (t :: name :: q :: ts) rest
  | function {ts rest : List Token} {r : Routine} : Builds mode (.routine r) ts rest →
      Builds mode (.statement (.function r)) ts rest
  | conditional {i e : Token} {ts a b c rest : List Token} {condition : Expr}
      {thenBody : List Stmt} : i.spells "if" → Derives (.expression 1 condition) ts a →
      LineEnd mode a b → Builds mode (.block thenBody) b (e :: c) → e.spells "end" →
      LineEnd mode c rest →
      Builds mode (.statement (.conditional i.position condition thenBody none)) (i :: ts) rest
  | alternative {i l e : Token} {ts a b c d f rest : List Token} {condition : Expr}
      {thenBody elseBody : List Stmt} : i.spells "if" →
      Derives (.expression 1 condition) ts a → LineEnd mode a b →
      Builds mode (.block thenBody) b (l :: c) → l.spells "else" → LineEnd mode c d →
      Builds mode (.block elseBody) d (e :: f) → e.spells "end" → LineEnd mode f rest →
      Builds mode (.statement (.conditional i.position condition thenBody (some elseBody)))
        (i :: ts) rest
  | classDecl {c name e : Token} {ts a b d rest : List Token} {implements : Option String}
      {fields : List Field} {methods : List Routine} : c.spells "class" →
      name.kind = .identifier → Implements implements ts a → LineEnd mode a b →
      Builds mode (.members fields methods) b (e :: d) → e.spells "end" → LineEnd mode d rest →
      Builds mode (.statement (.classDecl ⟨c.position, name.text, implements, fields, methods⟩))
        (c :: name :: ts) rest
  | interfaceDecl {i name e : Token} {ts a b rest : List Token} {methods : List Signature} :
      i.spells "interface" → name.kind = .identifier → LineEnd mode ts a →
      Signatures mode methods a (e :: b) → e.spells "end" → LineEnd mode b rest →
      Builds mode (.statement (.interfaceDecl ⟨i.position, name.text, methods⟩)) (i :: name :: ts)
        rest
  | assignment {t q : Token} {ts mid a rest : List Token} {target value : Expr} :
      ¬ DeclaresObject (t :: ts) → Derives (.expression 1 target) (t :: ts) (q :: mid) →
      q.spells "=" → Derives (.expression 1 value) mid a → LineEnd mode a rest →
      Builds mode (.statement (.assignment t.position target value)) (t :: ts) rest
  | expression {t : Token} {ts mid rest : List Token} {e : Expr} :
      ¬ DeclaresObject (t :: ts) → Derives (.expression 1 e) (t :: ts) mid →
      LineEnd mode mid rest → Builds mode (.statement (.expression t.position e)) (t :: ts) rest
  | routine {e : Token} {ts a b rest : List Token} {head : Signature} {body : List Stmt} :
      Heads mode head ts a → Builds mode (.block body) a (e :: b) → e.spells "end" →
      LineEnd mode b rest → Builds mode (.routine ⟨head, body⟩) ts rest
  | noStatement {ts rest : List Token} : Newlines ts rest → Builds mode (.block []) ts rest
  | statement {ts a b rest : List Token} {s : Stmt} {body : List Stmt} : Newlines ts a →
      Builds mode (.statement s) a b → Builds mode (.block body) b rest →
      Builds mode (.block (s :: body)) ts rest
  | noMember {ts rest : List Token} : Newlines ts rest → Builds mode (.members [] []) ts rest
  | field {ts a b rest : List Token} {f : Field} {fields : List Field} {methods : List Routine} :
      Newlines ts a → Fields mode f a b → Builds mode (.members fields methods) b rest →
      Builds mode (.members (f :: fields) methods) ts rest
  | method {ts a b rest : List Token} {m : Routine} {fields : List Field}
      {methods : List Routine} : Newlines ts a → Builds mode (.routine m) a b →
      Builds mode (.members fields methods) b rest →
      Builds mode (.members fields (m :: methods)) ts rest

end Grammar

/-- The rule for programs: statements up to the end of the input. -/
def Program.Derived (mode : Terminators) (p : Program) (tokens : List Token) : Prop :=
  ∃ last, last.kind = .endOfInput ∧ Grammar.Builds mode (.block p.statements) tokens [last]

end ScriptLang
