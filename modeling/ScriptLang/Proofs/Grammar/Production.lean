import ScriptLang.Grammar

/-!
The productions of the grammar as one family, and the relations between readings that they respect.
A relation is a congruence if it agrees with each way of putting readings together; then it holds of
every production, read with one kind of terminators on the one side and with another on the other.
The bounds of the repetitions may differ too, as they do on lists of different lengths.
-/

set_option autoImplicit false
set_option relaxedAutoImplicit false

namespace ScriptLang

namespace Grammar

open Reading

/-- A production of the grammar, or a step by which productions go forward, with the type of what
it makes. -/
inductive Production : Type → Type where
  | advance : Production Token
  | expect (sign : String) : Production Token
  | expectIdentifier (what : String) : Production Token
  | skipNewlines : Production Unit
  | terminator : Production Unit
  | closing : Production Unit
  | program : Production Program
  | block (stops : List String) : Production (List Stmt)
  | statement : Production Stmt
  | variableDeclaration : Production Stmt
  | functionDefinition : Production Routine
  | params : Production (List Param)
  | returnType : Production TypeRef
  | conditional : Production Stmt
  | classDeclaration : Production ClassDecl
  | field : Production Field
  | method : Production Routine
  | interfaceDeclaration : Production InterfaceDecl
  | methodSignature : Production Signature
  | expressionStatement : Production Stmt
  | typeRef : Production TypeRef
  | expression : Production Expr
  | equality : Production Expr
  | sum : Production Expr
  | product : Production Expr
  | primary : Production Expr
  | arguments : Production (List Expr)
  | atom : Production Expr

def Production.reading (mode : Terminators) {α : Type} : Production α → Reading α
  | advance => Reading.advance
  | expect sign => Reading.expect sign
  | expectIdentifier what => Reading.expectIdentifier what
  | skipNewlines => Reading.skipNewlines
  | terminator => Grammar.terminator mode
  | closing => Grammar.closing mode
  | program => Grammar.program mode
  | block stops => Grammar.block (Grammar.statement mode) stops
  | statement => Grammar.statement mode
  | variableDeclaration => Grammar.variableDeclaration mode
  | functionDefinition => Grammar.functionDefinition mode (Grammar.statement mode)
  | params => Grammar.params
  | returnType => Grammar.returnType
  | conditional => Grammar.conditional mode (Grammar.statement mode)
  | classDeclaration => Grammar.classDeclaration mode (Grammar.statement mode)
  | field => Grammar.field mode
  | method => Grammar.method mode (Grammar.statement mode)
  | interfaceDeclaration => Grammar.interfaceDeclaration mode
  | methodSignature => Grammar.methodSignature mode
  | expressionStatement => Grammar.expressionStatement mode
  | typeRef => Grammar.typeRef
  | expression => Grammar.expression
  | equality => Grammar.equality Grammar.expression
  | sum => Grammar.sum Grammar.expression
  | product => Grammar.product Grammar.expression
  | primary => Grammar.primary Grammar.expression
  | arguments => Grammar.arguments Grammar.expression
  | atom => Grammar.atom Grammar.expression

/-- A relation between readings that agrees with each way of putting readings together, and with
all failures but one: a misplaced `new`, the only fault that is found after the token that it is
about. What begins with an identifier and may be a declaration counts as one way, because it looks
two tokens ahead. -/
structure Precongruence (mode mode' : Terminators)
    (R : ∀ {α : Type}, Reading α → Reading α → Prop) : Prop where
  value {α : Type} (a : α) : R (pure a) (pure a)
  seq {α β : Type} {r r' : Reading α} {next next' : α → Reading β} : R r r' →
    (∀ a, R (next a) (next' a)) → R (r >>= next) (r' >>= next')
  failure {α : Type} (e : ParseFailure) : (∀ p, e ≠ .syntaxError ⟨.newOnNonClass, p⟩) →
    R (Attempt.fail e : Reading α) (Attempt.fail e)
  look : R current current
  take : R advance advance
  skip (skipped : Token → Bool) : R (skipWhile skipped) (skipWhile skipped)
  lineEnd : R (terminator mode) (terminator mode')
  unreserved : R (variableDeclaration mode) (variableDeclaration mode') →
    R (expressionStatement mode) (expressionStatement mode') →
    R (do if ← seesClassVariable then variableDeclaration mode else expressionStatement mode)
      (do if ← seesClassVariable then variableDeclaration mode' else expressionStatement mode')
  /-- More repetitions may be allowed on the right. -/
  limit {α : Type} {r r' : Nat → Reading α} : (∀ m n, m ≤ n → R (r m) (r' n)) →
    R (bounded r) (bounded r')
  /-- Where the repetitions come to their bound on the left, nothing is asked of the right. -/
  exhausted {α : Type} {r r' : Reading α} : R r r' → R outOfTokens r'

/-- A relation that agrees with a misplaced `new` too. -/
structure Congruence (mode mode' : Terminators)
    (R : ∀ {α : Type}, Reading α → Reading α → Prop) : Prop
    extends Precongruence mode mode' R where
  misplaced {α : Type} (p : Position) :
    R (fault .newOnNonClass p : Reading α) (fault .newOnNonClass p)

namespace Precongruence

variable {mode mode' : Terminators} {R : ∀ {α : Type}, Reading α → Reading α → Prop}
  {α β : Type} (C : Precongruence mode mode' R)

include C

private theorem map {r r' : Reading α} (first : R r r') (f : α → β) : R (f <$> r) (f <$> r') := by
  rw [map_eq_pure_bind, map_eq_pure_bind]
  exact C.seq first fun a => C.value (f a)

theorem discard {r r' : Reading α} (first : R r r') : R (discard r) (discard r') :=
  C.map first _

omit C in
private theorem choice {b : Bool} {r r' s s' : Reading α} (yes : R r r') (no : R s s') :
    R (if b then r else s) (if b then r' else s') := by
  cases b with
  | true => exact yes
  | false => exact no

theorem sees (sign : String) : R (sees sign) (sees sign) :=
  C.seq C.look fun t => C.value (t.spells sign)

private theorem here : R here here :=
  C.seq C.look fun t => C.value t.position

private theorem fault {cause : SyntaxCause} (early : cause ≠ .newOnNonClass) (p : Position) :
    R (fault cause p : Reading α) (fault cause p) :=
  C.failure _ (by simp [early])

private theorem unexpected (wanted : Wanted) :
    R (unexpected wanted : Reading α) (unexpected wanted) :=
  C.seq C.look fun _ => C.fault (by simp) _

private theorem expect (sign : String) : R (expect sign) (expect sign) :=
  C.seq (C.sees sign) fun _ => choice C.take (C.unexpected _)

private theorem expectIdentifier (what : String) :
    R (expectIdentifier what) (expectIdentifier what) :=
  C.seq (C.seq C.look fun t => C.value (decide (t.kind = .identifier))) fun _ =>
    choice C.take (C.unexpected _)

private theorem skipNewlines : R skipNewlines skipNewlines :=
  C.skip _

section Repetition

variable {ι : Type} {r s : Nat → ι → Reading α}

private theorem rounds (first : ∀ i, r 0 i = outOfTokens) (first' : ∀ i, s 0 i = outOfTokens)
    (step : ∀ m n, (∀ i, R (r m i) (s n i)) → ∀ i, R (r (m + 1) i) (s (n + 1) i)) {m n : Nat}
    (le : m ≤ n) (i : ι) : R (r m i) (s n i) := by
  -- With equal bounds both sides come to them at once.
  have alike (n : Nat) : ∀ i, R (r n i) (s n i) := by
    induction n with
    | zero =>
      intro i
      rw [first, first']
      exact C.failure .unbounded (by simp)
    | succ n ih => exact step n n ih
  induction m generalizing n i with
  | zero =>
    rw [first]
    exact C.exhausted (alike n i)
  | succ m ih =>
    obtain ⟨n, rfl⟩ := Nat.exists_eq_add_of_le' (Nat.one_le_of_lt le)
    exact step m n (fun i => ih (Nat.le_of_succ_le_succ le) i) i

private theorem itemsWhile {test test' : Reading Bool} {item item' : Reading α}
    (look : R test test') (one : R item item') :
    R (itemsWhile test item) (itemsWhile test' item') := by
  refine C.limit fun m n le => ?_
  refine C.rounds (r := fun n (_ : Unit) => itemsWithin test item n)
    (s := fun n (_ : Unit) => itemsWithin test' item' n) (fun _ => rfl) (fun _ => rfl)
    (fun m n others _ => ?_) le ()
  refine C.seq look fun _ => choice ?_ (C.value _)
  exact C.seq one fun a => C.seq (others ()) fun as => C.value _

private theorem extend {step step' : α → Reading (Option α)} (one : ∀ a, R (step a) (step' a))
    (a : α) : R (extend step a) (extend step' a) := by
  refine C.limit fun m n le => ?_
  refine C.rounds (r := extendWithin step) (s := extendWithin step') (fun _ => rfl) (fun _ => rfl)
    (fun m n others a => ?_) le a
  refine C.seq (one a) fun found => ?_
  cases found with
  | none => exact C.value a
  | some b => exact others b

end Repetition

section Expression

variable {nested nested' : Reading Expr}

theorem arguments (hn : R nested nested') : R (arguments nested) (arguments nested') := by
  have look : R (do return !(← Reading.sees ")")) (do return !(← Reading.sees ")")) :=
    C.seq (C.sees ")") fun _ => C.value _
  refine C.seq (C.discard (C.expect "(")) fun _ => ?_
  refine C.seq (C.itemsWhile look hn) fun args => ?_
  exact C.seq (C.discard (C.expect ")")) fun _ => C.value args

private theorem atom (hn : R nested nested') : R (atom nested) (atom nested') := by
  refine C.seq C.look fun t => ?_
  cases t.kind with
  | integer =>
    refine C.seq (C.discard C.take) fun _ => ?_
    cases Text.integerValue? t.text.toList with
    | none => exact C.failure _ (by simp)
    | some n => exact C.value _
  | string =>
    refine C.seq (C.discard C.take) fun _ => ?_
    exact choice (C.value _) (C.value _)
  | identifier =>
    refine C.seq (C.discard C.take) fun _ => ?_
    refine C.seq (C.sees "(") fun _ => choice ?_ (C.value _)
    exact C.seq (C.arguments hn) fun args => C.value _
  | _ =>
    refine C.seq (C.sees "(") fun _ => choice ?_ (C.unexpected _)
    refine C.seq (C.discard C.take) fun _ => C.seq hn fun inner => ?_
    exact C.seq (C.discard (C.expect ")")) fun _ => C.value inner

private theorem operand {level level' : Reading Expr} (hl : R level level') (signs : List String)
    (left : Expr) : R (operand signs level left) (operand signs level' left) := by
  refine C.seq C.look fun t => choice ?_ (C.value none)
  exact C.seq (C.discard C.take) fun _ => C.seq hl fun right => C.value _

private theorem primary (hn : R nested nested')
    (ha : ∀ receiver, R (access nested receiver) (access nested' receiver)) :
    R (primary nested) (primary nested') :=
  C.seq (C.atom hn) fun e => C.extend ha e

section Levels

variable (hp : R (Grammar.primary nested) (Grammar.primary nested'))

include hp

private theorem product : R (product nested) (product nested') :=
  C.seq hp fun e => C.extend (C.operand hp _) e

private theorem sum : R (sum nested) (sum nested') :=
  C.seq (C.product hp) fun e => C.extend (C.operand (C.product hp) _) e

private theorem equality : R (equality nested) (equality nested') :=
  C.seq (C.sum hp) fun e => C.extend (C.operand (C.sum hp) _) e

end Levels

end Expression

section Nested

variable (ha : ∀ m n, R (Grammar.expressionWithin m) (Grammar.expressionWithin n) →
  ∀ receiver, R (Grammar.access (Grammar.expressionWithin m) receiver)
    (Grammar.access (Grammar.expressionWithin n) receiver))

include ha

theorem expressionWithin {m n : Nat} (le : m ≤ n) :
    R (Grammar.expressionWithin m) (Grammar.expressionWithin n) :=
  C.rounds (r := fun n (_ : Unit) => Grammar.expressionWithin n)
    (s := fun n (_ : Unit) => Grammar.expressionWithin n) (fun _ => rfl) (fun _ => rfl)
    (fun m n inner _ => C.equality (C.primary (inner ()) (ha m n (inner ())))) le ()

theorem expression : R Grammar.expression Grammar.expression :=
  C.limit fun _ _ le => C.expressionWithin ha le

end Nested

private theorem closing : R (closing mode) (closing mode') :=
  C.seq (C.discard (C.expect "end")) fun _ => C.lineEnd

private theorem typeRef : R typeRef typeRef := by
  refine C.seq C.look fun t => ?_
  cases typeOf? t with
  | none => exact C.unexpected _
  | some type => exact C.seq (C.discard C.take) fun _ => C.value _

private theorem param : R param param := by
  refine C.seq C.here fun p => C.seq (C.expectIdentifier _) fun name => ?_
  refine C.seq (C.sees ":") fun _ => choice ?_ (C.seq C.here fun q => C.fault (by simp) q)
  exact C.seq (C.discard C.take) fun _ => C.seq C.typeRef fun type => C.value _

private theorem params : R params params := by
  refine C.seq (C.discard (C.expect "(")) fun _ => C.seq (C.sees ")") fun _ => choice ?_ ?_
  · exact C.seq (C.discard C.take) fun _ => C.value []
  · refine C.seq (C.limit fun m n le => ?_) fun ps =>
      C.seq (C.discard (C.expect ")")) fun _ => C.value ps
    refine C.rounds (r := fun n (_ : Unit) => paramsWithin n)
      (s := fun n (_ : Unit) => paramsWithin n) (fun _ => rfl) (fun _ => rfl)
      (fun m n others _ => ?_) le ()
    refine C.seq C.param fun p => C.seq (C.skip isStray) fun _ => ?_
    refine C.seq (C.sees ")") fun _ => choice (C.value [p]) ?_
    exact C.seq (others ()) fun ps => C.value _

private theorem returnType : R returnType returnType := by
  refine C.seq C.look fun t => choice ?_ (C.fault (by simp) _)
  exact C.seq (C.discard C.take) fun _ => C.typeRef

private theorem signature (what : String) : R (signature mode what) (signature mode' what) := by
  refine C.seq C.here fun p => C.seq (C.discard (C.expect "def")) fun _ => ?_
  refine C.seq (C.expectIdentifier what) fun name => C.seq C.params fun ps => ?_
  exact C.seq C.returnType fun r => C.seq C.lineEnd fun _ => C.value _

private theorem field : R (field mode) (field mode') := by
  refine C.seq C.here fun p => C.seq C.typeRef fun r => ?_
  exact C.seq (C.expectIdentifier _) fun name => C.seq C.lineEnd fun _ => C.value _

private theorem seesNone (signs : List String) : R (seesNone signs) (seesNone signs) :=
  C.seq C.look fun _ => C.value _

private theorem interfaceDeclaration :
    R (interfaceDeclaration mode) (interfaceDeclaration mode') := by
  have one : R (do let m ← Grammar.methodSignature mode; Reading.skipNewlines; return m)
      (do let m ← Grammar.methodSignature mode'; Reading.skipNewlines; return m) :=
    C.seq (C.signature _) fun m => C.seq C.skipNewlines fun _ => C.value m
  refine C.seq C.here fun p => C.seq (C.discard (C.expect "interface")) fun _ => ?_
  refine C.seq (C.expectIdentifier _) fun name => C.seq C.lineEnd fun _ => ?_
  refine C.seq C.skipNewlines fun _ => C.seq (C.itemsWhile (C.seesNone _) one) fun ms => ?_
  exact C.seq C.closing fun _ => C.value _

section Statement

variable {nested nested' : Reading Stmt}

section Nested

variable (hn : R nested nested')

include hn

private theorem block (stops : List String) : R (block nested stops) (block nested' stops) := by
  have one : R (do let s ← nested; Reading.skipNewlines; return s)
      (do let s ← nested'; Reading.skipNewlines; return s) :=
    C.seq hn fun s => C.seq C.skipNewlines fun _ => C.value s
  exact C.seq C.skipNewlines fun _ => C.itemsWhile (C.seesNone stops) one

private theorem routine (what : String) :
    R (routine mode nested what) (routine mode' nested' what) := by
  refine C.seq (C.signature what) fun head => C.seq (C.block hn _) fun body => ?_
  exact C.seq C.closing fun _ => C.value _

private theorem member : R (member mode nested) (member mode' nested') := by
  have finish (m : Member) :
      R (do Reading.skipNewlines; return m) (do Reading.skipNewlines; return m) :=
    C.seq C.skipNewlines fun _ => C.value m
  refine C.seq (C.sees "def") fun _ => choice ?_ ?_
  · exact C.seq (C.map (C.routine hn _) Member.method) finish
  · exact C.seq (C.map C.field Member.field) finish

private theorem classDeclaration :
    R (classDeclaration mode nested) (classDeclaration mode' nested') := by
  refine C.seq C.here fun p => C.seq (C.discard (C.expect "class")) fun _ => ?_
  refine C.seq (C.expectIdentifier _) fun name => ?_
  have finish (face : Option String) :
      R (do
          Grammar.terminator mode
          Reading.skipNewlines
          let ms ← Reading.itemsWhile (Grammar.seesNone ["end"]) (Grammar.member mode nested)
          Grammar.closing mode
          return (⟨p, name.text, face, ms.filterMap Member.field?, ms.filterMap Member.method?⟩ :
            ClassDecl))
        (do
          Grammar.terminator mode'
          Reading.skipNewlines
          let ms ← Reading.itemsWhile (Grammar.seesNone ["end"]) (Grammar.member mode' nested')
          Grammar.closing mode'
          return ⟨p, name.text, face, ms.filterMap Member.field?,
            ms.filterMap Member.method?⟩) := by
    refine C.seq C.lineEnd fun _ => C.seq C.skipNewlines fun _ => ?_
    exact C.seq (C.itemsWhile (C.seesNone _) (C.member hn)) fun ms =>
      C.seq C.closing fun _ => C.value _
  refine C.seq (C.sees "implements") fun _ => choice ?_ (C.seq (C.value none) finish)
  refine C.seq (C.discard C.take) fun _ => ?_
  exact C.seq (C.map (C.map (C.expectIdentifier _) Token.text) some) finish

end Nested

section Expressions

variable (he : R Grammar.expression Grammar.expression)

include he

private theorem variableDeclaration : R (variableDeclaration mode) (variableDeclaration mode') := by
  refine C.seq C.here fun p => C.seq C.typeRef fun r => ?_
  refine C.seq (C.expectIdentifier _) fun name => C.seq (C.discard (C.expect "=")) fun _ => ?_
  exact C.seq he fun e => C.seq C.lineEnd fun _ => C.value _

private theorem expressionStatement : R (expressionStatement mode) (expressionStatement mode') := by
  refine C.seq C.here fun p => C.seq he fun e => ?_
  refine C.seq (C.sees "=") fun _ => choice ?_ (C.seq C.lineEnd fun _ => C.value _)
  refine C.seq (C.discard C.take) fun _ => ?_
  exact C.seq he fun value => C.seq C.lineEnd fun _ => C.value _

private theorem conditional (hn : R nested nested') :
    R (conditional mode nested) (conditional mode' nested') := by
  refine C.seq C.here fun p => C.seq (C.discard (C.expect "if")) fun _ => ?_
  refine C.seq he fun condition => C.seq C.lineEnd fun _ => ?_
  refine C.seq (C.block hn _) fun thenBody => ?_
  have finish (branch : Option (List Stmt)) :
      R (do Grammar.closing mode; return Stmt.conditional p condition thenBody branch)
        (do Grammar.closing mode'; return Stmt.conditional p condition thenBody branch) :=
    C.seq C.closing fun _ => C.value _
  refine C.seq (C.sees "else") fun _ => choice ?_ (C.seq (C.value none) finish)
  refine C.seq (C.discard C.take) fun _ => C.seq C.lineEnd fun _ => ?_
  exact C.seq (C.map (C.block hn _) some) finish

private theorem statementWith (hn : R nested nested') :
    R (statementWith mode nested) (statementWith mode' nested') := by
  refine C.seq C.look fun t => ?_
  split
  · exact C.variableDeclaration he
  · exact C.variableDeclaration he
  · exact C.variableDeclaration he
  · exact C.map (C.routine hn _) Stmt.function
  · exact C.conditional he hn
  · exact C.map (C.classDeclaration hn) Stmt.classDecl
  · exact C.map C.interfaceDeclaration Stmt.interfaceDecl
  · exact C.unreserved (C.variableDeclaration he) (C.expressionStatement he)

private theorem statement : R (statement mode) (statement mode') := by
  refine C.limit fun m n le => ?_
  exact C.rounds (r := fun n (_ : Unit) => statementWithin mode n)
    (s := fun n (_ : Unit) => statementWithin mode' n) (fun _ => rfl) (fun _ => rfl)
    (fun m n inner _ => C.statementWith he (inner ())) le ()

theorem program : R (program mode) (program mode') := by
  have one : R (do let s ← Grammar.statement mode; Reading.skipNewlines; return s)
      (do let s ← Grammar.statement mode'; Reading.skipNewlines; return s) :=
    C.seq (C.statement he) fun s => C.seq C.skipNewlines fun _ => C.value s
  refine C.seq (C.seq C.skipNewlines fun _ => C.itemsWhile (C.seesNone _) one) fun body => ?_
  exact C.value (Program.mk body)

end Expressions

end Statement

end Precongruence

namespace Congruence

variable {mode mode' : Terminators} {R : ∀ {α : Type}, Reading α → Reading α → Prop}
  {α : Type} (C : Congruence mode mode' R)

include C

theorem access {nested nested' : Reading Expr} (hn : R nested nested') (receiver : Expr) :
    R (access nested receiver) (access nested' receiver) := by
  refine C.seq (C.sees ".") fun _ => Precongruence.choice ?_ (C.value none)
  refine C.seq (C.discard C.take) fun _ => ?_
  refine C.seq (C.expectIdentifier _) fun name => ?_
  refine C.seq (C.sees "(") fun _ => Precongruence.choice ?_ (C.value _)
  refine C.seq (C.arguments hn) fun args => ?_
  split
  · split
    · exact C.value _
    · exact C.misplaced _
  · exact C.value _

theorem production (production : Production α) :
    R (production.reading mode) (production.reading mode') := by
  have he : R Grammar.expression Grammar.expression :=
    C.toPrecongruence.expression fun _ _ inner => C.access inner
  have hp : R (Grammar.primary Grammar.expression) (Grammar.primary Grammar.expression) :=
    C.toPrecongruence.primary he (C.access he)
  have hs : R (Grammar.statement mode) (Grammar.statement mode') := C.statement he
  cases production with
  | advance => exact C.take
  | expect sign => exact C.expect sign
  | expectIdentifier what => exact C.expectIdentifier what
  | skipNewlines => exact C.skipNewlines
  | terminator => exact C.lineEnd
  | closing => exact C.closing
  | program => exact C.program he
  | block stops => exact C.block hs stops
  | statement => exact hs
  | variableDeclaration => exact C.variableDeclaration he
  | functionDefinition => exact C.routine hs _
  | params => exact C.params
  | returnType => exact C.returnType
  | conditional => exact C.conditional he hs
  | classDeclaration => exact C.classDeclaration hs
  | field => exact C.field
  | method => exact C.routine hs _
  | interfaceDeclaration => exact C.interfaceDeclaration
  | methodSignature => exact C.signature _
  | expressionStatement => exact C.expressionStatement he
  | typeRef => exact C.typeRef
  | expression => exact he
  | equality => exact C.equality hp
  | sum => exact C.sum hp
  | product => exact C.product hp
  | primary => exact hp
  | arguments => exact C.arguments he
  | atom => exact C.atom he

end Congruence

end Grammar

end ScriptLang
