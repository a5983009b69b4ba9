import ScriptLang.Grammar
import ScriptLang.Proofs.Program.Relocation

/-!
Readings do not look at places. When the places of the tokens are moved, each reading does the same
as before, and the places in its result, or in its fault, are moved in the same way.
-/

set_option autoImplicit false
set_option relaxedAutoImplicit false

namespace ScriptLang

def ParseFailure.relocate (f : Position → Position) : ParseFailure → ParseFailure
  | .syntaxError e => .syntaxError ⟨e.cause, f e.position⟩
  | failure => failure

namespace Reading

variable {f : Position → Position} {α β γ δ : Type}

/-- The outcome of a reading with its places moved; `g` moves those of a result. -/
def relocated (f : Position → Position) (g : α → γ) :
    Except ParseFailure α × List Token → Except ParseFailure γ × List Token
  | (.ok a, rest) => (.ok (g a), rest.map (Token.relocate f))
  | (.error e, rest) => (.error (e.relocate f), rest.map (Token.relocate f))

/-- That one reading does to moved tokens what another does to the tokens. -/
def Follows (f : Position → Position) (g : α → γ) (moved : Reading γ) (r : Reading α) : Prop :=
  ∀ ts, moved (ts.map (Token.relocate f)) = relocated f g (r ts)

private theorem follows_pure {g : α → γ} (a : α) : Follows f g (pure (g a)) (pure a) :=
  fun _ => rfl

private theorem follows_bind {g : α → γ} {h : β → δ} {moved : Reading γ} {r : Reading α}
    {movedNext : γ → Reading δ} {next : α → Reading β} (first : Follows f g moved r)
    (second : ∀ a, Follows f h (movedNext (g a)) (next a)) :
    Follows f h (moved >>= movedNext) (r >>= next) := by
  intro ts
  rw [Attempt.bind_apply, Attempt.bind_apply, first ts]
  rcases r ts with ⟨_ | a, rest⟩
  · rfl
  · exact second a rest

private theorem follows_map {g : α → γ} {h : β → δ} {moved : Reading γ} {r : Reading α} {k : α → β}
    {l : γ → δ} (first : Follows f g moved r) (agree : ∀ a, l (g a) = h (k a)) :
    Follows f h (l <$> moved) (k <$> r) := by
  rw [map_eq_pure_bind, map_eq_pure_bind]
  refine follows_bind first fun a => ?_
  rw [agree]
  exact follows_pure (k a)

private theorem follows_discard {g : α → γ} {moved : Reading γ} {r : Reading α}
    (first : Follows f g moved r) : Follows f id (discard moved) (discard r) :=
  follows_map first fun _ => rfl

private theorem follows_fail {g : α → γ} (failure : ParseFailure) :
    Follows f g (Attempt.fail (failure.relocate f)) (Attempt.fail failure) :=
  fun _ => rfl

private theorem follows_fault {g : α → γ} (cause : SyntaxCause) (p : Position) :
    Follows f g (fault cause (f p)) (fault cause p) :=
  fun _ => rfl

private theorem follows_ite {g : α → γ} {b : Bool} {moved moved' : Reading γ} {r r' : Reading α}
    (yes : Follows f g moved r) (no : Follows f g moved' r') :
    Follows f g (if b then moved else moved') (if b then r else r') := by
  cases b with
  | true => exact yes
  | false => exact no

private theorem follows_current : Follows f (Token.relocate f) current current := by
  intro ts
  cases ts <;> rfl

private theorem follows_advance : Follows f (Token.relocate f) advance advance := by
  intro ts
  cases ts with
  | nil => rfl
  | cons t more =>
    by_cases last : t.kind = .endOfInput
    · simp [advance, relocated, Token.relocate, last]
    · simp [advance, relocated, Token.relocate, last]

private theorem follows_following : Follows f (Token.relocate f) following following := by
  intro ts
  match ts with
  | [] | [_] | _ :: _ :: _ => rfl

private theorem follows_here : Follows f f here here :=
  follows_map follows_current fun _ => rfl

private theorem follows_sees (sign : String) : Follows f id (sees sign) (sees sign) :=
  follows_map follows_current fun _ => rfl

private theorem follows_seesKind (kind : Kind) : Follows f id (seesKind kind) (seesKind kind) :=
  follows_map follows_current fun _ => rfl

private theorem follows_unexpected {g : α → γ} (wanted : Wanted) :
    Follows f g (unexpected wanted) (unexpected wanted) :=
  follows_bind follows_current fun t => follows_fault (.unexpected wanted t.found) t.position

private theorem follows_expect (sign : String) :
    Follows f (Token.relocate f) (expect sign) (expect sign) :=
  follows_bind (follows_sees sign) fun _ => follows_ite follows_advance (follows_unexpected _)

private theorem follows_expectIdentifier (what : String) :
    Follows f (Token.relocate f) (expectIdentifier what) (expectIdentifier what) :=
  follows_bind (follows_seesKind _) fun _ => follows_ite follows_advance (follows_unexpected _)

private theorem follows_skipWhile {skipped : Token → Bool}
    (blind : ∀ t, skipped (t.relocate f) = skipped t) :
    Follows f id (skipWhile skipped) (skipWhile skipped) := by
  have drop : Follows f id (modify (List.dropWhile skipped) : Reading Unit)
      (modify (List.dropWhile skipped)) := by
    intro ts
    have dropped : (ts.map (Token.relocate f)).dropWhile skipped =
        (ts.dropWhile skipped).map (Token.relocate f) := by
      induction ts with
      | nil => rfl
      | cons t ts ih =>
        rw [List.map_cons, List.dropWhile_cons, List.dropWhile_cons, blind]
        split
        · exact ih
        · rfl
    exact Prod.ext rfl dropped
  exact follows_bind drop fun _ => follows_discard follows_current

private theorem follows_skipNewlines : Follows f id skipNewlines skipNewlines :=
  follows_skipWhile fun _ => rfl

private theorem follows_bounded {g : α → γ} {moved : Nat → Reading γ} {r : Nat → Reading α}
    (each : ∀ n, Follows f g (moved n) (r n)) : Follows f g (bounded moved) (bounded r) := by
  intro ts
  rw [bounded, List.length_map]
  exact each (ts.length + 1) ts

private theorem follows_itemsWhile {g : α → γ} {test : Reading Bool} {moved : Reading γ}
    {r : Reading α} (look : Follows f id test test) (item : Follows f g moved r) :
    Follows f (List.map g) (itemsWhile test moved) (itemsWhile test r) := by
  refine follows_bounded fun n => ?_
  induction n with
  | zero => exact follows_fail .unbounded
  | succ n ih =>
    refine follows_bind look fun more => follows_ite ?_ (follows_pure [])
    refine follows_bind item fun a => ?_
    exact follows_bind ih fun others => follows_pure (a :: others)

private theorem follows_extend {g : α → γ} {moved : γ → Reading (Option γ)}
    {r : α → Reading (Option α)} (step : ∀ a, Follows f (Option.map g) (moved (g a)) (r a))
    (a : α) :
    Follows f g (extend moved (g a)) (extend r a) := by
  refine follows_bounded fun n => ?_
  induction n generalizing a with
  | zero => exact follows_fail .unbounded
  | succ n ih =>
    refine follows_bind (step a) fun found => ?_
    cases found with
    | none => exact follows_pure a
    | some b => exact ih b

end Reading

namespace Grammar

open Reading

variable {f : Position → Position}

section Expression

variable {nested : Reading Expr}

private theorem follows_arguments (hn : Follows f (Expr.relocate f) nested nested) :
    Follows f (relocateArgs f) (arguments nested) (arguments nested) := by
  have look : Follows f id (do return !(← sees ")")) (do return !(← sees ")")) :=
    follows_bind (follows_sees ")") fun seen => follows_pure (g := id) (!seen)
  rw [funext (relocateArgs_eq_map f)]
  refine follows_bind (follows_discard (follows_expect "(")) fun _ => ?_
  refine follows_bind (follows_itemsWhile look hn) fun args => ?_
  exact follows_bind (follows_discard (follows_expect ")")) fun _ => follows_pure args

private theorem follows_atom (hn : Follows f (Expr.relocate f) nested nested) :
    Follows f (Expr.relocate f) (atom nested) (atom nested) := by
  refine follows_bind follows_current fun t => ?_
  have kind : (t.relocate f).kind = t.kind := rfl
  rw [kind]
  cases t.kind with
  | integer =>
    refine follows_bind (follows_discard follows_advance) fun _ => ?_
    have text : (t.relocate f).text = t.text := rfl
    rw [text]
    cases Text.integerValue? t.text.toList with
    | none => exact follows_fail (.notANumber t.text)
    | some n => exact follows_pure (Expr.integer t.position n)
  | string =>
    refine follows_bind (follows_discard follows_advance) fun _ => ?_
    exact follows_ite (follows_pure (Expr.template t.position t.text))
      (follows_pure (Expr.string t.position t.text))
  | identifier =>
    refine follows_bind (follows_discard follows_advance) fun _ => ?_
    refine follows_bind (follows_sees "(") fun _ => ?_
    refine follows_ite ?_ (follows_pure (Expr.identifier t.position t.text))
    exact follows_bind (follows_arguments hn) fun args =>
      follows_pure (Expr.functionCall t.position t.text args)
  | _ =>
    refine follows_bind (follows_sees "(") fun _ => follows_ite ?_ (follows_unexpected _)
    refine follows_bind (follows_discard follows_advance) fun _ => ?_
    refine follows_bind hn fun inner => ?_
    exact follows_bind (follows_discard (follows_expect ")")) fun _ => follows_pure inner

private theorem follows_access (hn : Follows f (Expr.relocate f) nested nested) (receiver : Expr) :
    Follows f (Option.map (Expr.relocate f)) (access nested (receiver.relocate f))
      (access nested receiver) := by
  refine follows_bind (follows_sees ".") fun _ => follows_ite ?_ (follows_pure none)
  refine follows_bind (follows_discard follows_advance) fun _ => ?_
  refine follows_bind (follows_expectIdentifier _) fun name => ?_
  refine follows_bind (follows_sees "(") fun _ => ?_
  rw [Expr.position_relocate]
  refine follows_ite ?_
    (follows_pure (some (Expr.fieldAccess receiver.position receiver name.text)))
  refine follows_bind (follows_arguments hn) fun args => ?_
  have text : (name.relocate f).text = name.text := rfl
  rw [text]
  by_cases new : name.text = "new"
  · rw [if_pos new, if_pos new]
    cases receiver with
    | identifier p className => exact follows_pure (some (Expr.creation p className args))
    | _ => exact follows_fault .newOnNonClass name.position
  · rw [if_neg new, if_neg new]
    exact follows_pure (some (Expr.methodCall receiver.position receiver name.text args))

private theorem follows_operand {signs : List String} {reading : Reading Expr}
    (hr : Follows f (Expr.relocate f) reading reading) (left : Expr) :
    Follows f (Option.map (Expr.relocate f)) (operand signs reading (left.relocate f))
      (operand signs reading left) := by
  refine follows_bind follows_current fun t => ?_
  refine follows_ite ?_ (follows_pure none)
  refine follows_bind (follows_discard follows_advance) fun _ => ?_
  refine follows_bind hr fun right => ?_
  rw [Expr.position_relocate]
  exact follows_pure (some (Expr.binary left.position (.ofSign t.text) left right))

private theorem follows_equality (hn : Follows f (Expr.relocate f) nested nested) :
    Follows f (Expr.relocate f) (equality nested) (equality nested) := by
  have hprimary : Follows f (Expr.relocate f) (primary nested) (primary nested) :=
    follows_bind (follows_atom hn) fun e => follows_extend (follows_access hn) e
  have hproduct : Follows f (Expr.relocate f) (product nested) (product nested) :=
    follows_bind hprimary fun e => follows_extend (follows_operand hprimary) e
  have hsum : Follows f (Expr.relocate f) (sum nested) (sum nested) :=
    follows_bind hproduct fun e => follows_extend (follows_operand hproduct) e
  exact follows_bind hsum fun e => follows_extend (follows_operand hsum) e

end Expression

private theorem follows_expression : Follows f (Expr.relocate f) expression expression := by
  refine follows_bounded fun n => ?_
  induction n with
  | zero => exact follows_fail .unbounded
  | succ n ih => exact fun ts => follows_equality ih ts

section Declaration

variable (mode : Terminators)

private theorem follows_terminator : Follows f id (terminator mode) (terminator mode) := by
  refine follows_bind follows_current fun t => ?_
  have kind : (t.relocate f).kind = t.kind := rfl
  rw [kind]
  cases t.kind with
  | newline => exact follows_discard follows_advance
  | endOfInput => exact follows_pure ()
  | _ =>
    cases mode with
    | strict => exact follows_unexpected .newline
    | lenient => exact follows_pure ()

private theorem follows_closing : Follows f id (closing mode) (closing mode) :=
  follows_bind (follows_discard (follows_expect "end")) fun _ => follows_terminator mode

private theorem follows_typeRef : Follows f (TypeRef.relocate f) typeRef typeRef := by
  refine follows_bind follows_current fun t => ?_
  have found : typeOf? (t.relocate f) = typeOf? t := rfl
  rw [found]
  cases typeOf? t with
  | none => exact follows_unexpected .type
  | some type =>
    refine follows_bind (follows_discard follows_advance) fun _ => ?_
    exact follows_pure (⟨t.position, type⟩ : TypeRef)

private theorem follows_param : Follows f (Param.relocate f) param param := by
  refine follows_bind follows_here fun p => ?_
  refine follows_bind (follows_expectIdentifier _) fun name => ?_
  refine follows_bind (follows_sees ":") fun _ => follows_ite ?_ ?_
  · refine follows_bind (follows_discard follows_advance) fun _ => ?_
    exact follows_bind follows_typeRef fun r => follows_pure (⟨p, name.text, r⟩ : Param)
  · exact follows_bind follows_here fun q => follows_fault .missingParameterColon q

private theorem follows_paramsWithin (n : Nat) :
    Follows f (List.map (Param.relocate f)) (paramsWithin n) (paramsWithin n) := by
  induction n with
  | zero => exact follows_fail .unbounded
  | succ n ih =>
    refine follows_bind follows_param fun p => ?_
    refine follows_bind (follows_skipWhile fun _ => rfl) fun _ => ?_
    refine follows_bind (follows_sees ")") fun _ => follows_ite (follows_pure [p]) ?_
    exact follows_bind ih fun ps => follows_pure (p :: ps)

private theorem follows_params : Follows f (List.map (Param.relocate f)) params params := by
  refine follows_bind (follows_discard (follows_expect "(")) fun _ => ?_
  refine follows_bind (follows_sees ")") fun _ => follows_ite ?_ ?_
  · exact follows_bind (follows_discard follows_advance) fun _ => follows_pure []
  · refine follows_bind (follows_bounded follows_paramsWithin) fun ps => ?_
    exact follows_bind (follows_discard (follows_expect ")")) fun _ => follows_pure ps

private theorem follows_returnType : Follows f (TypeRef.relocate f) returnType returnType := by
  refine follows_bind follows_current fun t => follows_ite ?_ ?_
  · exact follows_bind (follows_discard follows_advance) fun _ => follows_typeRef
  · exact follows_fault .missingReturnSeparator t.position

private theorem follows_signature (what : String) :
    Follows f (Signature.relocate f) (signature mode what) (signature mode what) := by
  refine follows_bind follows_here fun p => ?_
  refine follows_bind (follows_discard (follows_expect "def")) fun _ => ?_
  refine follows_bind (follows_expectIdentifier what) fun name => ?_
  refine follows_bind follows_params fun ps => ?_
  refine follows_bind follows_returnType fun r => ?_
  exact follows_bind (follows_terminator mode) fun _ =>
    follows_pure (⟨p, name.text, ps, r⟩ : Signature)

private theorem follows_field : Follows f (Field.relocate f) (field mode) (field mode) := by
  refine follows_bind follows_here fun p => ?_
  refine follows_bind follows_typeRef fun r => ?_
  refine follows_bind (follows_expectIdentifier _) fun name => ?_
  exact follows_bind (follows_terminator mode) fun _ => follows_pure (⟨p, name.text, r⟩ : Field)

end Declaration

section Statement

variable {mode : Terminators} {nested : Reading Stmt}

private theorem follows_seesNone (signs : List String) :
    Follows f id (seesNone signs) (seesNone signs) :=
  follows_bind follows_current fun t =>
    follows_pure (g := id) (t.kind ≠ .endOfInput && !signs.any t.spells)

private theorem follows_spaced {α : Type} {g : α → α} {r : Reading α} (item : Follows f g r r) :
    Follows f g (do let a ← r; skipNewlines; return a) (do let a ← r; skipNewlines; return a) :=
  follows_bind item fun a => follows_bind follows_skipNewlines fun _ => follows_pure a

private theorem follows_statements {test : Reading Bool} (look : Follows f id test test)
    (hn : Follows f (Stmt.relocate f) nested nested) :
    Follows f (List.map (Stmt.relocate f)) (statements nested test) (statements nested test) :=
  follows_bind follows_skipNewlines fun _ => follows_itemsWhile look (follows_spaced hn)

private theorem follows_block (hn : Follows f (Stmt.relocate f) nested nested)
    (stops : List String) :
    Follows f (relocateBlock f) (block nested stops) (block nested stops) := by
  rw [funext (relocateBlock_eq_map f)]
  exact follows_statements (follows_seesNone stops) hn

private theorem follows_variableDeclaration :
    Follows f (Stmt.relocate f) (variableDeclaration mode) (variableDeclaration mode) := by
  refine follows_bind follows_here fun p => ?_
  refine follows_bind follows_typeRef fun r => ?_
  refine follows_bind (follows_expectIdentifier _) fun name => ?_
  refine follows_bind (follows_discard (follows_expect "=")) fun _ => ?_
  refine follows_bind follows_expression fun value => ?_
  exact follows_bind (follows_terminator mode) fun _ =>
    follows_pure (Stmt.declaration p r name.text value)

private theorem follows_routine (hn : Follows f (Stmt.relocate f) nested nested) (what : String) :
    Follows f (Routine.relocate f) (routine mode nested what) (routine mode nested what) := by
  refine follows_bind (follows_signature mode what) fun head => ?_
  refine follows_bind (follows_block hn ["end"]) fun body => ?_
  exact follows_bind (follows_closing mode) fun _ => follows_pure (⟨head, body⟩ : Routine)

private theorem follows_conditional (hn : Follows f (Stmt.relocate f) nested nested) :
    Follows f (Stmt.relocate f) (conditional mode nested) (conditional mode nested) := by
  refine follows_bind follows_here fun p => ?_
  refine follows_bind (follows_discard (follows_expect "if")) fun _ => ?_
  refine follows_bind follows_expression fun condition => ?_
  refine follows_bind (follows_terminator mode) fun _ => ?_
  refine follows_bind (follows_block hn _) fun thenBody => ?_
  -- Whatever the branch, the conditional is closed and put together in the same way.
  have finish (branch : Option (List Stmt)) :
      Follows f (Stmt.relocate f)
        (do
          closing mode
          return ((Stmt.conditional p condition thenBody branch).relocate f))
        (do
          closing mode
          return Stmt.conditional p condition thenBody branch) :=
    follows_bind (follows_closing mode) fun _ =>
      follows_pure (Stmt.conditional p condition thenBody branch)
  refine follows_bind (follows_sees "else") fun _ => follows_ite ?_ ?_
  · refine follows_bind (follows_discard follows_advance) fun _ => ?_
    refine follows_bind (follows_terminator mode) fun _ => ?_
    exact follows_bind (follows_map (follows_block hn _) fun body => rfl) finish
  · exact follows_bind (follows_pure none) finish

def Member.relocate (f : Position → Position) : Member → Member
  | field d => field (d.relocate f)
  | method r => method (r.relocate f)

private theorem follows_member (hn : Follows f (Stmt.relocate f) nested nested) :
    Follows f (Member.relocate f) (member mode nested) (member mode nested) := by
  have finish (m : Member) :
      Follows f (Member.relocate f) (do skipNewlines; return m.relocate f)
        (do skipNewlines; return m) :=
    follows_bind follows_skipNewlines fun _ => follows_pure m
  refine follows_bind (follows_sees "def") fun _ => follows_ite ?_ ?_
  · exact follows_bind (follows_map (follows_routine hn _) fun r => rfl) finish
  · exact follows_bind (follows_map (follows_field mode) fun d => rfl) finish

private theorem filterMap_field_relocate (ms : List Member) :
    (ms.map (Member.relocate f)).filterMap Member.field? =
      (ms.filterMap Member.field?).map (Field.relocate f) := by
  induction ms with
  | nil => rfl
  | cons m ms ih => cases m <;> simp [Member.relocate, Member.field?, List.filterMap_cons, ih]

private theorem filterMap_method_relocate (ms : List Member) :
    (ms.map (Member.relocate f)).filterMap Member.method? =
      relocateMethods f (ms.filterMap Member.method?) := by
  induction ms with
  | nil => rfl
  | cons m ms ih =>
    cases m <;>
      simp [Member.relocate, Member.method?, relocateMethods, List.filterMap_cons, ih]

private theorem follows_classDeclaration (hn : Follows f (Stmt.relocate f) nested nested) :
    Follows f (ClassDecl.relocate f) (classDeclaration mode nested)
      (classDeclaration mode nested) := by
  refine follows_bind follows_here fun p => ?_
  refine follows_bind (follows_discard (follows_expect "class")) fun _ => ?_
  refine follows_bind (follows_expectIdentifier _) fun name => ?_
  have finish (face : Option String) :
      Follows f (ClassDecl.relocate f)
        (do
          terminator mode
          skipNewlines
          let ms ← itemsWhile (seesNone ["end"]) (member mode nested)
          closing mode
          return ⟨f p, name.text, face, ms.filterMap Member.field?, ms.filterMap Member.method?⟩)
        (do
          terminator mode
          skipNewlines
          let ms ← itemsWhile (seesNone ["end"]) (member mode nested)
          closing mode
          return ⟨p, name.text, face, ms.filterMap Member.field?,
            ms.filterMap Member.method?⟩) := by
    refine follows_bind (follows_terminator mode) fun _ => ?_
    refine follows_bind follows_skipNewlines fun _ => ?_
    refine follows_bind (follows_itemsWhile (follows_seesNone _) (follows_member hn)) fun ms => ?_
    refine follows_bind (follows_closing mode) fun _ => ?_
    rw [filterMap_field_relocate, filterMap_method_relocate]
    exact follows_pure (⟨p, name.text, face, ms.filterMap Member.field?,
      ms.filterMap Member.method?⟩ : ClassDecl)
  refine follows_bind (follows_sees "implements") fun _ => follows_ite ?_ ?_
  · refine follows_bind (follows_discard follows_advance) fun _ => ?_
    have text := follows_map (f := f) (h := id) (l := Token.text) (k := Token.text)
      (follows_expectIdentifier "interface name after 'implements'") fun t => rfl
    exact follows_bind (follows_map text fun face => rfl) finish
  · exact follows_bind (follows_pure none) finish

private theorem follows_interfaceDeclaration :
    Follows f (InterfaceDecl.relocate f) (interfaceDeclaration mode)
      (interfaceDeclaration mode) := by
  refine follows_bind follows_here fun p => ?_
  refine follows_bind (follows_discard (follows_expect "interface")) fun _ => ?_
  refine follows_bind (follows_expectIdentifier _) fun name => ?_
  refine follows_bind (follows_terminator mode) fun _ => ?_
  refine follows_bind follows_skipNewlines fun _ => ?_
  refine follows_bind (follows_itemsWhile (follows_seesNone _)
    (follows_spaced (follows_signature mode _))) fun ms => ?_
  exact follows_bind (follows_closing mode) fun _ =>
    follows_pure (⟨p, name.text, ms⟩ : InterfaceDecl)

private theorem follows_expressionStatement :
    Follows f (Stmt.relocate f) (expressionStatement mode) (expressionStatement mode) := by
  refine follows_bind follows_here fun p => ?_
  refine follows_bind follows_expression fun e => ?_
  refine follows_bind (follows_sees "=") fun _ => follows_ite ?_ ?_
  · refine follows_bind (follows_discard follows_advance) fun _ => ?_
    refine follows_bind follows_expression fun value => ?_
    exact follows_bind (follows_terminator mode) fun _ => follows_pure (Stmt.assignment p e value)
  · exact follows_bind (follows_terminator mode) fun _ => follows_pure (Stmt.expression p e)

private theorem follows_seesClassVariable : Follows f id seesClassVariable seesClassVariable := by
  refine follows_bind follows_current fun t => follows_ite ?_ (follows_pure false)
  exact follows_bind follows_following fun u =>
    follows_pure (g := id) (decide (u.kind = .identifier))

private theorem follows_statementWith (hn : Follows f (Stmt.relocate f) nested nested) :
    Follows f (Stmt.relocate f) (statementWith mode nested) (statementWith mode nested) := by
  refine follows_bind follows_current fun t => ?_
  have kind : (t.relocate f).kind = t.kind := rfl
  rw [kind]
  split
  · exact follows_variableDeclaration
  · exact follows_variableDeclaration
  · exact follows_variableDeclaration
  · exact follows_map (follows_routine hn _) fun _ => rfl
  · exact follows_conditional hn
  · exact follows_map (follows_classDeclaration hn) fun _ => rfl
  · exact follows_map follows_interfaceDeclaration fun _ => rfl
  · exact follows_bind follows_seesClassVariable fun _ =>
      follows_ite follows_variableDeclaration follows_expressionStatement

end Statement

private theorem follows_statement (mode : Terminators) :
    Follows f (Stmt.relocate f) (statement mode) (statement mode) := by
  refine follows_bounded fun n => ?_
  induction n with
  | zero => exact follows_fail .unbounded
  | succ n ih => exact fun ts => follows_statementWith ih ts

private theorem follows_program (mode : Terminators) :
    Follows f (Program.relocate f) (program mode) (program mode) :=
  follows_bind (follows_statements (follows_seesNone []) (follows_statement mode)) fun body =>
    follows_pure (⟨body⟩ : Program)

end Grammar

/-- Moving the places of the tokens moves the places in the program, or that of the fault, and
changes nothing else. -/
theorem Program.ofTokens_relocate (f : Position → Position) (mode : Terminators)
    (tokens : List Token) :
    ofTokens mode (tokens.map (Token.relocate f)) =
      match ofTokens mode tokens with
      | .ok p => .ok (p.relocate f)
      | .error failure => .error (failure.relocate f) := by
  unfold ofTokens
  rw [Grammar.follows_program mode tokens]
  rcases Grammar.program mode tokens with ⟨_ | p, rest⟩ <;> rfl

end ScriptLang
