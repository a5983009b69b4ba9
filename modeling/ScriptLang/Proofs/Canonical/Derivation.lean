import Mathlib.Data.List.Chain
import ScriptLang.Proofs.Canonical.Tokens
import ScriptLang.Proofs.Grammar.Reading
import ScriptLang.Proofs.Program.Arguments

/-!
The tokens of a well-formed program derive it, up to places, unless an argument is captured: where
one argument ends in a name and the next one begins with a parenthesis, the two read as a call.
-/

set_option autoImplicit false
set_option relaxedAutoImplicit false

namespace ScriptLang

open Grammar
open Operator (primaryPrecedence)

def EndsInName (ts : List Token) : Prop :=
  ∃ front t, ts = front ++ [t] ∧ t.kind = .identifier

/-- Whether one argument captures the next one: it ends in a name and the next one begins with a
parenthesis. -/
def Captures (a b : Expr) : Prop :=
  EndsInName (a.tokens 0) ∧ Opens (b.tokens 0)

def Uncaptured (args : List Expr) : Prop :=
  args.IsChain fun a b => ¬ Captures a b

namespace Grammar

private theorem Derives.operands_trans {level : Nat} {a b c : Expr} {ts mid rest : List Token}
    (first : Derives (.operands level a b) ts mid)
    (second : Derives (.operands level b c) mid rest) :
    Derives (.operands level a c) ts rest := by
  generalize hphrase : Phrase.operands level a b = phrase at first
  induction first generalizing a with
  | noOperand =>
    cases hphrase
    exact second
  | operand positive precedence spelled right others _ ih =>
    cases hphrase
    exact .operand positive precedence spelled right (ih second rfl)
  | _ => cases hphrase

private theorem Derives.accesses_trans {a b c : Expr} {ts mid rest : List Token}
    (first : Derives (.accesses a b) ts mid) (second : Derives (.accesses b c) mid rest) :
    Derives (.accesses a c) ts rest := by
  generalize hphrase : Phrase.accesses a b = phrase at first
  induction first generalizing a with
  | noAccess =>
    cases hphrase
    exact second
  | fieldAccess dot kind closed _ ih =>
    cases hphrase
    exact .fieldAccess dot kind closed (ih second rfl)
  | methodCall dot kind method called _ _ ih =>
    cases hphrase
    exact .methodCall dot kind method called (ih second rfl)
  | creation dot kind new called _ _ ih =>
    cases hphrase
    exact .creation dot kind new called (ih second rfl)
  | _ => cases hphrase

theorem Derives.loosen {m n : Nat} {e : Expr} {ts rest : List Token}
    (h : Derives (.expression n e) ts rest) (le : m ≤ n) (positive : 0 < m)
    (bound : n ≤ primaryPrecedence) : Derives (.expression m e) ts rest := by
  induction n, le using Nat.le_induction with
  | base => exact h
  | succ n le ih => exact ih (.operation (by omega) (by omega) h .noOperand) (by omega)

theorem Derives.of_atom {n : Nat} {a e : Expr} {ts mid rest : List Token}
    (first : Derives (.atom a) ts mid) (others : Derives (.accesses a e) mid rest)
    (positive : 0 < n) (below : n ≤ primaryPrecedence) : Derives (.expression n e) ts rest :=
  (Derives.primary first others).loosen below positive le_rfl

theorem Derives.append_operand {operator : Operator} {left right : Expr} {t : Token}
    {ts mid rest : List Token} (known : operator.precedence ≠ 0) (spelled : t.spells operator.sign)
    (first : Derives (.expression operator.precedence left) ts (t :: mid))
    (second : Derives (.expression (operator.precedence + 1) right) mid rest) :
    Derives (.expression operator.precedence (.binary left.position operator left right)) ts
      rest := by
  have positive : 0 < operator.precedence := Nat.pos_of_ne_zero known
  generalize hphrase : Phrase.expression operator.precedence left = phrase at first
  cases first with
  | primary =>
    cases operator <;> cases hphrase
  | operation _ below atom others =>
    cases hphrase
    exact .operation positive below atom
      (others.operands_trans (.operand positive rfl spelled second .noOperand))
  | _ => cases hphrase

theorem Derives.append_accesses {a e : Expr} {ts mid rest : List Token}
    (first : Derives (.expression primaryPrecedence a) ts mid)
    (second : Derives (.accesses a e) mid rest) :
    Derives (.expression primaryPrecedence e) ts rest := by
  cases first with
  | primary atom others => exact .primary atom (others.accesses_trans second)
  | operation _ below => exact absurd below (lt_irrefl _)

end Grammar

@[simp] theorem Expr.position_unplaced (e : Expr) : e.unplaced.position = .first :=
  e.position_relocate _

theorem spells_sign (text : String) : (Token.sign text).spells text := by
  simp [Token.spells, Token.sign, Token.plain]

theorem opens_append {ts rest : List Token} (filled : ts ≠ []) :
    Opens (ts ++ rest) ↔ Opens ts := by
  cases ts with
  | nil => contradiction
  | cons t ts => exact Iff.rfl

theorem not_opens_sign {s : String} (other : s ≠ "(") (rest : List Token) :
    ¬ Opens (.sign s :: rest) :=
  fun opens => other (Token.spells_iff.mp opens).1

theorem EndsInName.append {ts : List Token} (h : EndsInName ts) (front : List Token) :
    EndsInName (front ++ ts) := by
  obtain ⟨middle, t, rfl, kind⟩ := h
  exact ⟨front ++ middle, t, by rw [List.append_assoc], kind⟩

private theorem derives_items {args : List Expr} (free : Uncaptured args)
    (each : ∀ a ∈ args, ∀ rest, (EndsInName (a.tokens 0) → ¬ Opens rest) →
      Derives (.expression 1 a.unplaced) (a.tokens 0 ++ rest) rest) (rest : List Token) :
    Derives (.items (args.map Expr.unplaced)) (argTokens args ++ .sign ")" :: rest)
      (.sign ")" :: rest) := by
  induction args with
  | nil => exact .noItem
  | cons a more ih =>
    rw [argTokens, List.append_assoc]
    have others := ih (List.IsChain.tail free) fun b found => each b (List.mem_cons_of_mem a found)
    refine .item (each a List.mem_cons_self _ fun ends => ?_) others
    cases more with
    | nil => exact not_opens_sign (by decide) rest
    | cons b more =>
      rw [argTokens, List.append_assoc, opens_append (b.tokens_ne_nil 0)]
      have apart := (List.isChain_cons_cons.mp free).1
      exact fun opens => apart ⟨ends, opens⟩

private theorem derives_args {args : List Expr} (known : ArgsWellFormed args)
    (free : ∀ inner ∈ args :: innerArgumentLists args, Uncaptured inner)
    (each : ∀ a ∈ args, a.WellFormed → (∀ inner ∈ a.argumentLists, Uncaptured inner) →
      ∀ rest, (EndsInName (a.tokens 0) → ¬ Opens rest) →
        Derives (.expression 1 a.unplaced) (a.tokens 0 ++ rest) rest) (rest : List Token) :
    Derives (.arguments (relocateArgs (fun _ => .first) args))
      (.sign "(" :: (argTokens args ++ .sign ")" :: rest)) rest := by
  rw [relocateArgs_eq_map]
  have items := derives_items (free args List.mem_cons_self) (fun a found rest follow => by
    refine each a found (argsWellFormed_iff.mp known a found) (fun inner member => ?_) rest follow
    refine free inner (List.mem_cons_of_mem args ?_)
    rw [innerArgumentLists_eq_flatMap]
    exact List.mem_flatMap.mpr ⟨a, found, member⟩) rest
  exact .arguments (spells_sign "(") items (spells_sign ")")

/-- The tokens of an expression derive it where they do not run into a parenthesis. -/
theorem Expr.derives {e : Expr} (h : e.WellFormed)
    (free : ∀ args ∈ e.argumentLists, Uncaptured args) (least : Nat) {n : Nat} (positive : 0 < n)
    (bound : n ≤ max least 1) (below : n ≤ primaryPrecedence) {rest : List Token}
    (follow : EndsInName (e.tokens least) → ¬ Opens rest) :
    Derives (.expression n e.unplaced) (e.tokens least ++ rest) rest := by
  induction e generalizing least n rest with
  | integer p value =>
    obtain ⟨k, rfl⟩ := Int.eq_ofNat_of_zero_le h.1
    have atom : Derives _ _ rest := .integer (t := .plain .integer (toString (k : Int))) rfl
    have value : Text.naturalValue (Token.plain .integer (toString (k : Int))).text.toList = k :=
      Cut.naturalValue_toString k
    rw [value] at atom
    exact .of_atom atom .noAccess positive below
  | string p text => exact .of_atom (.string rfl h.2) .noAccess positive below
  | template p text => exact .of_atom (.template rfl h.2) .noAccess positive below
  | identifier p name =>
    have alone := follow ⟨[], .name name, rfl, rfl⟩
    exact .of_atom (.identifier rfl alone) .noAccess positive below
  | binary p operator left right ihLeft ihRight =>
    obtain ⟨known, left', right'⟩ := h
    have leftFree args found := free args (List.mem_append_left _ found)
    have rightFree args found := free args (List.mem_append_right _ found)
    have tight : operator.precedence < primaryPrecedence := by
      cases operator <;> simp [Operator.precedence, primaryPrecedence]
    have other : operator.sign ≠ "(" := Operator.sign_ne known (by decide)
    -- The operation without parentheses around it.
    have bare {rest : List Token}
        (follow : EndsInName (right.tokens (operator.precedence + 1)) → ¬ Opens rest) :
        Derives (.expression operator.precedence (.binary .first operator left.unplaced
          right.unplaced)) (left.tokens operator.precedence ++ .sign operator.sign ::
            (right.tokens (operator.precedence + 1) ++ rest)) rest := by
      have first := ihLeft left' leftFree operator.precedence (n := operator.precedence)
        (by omega) (by omega) tight.le
        fun _ => not_opens_sign other (right.tokens (operator.precedence + 1) ++ rest)
      have second := ihRight right' rightFree (operator.precedence + 1)
        (n := operator.precedence + 1) (by omega) (by omega) tight follow
      have whole := Derives.append_operand known (spells_sign _) first second
      rwa [Expr.position_unplaced] at whole
    by_cases loose : operator.precedence < least
    · have closed : ¬ Opens (.sign ")" :: rest) := not_opens_sign (by decide) rest
      have inner := (bare fun _ => closed).loosen (by omega) Nat.one_pos tight.le
      have whole := Derives.of_atom (.group (spells_sign "(") inner (spells_sign ")")) .noAccess
        positive below
      simpa [Expr.tokens, Expr.relocate, loose] using whole
    · rw [Expr.tokens, if_neg loose] at follow ⊢
      have whole := (bare fun ends => follow ((ends.append [_]).append _)).loosen
        (m := n) (by omega) positive tight.le
      simpa [Expr.relocate] using whole
  | functionCall p name args ih =>
    have called := derives_args h.2 free (fun a found known free rest follow =>
      ih a found known free 0 Nat.one_pos (by omega) (by decide) follow) rest
    have whole := Derives.of_atom (.functionCall (t := .name name) rfl called) .noAccess positive
      below
    simpa [Expr.tokens, Expr.relocate] using whole
  | methodCall p receiver method args ihReceiver ih =>
    obtain ⟨receiver', known, other, args'⟩ := h
    have receiverFree inner found := free inner (List.mem_append_left _ found)
    have argsFree inner found := free inner (List.mem_append_right _ found)
    have called := derives_args args' argsFree (fun a found known free rest follow =>
      ih a found known free 0 Nat.one_pos (by omega) (by decide) follow) rest
    have first := ihReceiver receiver' receiverFree primaryPrecedence (n := primaryPrecedence)
      (by decide) (by omega) le_rfl fun _ => not_opens_sign (s := ".") (by decide)
        (.name method :: .sign "(" :: (argTokens args ++ .sign ")" :: rest))
    have whole := (first.append_accesses (.methodCall (spells_sign ".") rfl other called
      .noAccess)).loosen below positive le_rfl
    rw [Expr.position_unplaced] at whole
    simpa [Expr.tokens, Expr.relocate] using whole
  | fieldAccess p receiver field ih =>
    obtain ⟨receiver', known⟩ := h
    have alone := follow ⟨receiver.tokens primaryPrecedence ++ [.sign "."], .name field,
      by simp [Expr.tokens], rfl⟩
    have first := ih receiver' free primaryPrecedence (n := primaryPrecedence) (by decide)
      (by omega) le_rfl fun _ => not_opens_sign (s := ".") (by decide) (.name field :: rest)
    have whole := (first.append_accesses (.fieldAccess (spells_sign ".") rfl alone
      .noAccess)).loosen below positive le_rfl
    rw [Expr.position_unplaced] at whole
    simpa [Expr.tokens, Expr.relocate] using whole
  | creation p className args ih =>
    have called := derives_args h.2 free (fun a found known free rest follow =>
      ih a found known free 0 Nat.one_pos (by omega) (by decide) follow) rest
    have closed := not_opens_sign (s := ".") (by decide)
      (.name "new" :: .sign "(" :: (argTokens args ++ .sign ")" :: rest))
    have whole := Derives.of_atom (.identifier (t := .name className) rfl closed)
      (.creation (spells_sign ".") rfl rfl called .noAccess) positive below
    simpa [Expr.tokens, Expr.relocate] using whole

theorem not_declaresObject_cons {t : Token} (other : t.kind ≠ .identifier) (ts : List Token) :
    ¬ DeclaresObject (t :: ts) := by
  intro object
  cases ts with
  | nil => exact object
  | cons u more => exact other object.1

private theorem Expr.not_declaresObject (e : Expr) (least : Nat) {t : Token} (rest : List Token)
    (other : t.kind ≠ .identifier) : ¬ DeclaresObject (e.tokens least ++ t :: rest) := by
  have sign (text : String) : (Token.sign text).kind ≠ .identifier := by
    simp [Token.sign, Token.plain]
  induction e generalizing least t rest with
  | integer | string | template => exact not_declaresObject_cons (by simp [Token.plain]) _
  | identifier p name => exact fun object => other object.2.2
  | binary p operator left right ihLeft ihRight =>
    by_cases loose : operator.precedence < least
    · rw [Expr.tokens, if_pos loose]
      exact not_declaresObject_cons (sign "(") _
    · rw [Expr.tokens, if_neg loose, List.append_assoc]
      exact ihLeft _ _ (sign _)
  | methodCall p receiver method args ihReceiver | fieldAccess p receiver method ihReceiver =>
    rw [Expr.tokens, List.append_assoc]
    exact ihReceiver _ _ (sign _)
  | functionCall p name args => exact fun object => sign "(" object.2.2
  | creation p className args => exact fun object => sign "." object.2.2

private theorem typeOf?_token (type : Ty) : typeOf? type.token = some type := by
  cases type <;> rfl

@[simp] theorem Ty.position_token (type : Ty) : type.token.position = .first := by
  cases type <;> rfl

private theorem spells_reserved (word : String) : (Token.reserved word).spells word := by
  simp [Token.spells, Token.reserved, Token.plain]

private theorem parameters_of_tokens (ps : List Param) (rest : List Token) :
    Parameters (ps.map (Param.relocate fun _ => .first))
      (ps.flatMap Param.tokens ++ .sign ")" :: rest) rest := by
  induction ps with
  | nil => exact .none (spells_sign ")")
  | cons p more ih =>
    have whole : Parameters _ (.name p.name :: _) rest :=
      .param rfl (spells_sign ":") (typeOf?_token p.type.type) .none ih
    simpa [Param.tokens, Param.relocate, TypeRef.relocate] using whole

theorem lineEnd_feed (mode : Terminators) (rest : List Token) : LineEnd mode (.feed :: rest) rest :=
  .newline rfl

private theorem heads_of_tokens (mode : Terminators) (s : Signature) {mark : String}
    (marks : mark = "->" ∨ mark = ":") (rest : List Token) :
    Heads mode (s.relocate fun _ => .first) (s.tokens mark ++ rest) rest := by
  have whole : Heads mode _ (.reserved "def" :: .name s.name :: .sign "(" :: _) rest :=
    .head (spells_reserved _) rfl (spells_sign "(")
      (parameters_of_tokens s.params (.sign mark :: s.returns.type.token :: .feed :: rest)) rfl
      marks (typeOf?_token s.returns.type) (lineEnd_feed mode rest)
  simpa [Signature.tokens, Signature.relocate, TypeRef.relocate] using whole

theorem fields_of_tokens (mode : Terminators) (d : Field) (rest : List Token) :
    Fields mode (d.relocate fun _ => .first) (d.tokens ++ rest) rest := by
  have whole : Fields mode _ (d.type.type.token :: .name d.name :: .feed :: rest) rest :=
    .field (typeOf?_token d.type.type) rfl (lineEnd_feed mode rest)
  simpa [Field.tokens, Field.relocate, TypeRef.relocate] using whole

private theorem signatures_of_tokens (mode : Terminators) (ms : List Signature)
    (rest : List Token) : Signatures mode (ms.map (Signature.relocate fun _ => .first))
      (ms.flatMap (Signature.tokens ":") ++ rest) rest := by
  induction ms with
  | nil => exact .none .none
  | cons m more ih =>
    rw [List.map_cons, List.flatMap_cons, List.append_assoc]
    exact .more .none (heads_of_tokens mode m (.inr rfl) _) ih

private theorem implements_of_tokens (face : Option String) (rest : List Token) :
    Implements face (implementsTokens face ++ rest) rest := by
  cases face with
  | none => exact .none
  | some face => exact .some (spells_reserved "implements") (rfl : (Token.name face).kind = _)

section Statements

variable {mode : Terminators}

theorem builds_if {condition : Expr} {body : List Stmt} {ts us rest : List Token}
    (derived : Derives (.expression 1 condition) ts (.feed :: us))
    (built : Builds mode (.block body) us (endTokens ++ rest)) :
    Builds mode (.statement (.conditional .first condition body none)) (.reserved "if" :: ts)
      rest :=
  .conditional (spells_reserved "if") derived (lineEnd_feed mode us) built (spells_reserved "end")
    (lineEnd_feed mode rest)

theorem builds_ifElse {condition : Expr} {body other : List Stmt} {ts us vs rest : List Token}
    (derived : Derives (.expression 1 condition) ts (.feed :: us))
    (built : Builds mode (.block body) us (.reserved "else" :: .feed :: vs))
    (built' : Builds mode (.block other) vs (endTokens ++ rest)) :
    Builds mode (.statement (.conditional .first condition body (some other)))
      (.reserved "if" :: ts) rest :=
  .alternative (spells_reserved "if") derived (lineEnd_feed mode us) built (spells_reserved "else")
    (lineEnd_feed mode vs) built' (spells_reserved "end") (lineEnd_feed mode rest)

theorem builds_classDecl {name : String} {face : Option String} {fields : List Field}
    {methods : List Routine} {us rest : List Token}
    (built : Builds mode (.members fields methods) us (endTokens ++ rest)) :
    Builds mode (.statement (.classDecl ⟨.first, name, face, fields, methods⟩))
      (.reserved "class" :: .name name :: (implementsTokens face ++ .feed :: us)) rest :=
  .classDecl (spells_reserved "class") (rfl : (Token.name name).kind = _)
    (implements_of_tokens face _) (lineEnd_feed mode us) built (spells_reserved "end")
    (lineEnd_feed mode rest)

theorem builds_routine_of_body {head : Signature} {body : List Stmt} {mark : String}
    (marks : mark = "->" ∨ mark = ":") {us rest : List Token}
    (built : Builds mode (.block body) us (endTokens ++ rest)) :
    Builds mode (.routine ⟨head.relocate fun _ => .first, body⟩) (head.tokens mark ++ us) rest :=
  .routine (heads_of_tokens mode head marks us) built (spells_reserved "end")
    (lineEnd_feed mode rest)

private theorem builds_block {body : List Stmt} (known : BlockWellFormed body)
    (free : ∀ args ∈ blockArgumentLists body, Uncaptured args)
    (each : ∀ s ∈ body, s.WellFormed → (∀ args ∈ s.argumentLists, Uncaptured args) →
      ∀ rest, Builds mode (.statement s.unplaced) (s.tokens ++ rest) rest) (rest : List Token) :
    Builds mode (.block (relocateBlock (fun _ => .first) body)) (blockTokens body ++ rest)
      rest := by
  induction body with
  | nil => exact .noStatement .none
  | cons s more ih =>
    rw [blockTokens, List.append_assoc]
    have first := each s List.mem_cons_self known.1
      (fun args found => free args (List.mem_append_left _ found)) (blockTokens more ++ rest)
    have others := ih known.2 (fun args found => free args (List.mem_append_right _ found))
      fun t found => each t (List.mem_cons_of_mem s found)
    exact .statement .none first others

private theorem builds_routine {head : Signature} {body : List Stmt} {mark : String}
    (marks : mark = "->" ∨ mark = ":") (known : BlockWellFormed body)
    (free : ∀ args ∈ blockArgumentLists body, Uncaptured args)
    (each : ∀ s ∈ body, s.WellFormed → (∀ args ∈ s.argumentLists, Uncaptured args) →
      ∀ rest, Builds mode (.statement s.unplaced) (s.tokens ++ rest) rest) (rest : List Token) :
    Builds mode (.routine (Routine.relocate (fun _ => .first) ⟨head, body⟩))
      (Routine.tokens mark ⟨head, body⟩ ++ rest) rest := by
  have inner := builds_block known free each (endTokens ++ rest)
  simpa [Routine.tokens, Routine.relocate] using builds_routine_of_body marks inner

private theorem builds_members {methods : List Routine} (fields : List Field) (rest : List Token)
    (each : ∀ m ∈ methods, ∀ rest, Builds mode (.routine (m.relocate fun _ => .first))
      (m.tokens ":" ++ rest) rest) :
    Builds mode (.members (fields.map (Field.relocate fun _ => .first))
        (relocateMethods (fun _ => .first) methods))
      (fields.flatMap Field.tokens ++ (methodTokens methods ++ rest)) rest := by
  induction fields with
  | nil =>
    rw [List.flatMap_nil, List.nil_append]
    induction methods with
    | nil => exact .noMember .none
    | cons m more ih =>
      rw [methodTokens, List.append_assoc]
      exact .method .none (each m List.mem_cons_self _)
        (ih fun n found => each n (List.mem_cons_of_mem m found))
  | cons d more ih =>
    rw [List.flatMap_cons, List.append_assoc]
    exact .field .none (fields_of_tokens mode d _) ih

private theorem derives_line {e : Expr} (known : e.WellFormed)
    (free : ∀ args ∈ e.argumentLists, Uncaptured args) {rest : List Token} (closed : ¬ Opens rest) :
    Derives (.expression 1 e.unplaced) (e.tokens 0 ++ rest) rest :=
  Expr.derives known free 0 Nat.one_pos (by omega) (by decide) fun _ => closed

theorem not_opens_feed (rest : List Token) : ¬ Opens (.feed :: rest) := by
  simp [Opens, Token.spells, Token.feed, Token.plain]

private theorem isCapitalized_token {type : Ty} (known : type.Capitalized)
    (named : type.token.kind = .identifier) : isCapitalized type.token := by
  cases type with
  | named name =>
    obtain ⟨c, rest, text, upper⟩ := known
    simp [isCapitalized, Ty.token, text, upper]
  | _ => simp [Ty.token, Token.reserved, Token.plain] at named

private theorem Expr.exists_tokens (e : Expr) (least : Nat) :
    ∃ t more, e.tokens least = t :: more ∧ t.position = .first := by
  induction e generalizing least with
  | binary p operator left right ihLeft =>
    by_cases loose : operator.precedence < least
    · rw [Expr.tokens, if_pos loose]
      exact ⟨_, _, rfl, rfl⟩
    · obtain ⟨t, more, same, position⟩ := ihLeft operator.precedence
      rw [Expr.tokens, if_neg loose, same]
      exact ⟨t, _, rfl, position⟩
  | methodCall p receiver method args ih | fieldAccess p receiver method ih =>
    obtain ⟨t, more, same, position⟩ := ih primaryPrecedence
    rw [Expr.tokens, same]
    exact ⟨t, _, rfl, position⟩
  | _ => exact ⟨_, _, rfl, rfl⟩

theorem builds_declaration {type : Ty} (capital : type.Capitalized) {name : String} {value : Expr}
    {ts rest : List Token} (derived : Derives (.expression 1 value) ts (.feed :: rest)) :
    Builds mode (.statement (.declaration .first ⟨.first, type⟩ name value))
      (type.token :: .name name :: .sign "=" :: ts) rest := by
  have whole : Builds mode _ (type.token :: .name name :: .sign "=" :: ts) rest :=
    .declaration (typeOf?_token type) (isCapitalized_token capital) rfl (spells_sign "=") derived
      (lineEnd_feed mode rest)
  simpa using whole

theorem Stmt.builds {s : Stmt} (known : s.WellFormed)
    (free : ∀ args ∈ s.argumentLists, Uncaptured args) (rest : List Token) :
    Builds mode (.statement s.unplaced) (s.tokens ++ rest) rest := by
  induction s generalizing rest with
  | declaration p type name value =>
    obtain ⟨-, capital, -, value'⟩ := known
    have derived := derives_line value' free (not_opens_feed rest)
    simpa [Stmt.tokens, Stmt.relocate, TypeRef.relocate] using builds_declaration capital derived
  | function head body ih => exact .function (builds_routine (.inl rfl) known.2 free ih rest)
  | conditional p condition thenBody elseBody ihThen ihElse =>
    obtain ⟨condition', then', else'⟩ := known
    have conditionFree args found := free args (List.mem_append_left _ found)
    have thenFree args found := free args (List.mem_append_right _ (List.mem_append_left _ found))
    have elseFree args found := free args (List.mem_append_right _ (List.mem_append_right _ found))
    cases elseBody with
    | none =>
      have derived := derives_line condition' conditionFree
        (not_opens_feed (blockTokens thenBody ++ (endTokens ++ rest)))
      have built := builds_block then' thenFree ihThen (endTokens ++ rest)
      simpa [Stmt.tokens, Stmt.relocate, elseTokens, relocateElse] using builds_if derived built
    | some body =>
      have derived := derives_line condition' conditionFree (not_opens_feed (blockTokens thenBody ++
        (.reserved "else" :: .feed :: (blockTokens body ++ (endTokens ++ rest)))))
      have built := builds_block then' thenFree ihThen
        (.reserved "else" :: .feed :: (blockTokens body ++ (endTokens ++ rest)))
      have other := builds_block else' elseFree (ihElse body rfl) (endTokens ++ rest)
      simpa [Stmt.tokens, Stmt.relocate, elseTokens, relocateElse] using
        builds_ifElse derived built other
  | classDecl p name face fields methods ih =>
    obtain ⟨-, -, -, methods'⟩ := known
    have members : Builds mode (.members _ (relocateMethods _ methods)) _ _ :=
      builds_members fields (endTokens ++ rest) fun m found rest => by
        have known := methodsWellFormed_iff.mp methods' m found
        obtain ⟨head, body⟩ := m
        refine builds_routine (.inr rfl) known.2 (fun args member => free args ?_)
          (fun s inside => ih ⟨head, body⟩ found s inside) rest
        have all : args ∈ methods.flatMap Routine.argumentLists :=
          List.mem_flatMap.mpr ⟨⟨head, body⟩, found, member⟩
        rwa [← methodArgumentLists_eq_flatMap] at all
    simpa [Stmt.tokens, Stmt.relocate, ClassDecl.tokens, ClassDecl.relocate] using
      builds_classDecl members
  | interfaceDecl decl =>
    have listed := signatures_of_tokens mode decl.methods (endTokens ++ rest)
    have whole : Builds mode _ (.reserved "interface" :: .name decl.name :: _) rest :=
      .interfaceDecl (spells_reserved "interface") rfl (lineEnd_feed mode _) listed
        (spells_reserved "end") (lineEnd_feed mode rest)
    simpa [Stmt.tokens, Stmt.relocate, InterfaceDecl.tokens, InterfaceDecl.relocate] using whole
  | assignment p target value =>
    have closed : ¬ Opens (.sign "=" :: (value.tokens 0 ++ .feed :: rest)) :=
      not_opens_sign (by decide) _
    have targetFree args found := free args (List.mem_append_left _ found)
    have valueFree args found := free args (List.mem_append_right _ found)
    have first := derives_line known.1 targetFree closed
    have second := derives_line known.2 valueFree (not_opens_feed rest)
    have free := target.not_declaresObject 0 (t := .sign "=") (value.tokens 0 ++ .feed :: rest)
      (by simp [Token.sign, Token.plain])
    obtain ⟨t, more, same, position⟩ := target.exists_tokens 0
    rw [same] at first free
    have whole : Builds mode _ _ rest :=
      .assignment free first (spells_sign "=") second (lineEnd_feed mode rest)
    rw [position] at whole
    simpa [Stmt.tokens, Stmt.relocate, same] using whole
  | expression p e =>
    have derived := derives_line known free (not_opens_feed rest)
    have free := e.not_declaresObject 0 (t := .feed) rest (by simp [Token.feed, Token.plain])
    obtain ⟨t, more, same, position⟩ := e.exists_tokens 0
    rw [same] at derived free
    have whole : Builds mode _ _ rest := .expression free derived (lineEnd_feed mode rest)
    rw [position] at whole
    simpa [Stmt.tokens, Stmt.relocate, same] using whole

/-- The tokens of a program derive it, up to places, if no argument captures the next one. -/
theorem Program.derived_tokens {p : Program} (known : p.WellFormed)
    (free : ∀ args ∈ p.argumentLists, Uncaptured args) :
    p.unplaced.Derived mode (p.tokens ++ [.final]) := by
  have whole : Builds mode _ _ [.final] := builds_block known free
    (fun s _ known free rest => Stmt.builds known free rest) [.final]
  rw [relocateBlock_eq_map] at whole
  exact ⟨.final, rfl, whole⟩

end Statements

end ScriptLang
