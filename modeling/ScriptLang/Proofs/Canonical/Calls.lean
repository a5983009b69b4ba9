import ScriptLang.Proofs.Canonical.Derivation
import ScriptLang.Proofs.Grammar.Calls

/-!
The calls that the tokens of a well-formed program show: one for each call of the program, one for
each head, and one more for each argument that captures the next one.
-/

set_option autoImplicit false
set_option relaxedAutoImplicit false

namespace ScriptLang

open Grammar
open Operator (primaryPrecedence)

section Names

variable {front ts : List Token}

instance : DecidablePred EndsInName := fun ts =>
  decidable_of_iff (ts.getLast?.any (·.kind = .identifier)) <| by
    constructor
    · intro named
      cases last : ts.getLast? with
      | none => simp [last] at named
      | some t =>
        obtain ⟨front, rfl⟩ := List.getLast?_eq_some_iff.mp last
        exact ⟨front, t, rfl, by simpa using named⟩
    · rintro ⟨front, t, rfl, kind⟩
      simp [kind]

private theorem endsInName_append (filled : ts ≠ []) :
    EndsInName (front ++ ts) ↔ EndsInName ts := by
  constructor
  · rintro ⟨front', t, same, kind⟩
    have last := congrArg List.getLast? same
    rw [List.getLast?_append_of_ne_nil _ filled, List.getLast?_append] at last
    obtain ⟨front, rfl⟩ := List.getLast?_eq_some_iff.mp (by simpa using last)
    exact ⟨front, t, rfl, kind⟩
  · exact fun h => h.append front

private theorem not_endsInName_sign (front : List Token) (s : String) :
    ¬ EndsInName (front ++ [.sign s]) := by
  rintro ⟨front', t, same, kind⟩
  obtain ⟨-, same⟩ := List.append_inj' same rfl
  cases same
  cases kind

end Names

/-- One if a name at the end of the first list stands before a parenthesis, else none. -/
def joint (ts rest : List Token) : Nat :=
  if EndsInName ts ∧ Opens rest then 1 else 0

def captureCount : List Expr → Nat
  | a :: b :: more => joint (a.tokens 0) (b.tokens 0) + captureCount (b :: more)
  | _ => 0

/-- How many calls the tokens of calls with these argument lists show. -/
def shownCalls : List (List Expr) → Nat
  | [] => 0
  | args :: lists => 1 + captureCount args + shownCalls lists

section Counts

variable {front ts rest : List Token}

private theorem joint_closed (closed : ¬ Opens rest) : joint ts rest = 0 :=
  if_neg fun both => closed both.2

private theorem joint_sign (front : List Token) (s : String) :
    joint (front ++ [.sign s]) rest = 0 :=
  if_neg fun both => not_endsInName_sign front s both.1

private theorem joint_append (filled : ts ≠ []) : joint (front ++ ts) rest = joint ts rest := by
  simp only [joint, endsInName_append filled]

private theorem joint_opens {rest' : List Token} (same : Opens rest ↔ Opens rest') :
    joint ts rest = joint ts rest' := by
  simp only [joint, same]

private theorem captureCount_eq_zero_iff {args : List Expr} :
    captureCount args = 0 ↔ Uncaptured args := by
  induction args with
  | nil => exact ⟨fun _ => .nil, fun _ => rfl⟩
  | cons a more ih =>
    cases more with
    | nil => exact ⟨fun _ => .singleton a, fun _ => rfl⟩
    | cons b more =>
      have chain : Uncaptured (a :: b :: more) ↔ ¬ Captures a b ∧ Uncaptured (b :: more) :=
        List.isChain_cons_cons
      have apart : joint (a.tokens 0) (b.tokens 0) = 0 ↔ ¬ Captures a b := by
        simp [joint, Captures]
      rw [captureCount, Nat.add_eq_zero_iff, chain, apart, ih]

private theorem shownCalls_append (lists lists' : List (List Expr)) :
    shownCalls (lists ++ lists') = shownCalls lists + shownCalls lists' := by
  induction lists with
  | nil => simp [shownCalls]
  | cons args lists ih =>
    rw [List.cons_append, shownCalls, ih, shownCalls]
    omega

private theorem length_le_shownCalls (lists : List (List Expr)) :
    lists.length ≤ shownCalls lists := by
  induction lists with
  | nil => exact Nat.zero_le _
  | cons args lists ih =>
    rw [List.length_cons, shownCalls]
    omega

/-- Exactly the calls are shown if and only if no argument captures the next one. -/
theorem shownCalls_eq_length_iff {lists : List (List Expr)} :
    shownCalls lists = lists.length ↔ ∀ args ∈ lists, Uncaptured args := by
  induction lists with
  | nil => simp [shownCalls]
  | cons args lists ih =>
    have least := length_le_shownCalls lists
    rw [List.forall_mem_cons, ← ih, ← captureCount_eq_zero_iff, shownCalls, List.length_cons]
    omega

end Counts

section Expressions

variable {rest : List Token}

private theorem callHeads_reserved (word : String) (typed : Bool) :
    callHeads typed (.reserved word :: rest) = callHeads false rest := by
  simp [callHeads, introducesType, Token.reserved, Token.plain]

private theorem callHeads_feed (typed : Bool) :
    callHeads typed (.feed :: rest) = callHeads false rest := by
  simp [callHeads, introducesType, Token.feed, Token.plain]

private theorem callHeads_name_open (name : String) :
    callHeads false (.name name :: .sign "(" :: rest) = 1 + callHeads false rest := by
  have opens : Opens (.sign "(" :: rest) := spells_sign "("
  rw [callHeads_name rfl opens, callHeads_sign (spells_sign "(") (by decide)]

private theorem callHeads_name_closed (name : String) (closed : ¬ Opens rest) (typed : Bool) :
    callHeads typed (.name name :: rest) = callHeads false rest :=
  callHeads_closed (by simp [Token.name, Token.plain]) closed

private theorem callHeads_name_joint (name : String) (rest : List Token) :
    callHeads false (.name name :: rest) = callHeads false rest + joint [.name name] rest := by
  have named : EndsInName [.name name] := ⟨[], _, rfl, rfl⟩
  by_cases opens : Opens rest
  · rw [callHeads_name rfl opens, joint, if_pos ⟨named, opens⟩, Nat.add_comm]
  · rw [callHeads_name_closed name opens, joint_closed opens, Nat.add_zero]

private theorem callHeads_literal {kind : Kind} (word : kind ≠ .identifier)
    (sign : kind ≠ .operator) (text : String) (rest : List Token) :
    callHeads false (.plain kind text :: rest) =
      callHeads false rest + joint [.plain kind text] rest := by
  have apart : joint [.plain kind text] rest = 0 := by
    refine if_neg fun both => ?_
    obtain ⟨front, t, same, named⟩ := both.1
    have last := congrArg List.getLast? same
    rw [List.getLast?_singleton, List.getLast?_concat] at last
    cases last
    exact word named
  rw [callHeads_other word, introducesType_of_kind sign, apart, Nat.add_zero]

private theorem callHeads_args {args : List Expr}
    (each : ∀ a ∈ args, ∀ rest, callHeads false (a.tokens 0 ++ rest) =
      callHeads false rest + shownCalls a.argumentLists + joint (a.tokens 0) rest)
    (closed : ¬ Opens rest) :
    callHeads false (argTokens args ++ rest) =
      callHeads false rest + shownCalls (innerArgumentLists args) + captureCount args := by
  induction args with
  | nil => rfl
  | cons a more ih =>
    have others := ih fun b found => each b (List.mem_cons_of_mem a found)
    rw [argTokens, List.append_assoc, each a List.mem_cons_self, others, innerArgumentLists,
      shownCalls_append]
    cases more with
    | nil =>
      have alone : joint (a.tokens 0) (argTokens [] ++ rest) = 0 := joint_closed closed
      rw [alone]
      simp only [captureCount, innerArgumentLists, shownCalls]
      omega
    | cons b more =>
      have next : Opens (argTokens (b :: more) ++ rest) ↔ Opens (b.tokens 0) := by
        rw [argTokens, List.append_assoc, opens_append (b.tokens_ne_nil 0)]
      rw [joint_opens next, captureCount]
      omega

private theorem Expr.callHeads_tokens {e : Expr} (h : e.WellFormed) (least : Nat)
    (rest : List Token) : callHeads false (e.tokens least ++ rest) =
      callHeads false rest + shownCalls e.argumentLists + joint (e.tokens least) rest := by
  -- Arguments, the parentheses around them and the name before them.
  have call {args : List Expr} (known : ArgsWellFormed args) (name : String) (rest : List Token)
      (ih : ∀ a ∈ args, a.WellFormed → ∀ least rest, callHeads false (a.tokens least ++ rest) =
        callHeads false rest + shownCalls a.argumentLists + joint (a.tokens least) rest) :
      callHeads false (.name name :: .sign "(" :: (argTokens args ++ .sign ")" :: rest)) =
        callHeads false rest + shownCalls (args :: innerArgumentLists args) := by
    have closed : ¬ Opens (.sign ")" :: rest) := not_opens_sign (by decide) rest
    have inner := callHeads_args (fun a found rest =>
      ih a found (argsWellFormed_iff.mp known a found) 0 rest) closed
    rw [callHeads_name_open, inner, callHeads_sign (spells_sign ")") (by decide), shownCalls]
    omega
  induction e generalizing least rest with
  | integer p value | string p text | template p text =>
    exact callHeads_literal (by decide) (by decide) _ rest
  | identifier p name =>
    exact callHeads_name_joint name rest
  | binary p operator left right ihLeft ihRight =>
    obtain ⟨known, left', right'⟩ := h
    have other : operator.sign ≠ "(" := Operator.sign_ne known (by decide)
    have bare (rest : List Token) : callHeads false (left.tokens operator.precedence ++
        .sign operator.sign :: (right.tokens (operator.precedence + 1) ++ rest)) =
          callHeads false rest + (shownCalls left.argumentLists + shownCalls right.argumentLists) +
            joint (right.tokens (operator.precedence + 1)) rest := by
      rw [ihLeft left', joint_closed (not_opens_sign other _),
        callHeads_sign (spells_sign _) (sign_not_mem_typeMarks known), ihRight right']
      omega
    rw [Expr.argumentLists, shownCalls_append, Expr.tokens]
    by_cases loose : operator.precedence < least
    · have closed : ¬ Opens (.sign ")" :: rest) := not_opens_sign (by decide) rest
      have inner := bare (.sign ")" :: rest)
      rw [joint_closed closed, callHeads_sign (spells_sign ")") (by decide)] at inner
      rw [if_pos loose, ← List.cons_append, joint_sign, ← inner]
      simp only [List.cons_append, List.append_assoc, List.nil_append]
      rw [callHeads_sign (spells_sign "(") (by decide)]
    · have filled := right.tokens_ne_nil (operator.precedence + 1)
      rw [if_neg loose, joint_append (List.cons_ne_nil _ _), ← List.singleton_append,
        joint_append filled, ← bare]
      simp
  | functionCall p name args ih =>
    have closed : joint ((Expr.functionCall p name args).tokens least) rest = 0 :=
      joint_sign (.name name :: .sign "(" :: argTokens args) ")"
    rw [closed, Expr.argumentLists, ← call h.2 name rest ih]
    simp [Expr.tokens]
  | methodCall p receiver method args ihReceiver ih =>
    have closed : joint ((Expr.methodCall p receiver method args).tokens least) rest = 0 := by
      rw [Expr.tokens, joint_append (List.cons_ne_nil _ _)]
      exact joint_sign (.sign "." :: .name method :: .sign "(" :: argTokens args) ")"
    have others := call h.2.2.2 method rest ih
    have dot (ts : List Token) : ¬ Opens (.sign "." :: ts) := not_opens_sign (by decide) ts
    have first := ihReceiver h.1 primaryPrecedence
      (.sign "." :: .name method :: .sign "(" :: (argTokens args ++ .sign ")" :: rest))
    rw [joint_closed (dot _), callHeads_sign (spells_sign ".") (by decide), others] at first
    rw [closed, Expr.argumentLists, shownCalls_append]
    have whole : (Expr.methodCall p receiver method args).tokens least ++ rest =
        receiver.tokens primaryPrecedence ++
          (.sign "." :: .name method :: .sign "(" :: (argTokens args ++ .sign ")" :: rest)) := by
      simp [Expr.tokens]
    rw [whole, first]
    omega
  | fieldAccess p receiver field ih =>
    have dot : ¬ Opens (.sign "." :: .name field :: rest) := not_opens_sign (by decide) _
    have first := ih h.1 primaryPrecedence (.sign "." :: .name field :: rest)
    have last : joint [.sign ".", .name field] rest = joint [.name field] rest := by
      show joint ([.sign "."] ++ [.name field]) rest = _
      exact joint_append (List.cons_ne_nil _ _)
    rw [joint_closed dot, callHeads_sign (spells_sign ".") (by decide)] at first
    rw [Expr.tokens, joint_append (List.cons_ne_nil _ _), last, Expr.argumentLists,
      List.append_assoc]
    have named := callHeads_name_joint field rest
    simp only [List.cons_append, List.nil_append]
    omega
  | creation p className args ih =>
    have closed : joint ((Expr.creation p className args).tokens least) rest = 0 :=
      joint_sign (.name className :: .sign "." :: .name "new" :: .sign "(" :: argTokens args) ")"
    have dot (ts : List Token) : ¬ Opens (.sign "." :: ts) := not_opens_sign (by decide) ts
    have whole : (Expr.creation p className args).tokens least ++ rest = .name className ::
        .sign "." :: .name "new" :: .sign "(" :: (argTokens args ++ .sign ")" :: rest) := by
      simp [Expr.tokens]
    rw [whole, closed, Expr.argumentLists, ← call h.2 "new" rest ih,
      callHeads_name_closed className (dot _), callHeads_sign (spells_sign ".") (by decide),
      Nat.add_zero]

private theorem callHeads_line {e : Expr} (h : e.WellFormed) (rest : List Token) :
    callHeads false (e.tokens 0 ++ .feed :: rest) =
      callHeads false rest + shownCalls e.argumentLists := by
  rw [Expr.callHeads_tokens h, joint_closed (not_opens_feed rest), callHeads_feed, Nat.add_zero]

end Expressions

section Statements

private theorem introducesType_token (type : Ty) : introducesType type.token = false := by
  cases type <;> rfl

private theorem callHeads_type (type : Ty) {rest : List Token} (closed : ¬ Opens rest)
    (typed : Bool) : callHeads typed (type.token :: rest) = callHeads false rest := by
  rw [callHeads, introducesType_token, if_neg (fun h => closed h.2.2), Nat.zero_add]

private theorem callHeads_params (ps : List Param) (typed : Bool) (rest : List Token) :
    callHeads typed (ps.flatMap Param.tokens ++ .sign ")" :: rest) = callHeads false rest := by
  induction ps generalizing typed with
  | nil => exact callHeads_sign (spells_sign ")") (by decide)
  | cons p more ih =>
    have closed (ts : List Token) : ¬ Opens (.sign ":" :: ts) := not_opens_sign (by decide) ts
    have typing : introducesType (.sign ":") = true := rfl
    have other : (Token.sign ":").kind ≠ .identifier := by simp [Token.sign, Token.plain]
    simp only [List.flatMap_cons, Param.tokens, List.cons_append, List.nil_append]
    rw [callHeads_name_closed p.name (closed _), callHeads_other other, typing, callHeads_typed, ih]

private theorem callHeads_signature (s : Signature) {mark : String}
    (marks : mark = "->" ∨ mark = ":") (rest : List Token) :
    callHeads false (s.tokens mark ++ rest) = callHeads false rest + 1 := by
  have typing : introducesType (.sign mark) = true := by
    rcases marks with rfl | rfl <;> rfl
  have other : (Token.sign mark).kind ≠ .identifier := by simp [Token.sign, Token.plain]
  have whole : s.tokens mark ++ rest = .reserved "def" :: .name s.name :: .sign "(" ::
      (s.params.flatMap Param.tokens ++
        .sign ")" :: .sign mark :: s.returns.type.token :: .feed :: rest) := by
    simp [Signature.tokens]
  rw [whole, callHeads_reserved, callHeads_name_open, callHeads_params, callHeads_other other,
    typing, callHeads_typed, introducesType_token, callHeads_feed, Nat.add_comm]

private theorem callHeads_signatures (ms : List Signature) (rest : List Token) :
    callHeads false (ms.flatMap (Signature.tokens ":") ++ rest) =
      callHeads false rest + ms.length := by
  induction ms with
  | nil => rfl
  | cons m more ih =>
    rw [List.flatMap_cons, List.append_assoc, callHeads_signature m (.inr rfl), ih,
      List.length_cons, Nat.add_assoc]

private theorem callHeads_fields (ds : List Field) (rest : List Token) :
    callHeads false (ds.flatMap Field.tokens ++ rest) = callHeads false rest := by
  induction ds with
  | nil => rfl
  | cons d more ih =>
    have closed (ts : List Token) : ¬ Opens (.name d.name :: ts) := not_opens_of_identifier rfl
    simp only [List.flatMap_cons, Field.tokens, List.cons_append, List.nil_append]
    rw [callHeads_type _ (closed _), callHeads_name_closed _ (not_opens_feed _), callHeads_feed, ih]

private theorem callHeads_implements (face : Option String) {rest : List Token}
    (closed : ¬ Opens rest) :
    callHeads false (implementsTokens face ++ rest) = callHeads false rest := by
  cases face with
  | none => rfl
  | some face =>
    simp only [implementsTokens, List.cons_append, List.nil_append]
    rw [callHeads_reserved, callHeads_name_closed face closed]

private theorem callHeads_end (rest : List Token) :
    callHeads false (endTokens ++ rest) = callHeads false rest := by
  simp only [endTokens, List.cons_append, List.nil_append]
  rw [callHeads_reserved, callHeads_feed]

private theorem callHeads_block {body : List Stmt} (h : BlockWellFormed body)
    (each : ∀ s ∈ body, s.WellFormed → ∀ rest, callHeads false (s.tokens ++ rest) =
      callHeads false rest + (shownCalls s.argumentLists + s.headCount)) (rest : List Token) :
    callHeads false (blockTokens body ++ rest) =
      callHeads false rest + (shownCalls (blockArgumentLists body) + blockHeadCount body) := by
  induction body with
  | nil => rfl
  | cons s more ih =>
    have others := ih h.2 fun t found => each t (List.mem_cons_of_mem s found)
    rw [blockTokens, List.append_assoc, each s List.mem_cons_self h.1, others, blockArgumentLists,
      shownCalls_append, blockHeadCount]
    omega

private theorem callHeads_routine {head : Signature} {body : List Stmt} {mark : String}
    (marks : mark = "->" ∨ mark = ":") (h : BlockWellFormed body)
    (each : ∀ s ∈ body, s.WellFormed → ∀ rest, callHeads false (s.tokens ++ rest) =
      callHeads false rest + (shownCalls s.argumentLists + s.headCount)) (rest : List Token) :
    callHeads false (Routine.tokens mark ⟨head, body⟩ ++ rest) = callHeads false rest +
      (shownCalls (Routine.argumentLists ⟨head, body⟩) + Routine.headCount ⟨head, body⟩) := by
  rw [Routine.tokens, List.append_assoc, List.append_assoc, callHeads_signature head marks,
    callHeads_block h each, callHeads_end, Routine.argumentLists, Routine.headCount]
  omega

private theorem callHeads_methods {methods : List Routine}
    (each : ∀ m ∈ methods, ∀ rest, callHeads false (m.tokens ":" ++ rest) =
      callHeads false rest + (shownCalls m.argumentLists + m.headCount)) (rest : List Token) :
    callHeads false (methodTokens methods ++ rest) = callHeads false rest +
      (shownCalls (methodArgumentLists methods) + methodHeadCount methods) := by
  induction methods with
  | nil => rfl
  | cons m more ih =>
    have others := ih fun n found => each n (List.mem_cons_of_mem m found)
    rw [methodTokens, List.append_assoc, each m List.mem_cons_self, others, methodArgumentLists,
      shownCalls_append, methodHeadCount]
    omega

private theorem Stmt.callHeads_tokens {s : Stmt} (h : s.WellFormed) (rest : List Token) :
    callHeads false (s.tokens ++ rest) =
      callHeads false rest + (shownCalls s.argumentLists + s.headCount) := by
  induction s generalizing rest with
  | declaration p type name value =>
    have closed (ts : List Token) : ¬ Opens (.name name :: ts) := not_opens_of_identifier rfl
    have sign (ts : List Token) : ¬ Opens (.sign "=" :: ts) := not_opens_sign (by decide) ts
    simp only [Stmt.tokens, List.cons_append, List.append_assoc, List.nil_append]
    rw [callHeads_type _ (closed _), callHeads_name_closed name (sign _),
      callHeads_sign (spells_sign "=") (by decide), callHeads_line h.2.2.2]
    rfl
  | function head body ih => exact callHeads_routine (.inl rfl) h.2 ih rest
  | conditional p condition thenBody elseBody ihThen ihElse =>
    obtain ⟨condition', then', else'⟩ := h
    have other (rest : List Token) : callHeads false (elseTokens elseBody ++ rest) =
        callHeads false rest +
          (shownCalls (elseArgumentLists elseBody) + elseHeadCount elseBody) := by
      cases elseBody with
      | none => rfl
      | some body =>
        have inner := callHeads_block else' (ihElse body rfl) rest
        simp only [elseTokens, List.cons_append]
        rw [callHeads_reserved, callHeads_feed, inner]
        rfl
    simp only [Stmt.tokens, List.cons_append, List.append_assoc]
    rw [callHeads_reserved, callHeads_line condition', callHeads_block then' ihThen, other,
      callHeads_end, Stmt.argumentLists, shownCalls_append, shownCalls_append, Stmt.headCount]
    omega
  | classDecl p name face fields methods ih =>
    obtain ⟨-, -, -, methods'⟩ := h
    have inner := callHeads_methods (fun m found rest => by
      have known := methodsWellFormed_iff.mp methods' m found
      obtain ⟨head, body⟩ := m
      exact callHeads_routine (.inr rfl) known.2 (ih ⟨head, body⟩ found) rest) (endTokens ++ rest)
    have closed (ts : List Token) : ¬ Opens (implementsTokens face ++ .feed :: ts) := by
      cases face with
      | none => exact not_opens_feed ts
      | some face => simp [implementsTokens, Opens, Token.spells, Token.reserved, Token.plain]
    simp only [Stmt.tokens, ClassDecl.tokens, List.cons_append, List.append_assoc]
    rw [callHeads_reserved, callHeads_name_closed name (closed _),
      callHeads_implements face (not_opens_feed _), callHeads_feed, callHeads_fields, inner,
      callHeads_end]
    rfl
  | interfaceDecl decl =>
    simp only [Stmt.tokens, InterfaceDecl.tokens, List.cons_append, List.append_assoc]
    rw [callHeads_reserved, callHeads_name_closed decl.name (not_opens_feed _), callHeads_feed,
      callHeads_signatures, callHeads_end, Stmt.argumentLists, shownCalls, Stmt.headCount,
      Nat.zero_add]
  | assignment p target value =>
    have sign (ts : List Token) : ¬ Opens (.sign "=" :: ts) := not_opens_sign (by decide) ts
    simp only [Stmt.tokens, List.cons_append, List.append_assoc, List.nil_append]
    rw [Expr.callHeads_tokens h.1, joint_closed (sign _),
      callHeads_sign (spells_sign "=") (by decide), callHeads_line h.2, Stmt.argumentLists,
      shownCalls_append, Stmt.headCount]
    omega
  | expression p e =>
    simp only [Stmt.tokens, List.cons_append, List.append_assoc, List.nil_append]
    exact callHeads_line h rest

/-- The tokens of a program show its calls and heads, and one more call for each argument that
captures the next one. -/
theorem Program.callHeads_tokens {p : Program} (h : p.WellFormed) (rest : List Token) :
    callHeads false (p.tokens ++ rest) = callHeads false rest +
      (shownCalls p.argumentLists + p.headCount) :=
  callHeads_block h (fun _ _ known => Stmt.callHeads_tokens known) rest

end Statements

end ScriptLang
