import ScriptLang.Proofs.Grammar.Follow

/-!
What the rules derive, the readings of the grammar accept, with the same result and the same rest,
whenever what follows cannot continue the construct. The bound on the nesting is always large
enough because it is at least the number of tokens, and every bracket and every block takes one.
-/

set_option autoImplicit false
set_option relaxedAutoImplicit false

namespace ScriptLang

open Attempt

namespace Grammar

open Reading
open Operator (signsOf primaryPrecedence)

/-- Another argument is read unless the closing parenthesis stands in front. -/
def beforeParenthesis : Reading Bool := do
  return !(← sees ")")

section Nested

variable {nested : Reading Expr} {t : Token} {ts mid rest : List Token} {args : List Expr}

private theorem beforeParenthesis_leads (leads : Leads t) (regular : t.Regular) :
    beforeParenthesis (t :: ts) = (.ok true, t :: ts) := by
  have other : t.spells ")" = false := Bool.eq_false_iff.mpr (leads.not_spells regular)
  rw [beforeParenthesis, sees_bind, other]
  rfl

private theorem beforeParenthesis_closing (closing : t.spells ")") :
    beforeParenthesis (t :: ts) = (.ok false, t :: ts) := by
  rw [beforeParenthesis, sees_bind, closing]
  rfl

private theorem arguments_cons {q : Token} (regular : t.Regular) (opening : t.spells "(")
    (read : itemsWhile beforeParenthesis nested ts = (.ok args, q :: rest))
    (closing : q.spells ")") (final : q.Regular) :
    arguments nested (t :: ts) = (.ok args, rest) := by
  have read : itemsWhile (do return !(← sees ")")) nested ts = (.ok args, q :: rest) := read
  rw [arguments, expect_bind regular opening, bind_apply_ok read, expect_bind final closing]
  rfl

private theorem atom_integer (kind : t.kind = .integer) (regular : t.Regular) :
    atom nested (t :: ts) =
      (.ok (.integer t.position (Text.naturalValue t.text.toList)), ts) := by
  unfold Token.Regular at regular
  rw [kind] at regular
  obtain ⟨filled, digits, short, -⟩ := regular
  have value := Text.integerValue?_of_digits
    (fun empty => filled (String.toList_eq_nil_iff.mp empty)) digits short
  simp only [atom, current_bind, kind]
  rw [advance_bind (by simp [kind]), value]
  rfl

theorem atom_string (kind : t.kind = .string) (unmarked : ¬ Text.hasMarker t.text.toList) :
    atom nested (t :: ts) = (.ok (.string t.position t.text), ts) := by
  simp only [atom, current_bind, kind]
  rw [advance_bind (by simp [kind]), if_neg unmarked]
  rfl

theorem atom_template (kind : t.kind = .string) (marked : Text.hasMarker t.text.toList) :
    atom nested (t :: ts) = (.ok (.template t.position t.text), ts) := by
  simp only [atom, current_bind, kind]
  rw [advance_bind (by simp [kind]), if_pos marked]
  rfl

private theorem atom_identifier (kind : t.kind = .identifier) (stream : Stream ts)
    (closed : ¬ Opens ts) : atom nested (t :: ts) = (.ok (.identifier t.position t.text), ts) := by
  obtain ⟨u, more, rfl⟩ := stream.exists_cons
  have other : ¬ u.spells "(" := closed
  simp only [atom, current_bind, kind]
  rw [advance_bind (by simp [kind]), sees_bind, if_neg other]
  rfl

private theorem atom_functionCall (kind : t.kind = .identifier) (opening : Opens ts)
    (called : arguments nested ts = (.ok args, rest)) :
    atom nested (t :: ts) = (.ok (.functionCall t.position t.text args), rest) := by
  obtain ⟨u, more, rfl⟩ := exists_of_opens opening
  have opening : u.spells "(" := opening
  simp only [atom, current_bind, kind]
  rw [advance_bind (by simp [kind]), sees_bind, if_pos opening, bind_apply_ok called]
  rfl

private theorem atom_group {e : Expr} {q : Token} (regular : t.Regular) (opening : t.spells "(")
    (inner : nested ts = (.ok e, q :: rest)) (closing : q.spells ")") (final : q.Regular) :
    atom nested (t :: ts) = (.ok e, rest) := by
  have kind := regular.kind_of_spells_operator (by decide) opening
  simp only [atom, current_bind, kind]
  rw [sees_bind, if_pos opening, advance_bind (by simp [kind]), bind_apply_ok inner,
    expect_bind final closing]
  rfl

variable {name : Token} {receiver : Expr}

private theorem access_field (regular : t.Regular) (dot : t.spells ".")
    (kind : name.kind = .identifier) (stream : Stream ts) (closed : ¬ Opens ts) :
    access nested receiver (t :: name :: ts) =
      (.ok (some (.fieldAccess receiver.position receiver name.text)), ts) := by
  obtain ⟨u, more, rfl⟩ := stream.exists_cons
  have other : ¬ u.spells "(" := closed
  rw [access, sees_bind, if_pos dot, advance_bind (regular.more_of_spells dot),
    expectIdentifier_bind kind, sees_bind, if_neg other]
  rfl

private theorem access_method (regular : t.Regular) (dot : t.spells ".")
    (kind : name.kind = .identifier) (method : name.text ≠ "new") (opening : Opens ts)
    (called : arguments nested ts = (.ok args, rest)) :
    access nested receiver (t :: name :: ts) =
      (.ok (some (.methodCall receiver.position receiver name.text args)), rest) := by
  obtain ⟨u, more, rfl⟩ := exists_of_opens opening
  have opening : u.spells "(" := opening
  rw [access, sees_bind, if_pos dot, advance_bind (regular.more_of_spells dot),
    expectIdentifier_bind kind, sees_bind, if_pos opening, bind_apply_ok called, if_neg method]
  rfl

private theorem access_creation {position : Position} {className : String} (regular : t.Regular)
    (dot : t.spells ".") (kind : name.kind = .identifier) (new : name.text = "new")
    (opening : Opens ts) (called : arguments nested ts = (.ok args, rest)) :
    access nested (.identifier position className) (t :: name :: ts) =
      (.ok (some (.creation position className args)), rest) := by
  obtain ⟨u, more, rfl⟩ := exists_of_opens opening
  have opening : u.spells "(" := opening
  rw [access, sees_bind, if_pos dot, advance_bind (regular.more_of_spells dot),
    expectIdentifier_bind kind, sees_bind, if_pos opening, bind_apply_ok called, if_pos new]
  rfl

private theorem access_none (stream : Stream ts) (follow : Closes primaryPrecedence ts) :
    access nested receiver ts = (.ok none, ts) := by
  obtain ⟨u, more, rfl⟩ := stream.exists_cons
  rw [access, sees_bind, if_neg follow.1]
  rfl

private theorem operand_some {n : Nat} {reading : Reading Expr} {operator : Operator}
    {left right : Expr} (regular : t.Regular) (positive : 0 < n)
    (precedence : operator.precedence = n) (spelled : t.spells operator.sign)
    (inner : reading ts = (.ok right, rest)) :
    operand (signsOf n) reading left (t :: ts) =
      (.ok (some (.binary left.position operator left right)), rest) := by
  have known : operator.precedence ≠ 0 := by omega
  have joins := any_spells_iff.mpr ⟨operator, precedence, spelled, positive.ne'⟩
  have more := regular.more_of_operator spelled known
  rw [operand, current_bind, if_pos joins, advance_bind more, bind_apply_ok inner,
    (Token.spells_iff.mp spelled).1, Operator.ofSign_sign known]
  rfl

private theorem operand_none {n : Nat} {reading : Reading Expr} {left : Expr} (stream : Stream ts)
    (follow : Closes n ts) : operand (signsOf n) reading left ts = (.ok none, ts) := by
  obtain ⟨u, more, rfl⟩ := stream.exists_cons
  have apart : ¬ (signsOf n).any u.spells := by
    intro joins
    obtain ⟨operator, precedence, spelled, -⟩ := any_spells_iff.mp joins
    exact follow.2 operator precedence.ge spelled
  rw [operand, current_bind, if_neg apart]
  rfl

end Nested

/-- That the reading of a phrase, with expressions nested at most `k` deep, takes it from the front
of `ts` and stops at `rest`. -/
def Accepts (k : Nat) : Phrase → List Token → List Token → Prop
  | .atom e, ts, rest => ts.length ≤ k → atom (expressionWithin k) ts = (.ok e, rest)
  | .accesses a e, ts, rest => ts.length ≤ k → Closes primaryPrecedence rest →
      ∀ n, ts.length < n → extendWithin (access (expressionWithin k)) n a ts = (.ok e, rest)
  | .operands m a e, ts, rest => ts.length ≤ k → Closes m rest → ∀ n, ts.length < n →
      extendWithin (operand (signsOf m) (level (expressionWithin k) (m + 1))) n a ts =
        (.ok e, rest)
  | .expression m e, ts, rest => ts.length ≤ k → Closes m rest →
      level (expressionWithin k) m ts = (.ok e, rest)
  | .items args, ts, rest => ts.length < k → (∃ q more, rest = q :: more ∧ q.spells ")") →
      ∀ n, ts.length < n →
        itemsWithin beforeParenthesis (expressionWithin k) n ts = (.ok args, rest)
  | .arguments args, ts, rest => ts.length ≤ k →
      arguments (expressionWithin k) ts = (.ok args, rest)

private theorem exists_succ {n k : Nat} (h : n < k) : ∃ m, k = m + 1 ∧ n ≤ m :=
  ⟨k - 1, by omega, by omega⟩

private theorem Derives.accepts {phrase : Phrase} {ts rest : List Token}
    (h : Derives phrase ts rest) (stream : Stream ts) (k : Nat) : Accepts k phrase ts rest := by
  -- An expression that is nested deeper stands behind a further token, so `k` is not used up.
  induction h generalizing k with
  | integer kind => exact fun _ => atom_integer kind stream.regular
  | string kind unmarked => exact fun _ => atom_string kind unmarked
  | template kind marked => exact fun _ => atom_template kind marked
  | identifier kind closed =>
    exact fun _ => atom_identifier kind (stream.tail (by simp [kind])) closed
  | functionCall kind called ih =>
    intro bound
    rw [List.length_cons] at bound
    have read := ih (stream.tail (by simp [kind])) k (by omega)
    exact atom_functionCall kind called.opens read
  | group opening inner closing ih =>
    intro bound
    obtain ⟨k, rfl, room⟩ := exists_succ bound
    have after := stream.tail (stream.regular.more_of_spells opening)
    have read := ih after k room (closes_of_spells closing Nat.one_pos (by decide))
    exact atom_group stream.regular opening read closing (inner.stream after).regular
  | noAccess =>
    intro bound follow n enough
    obtain ⟨n, rfl, -⟩ := exists_succ enough
    exact extendWithin_none (access_none stream follow)
  | fieldAccess dot kind closed _ ih =>
    intro bound follow n enough
    obtain ⟨n, rfl, left⟩ := exists_succ enough
    simp only [List.length_cons] at bound left
    have after := (stream.tail (stream.regular.more_of_spells dot)).tail (by simp [kind])
    exact extendWithin_some (access_field stream.regular dot kind after closed)
      (ih after k (by omega) follow n (by omega))
  | methodCall dot kind method called others ihArgs ih =>
    intro bound follow n enough
    obtain ⟨n, rfl, left⟩ := exists_succ enough
    have shorter := called.length_add_least_le
    simp only [List.length_cons, Phrase.least] at bound left shorter
    have after := (stream.tail (stream.regular.more_of_spells dot)).tail (by simp [kind])
    have read := ihArgs after k (by omega)
    exact extendWithin_some (access_method stream.regular dot kind method called.opens read)
      (ih (called.stream after) k (by omega) follow n (by omega))
  | creation dot kind new called others ihArgs ih =>
    intro bound follow n enough
    obtain ⟨n, rfl, left⟩ := exists_succ enough
    have shorter := called.length_add_least_le
    simp only [List.length_cons, Phrase.least] at bound left shorter
    have after := (stream.tail (stream.regular.more_of_spells dot)).tail (by simp [kind])
    have read := ihArgs after k (by omega)
    exact extendWithin_some (access_creation stream.regular dot kind new called.opens read)
      (ih (called.stream after) k (by omega) follow n (by omega))
  | noOperand =>
    intro bound follow n enough
    obtain ⟨n, rfl, -⟩ := exists_succ enough
    exact extendWithin_none (operand_none stream follow)
  | operand positive precedence spelled right others ihRight ih =>
    intro bound follow n enough
    obtain ⟨n, rfl, left⟩ := exists_succ enough
    have shorter := right.length_add_least_le
    simp only [List.length_cons, Phrase.least] at bound left shorter
    have more := stream.regular.more_of_operator spelled (by omega)
    have after := stream.tail more
    have read := ihRight after k (by omega) (others.closes_of_operands follow)
    exact extendWithin_some (operand_some stream.regular positive precedence spelled read)
      (ih (right.stream after) k (by omega) follow n (by omega))
  | primary first others ihFirst ih =>
    intro bound follow
    have shorter := first.length_add_least_le
    simp only [Phrase.least] at shorter
    rw [level_primary, bind_apply_ok (ihFirst stream k bound)]
    exact ih (first.stream stream) k (by omega) follow _ (Nat.lt_succ_self _)
  | operation positive below first others ihFirst ih =>
    intro bound follow
    have shorter := first.length_add_least_le
    simp only [Phrase.least] at shorter
    have read := ihFirst stream k bound (others.closes_of_operands follow)
    rw [level_operation _ positive below, bind_apply_ok read]
    exact ih (first.stream stream) k (by omega) follow _ (Nat.lt_succ_self _)
  | noItem =>
    rintro bound ⟨q, more, rfl, closing⟩ n enough
    obtain ⟨n, rfl, -⟩ := exists_succ enough
    exact itemsWithin_none (beforeParenthesis_closing closing)
  | item first others ihFirst ih =>
    rintro bound ⟨q, more, rfl, closing⟩ n enough
    have shorter := first.length_add_least_le
    simp only [Phrase.least] at shorter
    obtain ⟨k, rfl, room⟩ := exists_succ bound
    obtain ⟨n, rfl, left⟩ := exists_succ enough
    have after := first.stream stream
    have read := ihFirst stream k room (others.closes_of_items closing after)
    obtain ⟨t, tail, rfl, leads⟩ := first.leads rfl
    exact itemsWithin_more (beforeParenthesis_leads leads stream.regular) read
      (ih after (k + 1) (by omega) ⟨q, more, rfl, closing⟩ n (by omega))
  | arguments opening items closing ih =>
    intro bound
    have after := stream.tail (stream.regular.more_of_spells opening)
    have read := ih after k bound ⟨_, _, rfl, closing⟩ _ (Nat.lt_succ_self _)
    exact arguments_cons stream.regular opening read closing (items.stream after).regular

private theorem Derives.expression_eq {e : Expr} {ts rest : List Token}
    (h : Derives (.expression 1 e) ts rest) (stream : Stream ts) (follow : Closes 1 rest) :
    Grammar.expression ts = (.ok e, rest) :=
  h.accepts stream ts.length le_rfl follow

section Lines

variable {mode : Terminators} {t : Token} {ts rest : List Token}

private theorem terminator_of_lineEnd (h : LineEnd mode ts rest) :
    terminator mode ts = (.ok (), rest) := by
  cases h with
  | newline kind =>
    simp only [terminator, current_bind, kind]
    exact discard_apply_ok (advance_cons (by simp [kind]))
  | endOfInput kind =>
    simp only [terminator, current_bind, kind]
    rfl
  | @missing u _ lenient noBreak notEnd =>
    subst lenient
    simp only [terminator, current_bind]
    cases kind : u.kind with
    | newline => exact absurd kind noBreak
    | endOfInput => exact absurd kind notEnd
    | _ => rfl

private theorem closing_cons (regular : t.Regular) (spelled : t.spells "end")
    (ended : LineEnd mode ts rest) : closing mode (t :: ts) = (.ok (), rest) := by
  rw [closing, expect_bind regular spelled, terminator_of_lineEnd ended]

private theorem typeRef_cons {type : Ty} (found : typeOf? t = some type) :
    typeRef (t :: ts) = (.ok ⟨t.position, type⟩, ts) := by
  simp only [typeRef, current_bind, found]
  rw [advance_bind (more_of_typeOf? found)]
  rfl

private theorem param_cons {name colon : Token} {type : Ty} (kind : name.kind = .identifier)
    (regular : colon.Regular) (spelled : colon.spells ":") (found : typeOf? t = some type) :
    param (name :: colon :: t :: ts) =
      (.ok ⟨name.position, name.text, ⟨t.position, type⟩⟩, ts) := by
  rw [param, here_bind, expectIdentifier_bind kind, sees_bind, if_pos spelled,
    advance_bind (regular.more_of_spells spelled), bind_apply_ok (typeRef_cons found)]
  rfl

private theorem not_isStray_of_identifier (kind : t.kind = .identifier) : ¬ isStray t := by
  simp [isStray, kind]

private theorem not_isStray_of_spells (closing : t.spells ")") : ¬ isStray t := by
  simp [isStray, closing]

private theorem paramsWithin_of_parameters {ps : List Param} (h : Parameters ps ts rest)
    (stream : Stream ts) (filled : ps ≠ []) (n : Nat) (enough : ts.length < n) :
    ∃ q, q.spells ")" ∧ paramsWithin n ts = (.ok ps, q :: rest) ∧ Stream (q :: rest) := by
  induction h generalizing n with
  | none => contradiction
  | @param name colon t type ts mid rest ps kind spelled found strays others ih =>
    obtain ⟨n, rfl⟩ : ∃ m, n = m + 1 := ⟨n - 1, by omega⟩
    have after : Leaves 3 (name :: colon :: t :: ts) mid :=
      (leaves_name kind).trans ((leaves_sign spelled).trans
        ((leaves_type found).trans (strays.leaves fun _ => more_of_isStray)))
    obtain ⟨streamMid, shorter⟩ := after stream
    have colonRegular := (stream.tail (by simp [kind])).regular
    have room : mid.length < n := by omega
    rw [paramsWithin, bind_apply_ok (param_cons kind colonRegular spelled found)]
    cases others with
    | none closing =>
      rw [bind_apply_ok (skipWhile_of_run strays (not_isStray_of_spells closing)), sees_bind,
        if_pos closing]
      exact ⟨_, closing, rfl, streamMid⟩
    | @param next _ _ _ _ _ _ _ nextKind =>
      have other : ¬ next.spells ")" := by simp [Token.spells, nextKind]
      obtain ⟨q, closing, read, final⟩ := ih streamMid (by simp) n room
      rw [bind_apply_ok (skipWhile_of_run strays (not_isStray_of_identifier nextKind)), sees_bind,
        if_neg other, bind_apply_ok read]
      exact ⟨q, closing, rfl, final⟩

private theorem params_cons {ps : List Param} (regular : t.Regular) (opening : t.spells "(")
    (h : Parameters ps ts rest) (stream : Stream ts) : params (t :: ts) = (.ok ps, rest) := by
  rw [params, expect_bind regular opening]
  cases h with
  | @none q _ closing =>
    rw [sees_bind, if_pos closing, advance_bind (stream.regular.more_of_spells closing)]
    rfl
  | @param name _ _ _ _ _ _ _ kind spelled found strays others =>
    have other : ¬ name.spells ")" := by simp [Token.spells, kind]
    obtain ⟨q, closing, read, final⟩ := paramsWithin_of_parameters
      (.param kind spelled found strays others) stream (by simp) _ (Nat.lt_succ_self _)
    have read : bounded paramsWithin _ = (.ok _, q :: rest) := read
    rw [sees_bind, if_neg other, bind_apply_ok read, expect_bind final.regular closing]
    rfl

private theorem returnType_cons {separator : Token} {type : Ty} (kind : separator.kind = .operator)
    (text : separator.text = "->" ∨ separator.text = ":") (found : typeOf? t = some type) :
    returnType (separator :: t :: ts) = (.ok ⟨t.position, type⟩, ts) := by
  have separates : separator.kind = .operator && (separator.text = "->" || separator.text = ":") :=
    by simpa [kind] using text
  rw [returnType, current_bind, if_pos separates, advance_bind (by simp [kind]),
    typeRef_cons found]

private theorem signature_of_heads {s : Signature} (h : Heads mode s ts rest) (stream : Stream ts)
    (what : String) : signature mode what ts = (.ok s, rest) := by
  cases h with
  | head spelled kind opening params operator text found ended =>
    have streamName := stream.tail (stream.regular.more_of_spells spelled)
    have streamOpening := streamName.tail (by simp [kind])
    have streamParams := streamOpening.tail (streamOpening.regular.more_of_spells opening)
    have read := params_cons streamOpening.regular opening params streamParams
    rw [signature, here_bind, expect_bind stream.regular spelled, expectIdentifier_bind kind,
      bind_apply_ok read, bind_apply_ok (returnType_cons operator text found),
      bind_apply_ok (terminator_of_lineEnd ended)]
    rfl

private theorem field_of_fields {f : Field} (h : Fields mode f ts rest) :
    field mode ts = (.ok f, rest) := by
  cases h with
  | field found kind ended =>
    rw [field, here_bind, bind_apply_ok (typeRef_cons found), expectIdentifier_bind kind,
      bind_apply_ok (terminator_of_lineEnd ended)]
    rfl

end Lines

/-- That items, with newlines around them, are read from the front of `ts` up to `rest`. -/
def Separated {α : Type} (test : Reading Bool) (item : Reading α) (xs : List α)
    (ts rest : List Token) : Prop :=
  ∃ a, skipNewlines ts = (.ok (), a) ∧ a.length ≤ ts.length ∧
    ∀ n, a.length < n → itemsWithin test item n a = (.ok xs, rest)

section Separated

variable {α : Type} {test : Reading Bool} {item : Reading α} {x : α} {xs : List α}
  {t : Token} {ts a b rest : List Token}

private theorem Separated.read (h : Separated test item xs ts rest) :
    (skipNewlines >>= fun _ => itemsWhile test item) ts = (.ok xs, rest) := by
  obtain ⟨a, skip, -, items⟩ := h
  rw [bind_apply_ok skip]
  exact items _ (Nat.lt_succ_self _)

private theorem separated_none (blank : Newlines ts (t :: rest)) (stream : Stream ts)
    (stop : t.kind ≠ .newline) (final : test (t :: rest) = (.ok false, t :: rest)) :
    Separated test item [] ts (t :: rest) := by
  have shorter := (Newlines.leaves blank stream).2
  refine ⟨t :: rest, skipNewlines_of_run blank stop, shorter, fun n enough => ?_⟩
  obtain ⟨n, rfl, -⟩ := exists_succ enough
  exact itemsWithin_none final

private theorem separated_more {reading : Reading α} (blank : Newlines ts (t :: a))
    (stream : Stream ts) (stop : t.kind ≠ .newline) (more : test (t :: a) = (.ok true, t :: a))
    (first : reading (t :: a) = (.ok x, b)) (shorter : b.length < (t :: a).length)
    (others : Separated test (do let x ← reading; skipNewlines; return x) xs b rest) :
    Separated test (do let x ← reading; skipNewlines; return x) (x :: xs) ts rest := by
  obtain ⟨c, skip, le, items⟩ := others
  have length := (Newlines.leaves blank stream).2
  refine ⟨t :: a, skipNewlines_of_run blank stop, length, fun n enough => ?_⟩
  obtain ⟨n, rfl, left⟩ := exists_succ enough
  have read : (do let x ← reading; skipNewlines; return x) (t :: a) = (.ok x, c) := by
    rw [bind_apply_ok first, bind_apply_ok skip]
    rfl
  exact itemsWithin_more more read (items n (by omega))

end Separated

/-- That a reading of nested statements goes deep enough on lists of less than `n` tokens. -/
def Covers (mode : Terminators) (nested : Reading Stmt) (n : Nat) : Prop :=
  ∀ ts : List Token, ts.length < n → ∃ k, ts.length ≤ k ∧
    nested ts = statementWith mode (statementWithin mode k) ts

private theorem Covers.mono {mode : Terminators} {nested : Reading Stmt} {m n : Nat}
    (h : Covers mode nested n) (le : m ≤ n) : Covers mode nested m :=
  fun ts less => h ts (less.trans_le le)

theorem covers_statementWithin (mode : Terminators) (k : Nat) :
    Covers mode (statementWithin mode k) k := by
  intro ts less
  obtain ⟨m, rfl, le⟩ := exists_succ less
  exact ⟨m, le, rfl⟩

private theorem covers_statement (mode : Terminators) (n : Nat) : Covers mode (statement mode) n :=
  fun ts _ => ⟨ts.length, le_rfl, rfl⟩

def Stops (stops : List String) (ts : List Token) : Prop :=
  (∀ word ∈ stops, word = "end" ∨ word = "else") ∧
    ∃ q more, ts = q :: more ∧ (q.kind = .endOfInput ∨ ∃ word ∈ stops, q.spells word)

private theorem Stops.ends {stops : List String} {ts : List Token} (h : Stops stops ts) :
    ∃ q more, ts = q :: more ∧ Ends q := by
  rcases h with ⟨known, q, more, rfl, atEnd | ⟨word, stop, spelled⟩⟩
  · exact ⟨q, more, rfl, .inl atEnd⟩
  · rcases known word stop with rfl | rfl
    · exact ⟨q, more, rfl, .inr (.inl spelled)⟩
    · exact ⟨q, more, rfl, .inr (.inr spelled)⟩

private theorem Stops.seesNone {stops : List String} {ts : List Token} (h : Stops stops ts) :
    seesNone stops ts = (.ok false, ts) := by
  obtain ⟨known, q, more, rfl, final⟩ := h
  have stop : (decide (q.kind ≠ .endOfInput) && !stops.any q.spells) = false := by
    rcases final with atEnd | ⟨word, known, spelled⟩
    · simp [atEnd]
    · have stopped : stops.any q.spells := List.any_eq_true.mpr ⟨word, known, spelled⟩
      simp [stopped]
  rw [Grammar.seesNone, current_bind, stop]
  rfl

private theorem Ends.ne_newline {t : Token} (h : Ends t) (regular : t.Regular) :
    t.kind ≠ .newline := by
  rcases h.kind regular with kind | kind | kind <;> simp [kind]

theorem Starts.seesNone {t : Token} {ts : List Token} (h : Starts t) (regular : t.Regular)
    {stops : List String} (known : ∀ word ∈ stops, word = "end" ∨ word = "else") :
    seesNone stops (t :: ts) = (.ok true, t :: ts) := by
  obtain ⟨-, notEnd, -, opening⟩ := h.kind regular
  have free : stops.any t.spells = false := by
    rw [List.any_eq_false]
    intro word stop spelled
    rcases known word stop with rfl | rfl
    · have kind := regular.kind_of_spells_word (by decide) spelled
      exact absurd (opening _ kind) (by decide)
    · have kind := regular.kind_of_spells_word (by decide) spelled
      exact absurd (opening _ kind) (by decide)
  rw [Grammar.seesNone, current_bind, free]
  simp [notEnd]

/-- Whether a statement ends with an expression, which might go on behind it. -/
def endsInExpression : Stmt → Bool
  | .declaration _ _ _ _ | .assignment _ _ _ | .expression _ _ => true
  | _ => false

/-- That the reading of a construct takes it from the front of `ts` and stops at `rest`. -/
def Admits (mode : Terminators) : Construct → List Token → List Token → Prop
  | .statement s, ts, rest =>
    (endsInExpression s → Bounds rest) → ∀ nested, Covers mode nested ts.length →
      statementWith mode nested ts = (.ok s, rest)
  | .routine r, ts, rest => ∀ nested, Covers mode nested ts.length → ∀ what,
      routine mode nested what ts = (.ok r, rest)
  | .block body, ts, rest => ∀ nested, Covers mode nested (ts.length + 1) → ∀ stops,
      Stops stops rest → Separated (seesNone stops)
        (do let s ← nested; skipNewlines; return s) body ts rest
  | .members fields methods, ts, rest => ∀ nested, Covers mode nested ts.length →
      Stops ["end"] rest → ∃ ms, ms.filterMap Member.field? = fields ∧
        ms.filterMap Member.method? = methods ∧
        Separated (seesNone ["end"]) (member mode nested) ms ts rest

private theorem expression_of_bounds {e : Expr} {ts mid : List Token}
    (derived : Derives (.expression 1 e) ts mid) (follow : Bounds mid) (stream : Stream ts) :
    Grammar.expression ts = (.ok e, mid) ∧ Separates mid ∧ Stream mid := by
  have after := derived.stream stream
  have separates := follow.separates after
  exact ⟨derived.expression_eq stream (separates.closes after Nat.one_pos), separates, after⟩

theorem variableDeclaration_cons {mode : Terminators} {t name q : Token} {type : Ty}
    {ts mid rest : List Token} {value : Expr} (found : typeOf? t = some type)
    (kind : name.kind = .identifier) (spelled : q.spells "=") (stream : Stream (q :: ts))
    (derived : Derives (.expression 1 value) ts mid) (ended : LineEnd mode mid rest)
    (follow : Bounds mid) :
    variableDeclaration mode (t :: name :: q :: ts) =
      (.ok (.declaration t.position ⟨t.position, type⟩ name.text value), rest) := by
  have streamValue := stream.tail (stream.regular.more_of_spells spelled)
  obtain ⟨read, -, -⟩ := expression_of_bounds derived follow streamValue
  rw [variableDeclaration, here_bind, bind_apply_ok (typeRef_cons found),
    expectIdentifier_bind kind, expect_bind stream.regular spelled, bind_apply_ok read,
    bind_apply_ok (terminator_of_lineEnd ended)]
  rfl

theorem assignment_cons {mode : Terminators} {t q : Token} {ts mid a rest : List Token}
    {target value : Expr} (first : Derives (.expression 1 target) (t :: ts) (q :: mid))
    (spelled : q.spells "=") (second : Derives (.expression 1 value) mid a)
    (ended : LineEnd mode a rest) (follow : Bounds a) (stream : Stream (t :: ts)) :
    expressionStatement mode (t :: ts) = (.ok (.assignment t.position target value), rest) := by
  have after := first.stream stream
  have more := after.regular.more_of_spells spelled
  have readTarget := first.expression_eq stream (closes_of_spells spelled Nat.one_pos (by decide))
  obtain ⟨readValue, -, -⟩ := expression_of_bounds second follow (after.tail more)
  rw [expressionStatement, here_bind, bind_apply_ok readTarget, sees_bind, if_pos spelled,
    advance_bind more, bind_apply_ok readValue, bind_apply_ok (terminator_of_lineEnd ended)]
  rfl

theorem expressionStatement_cons {mode : Terminators} {t : Token} {ts mid rest : List Token}
    {e : Expr} (derived : Derives (.expression 1 e) (t :: ts) mid) (ended : LineEnd mode mid rest)
    (follow : Bounds mid) (stream : Stream (t :: ts)) :
    expressionStatement mode (t :: ts) = (.ok (.expression t.position e), rest) := by
  obtain ⟨read, separates, after⟩ := expression_of_bounds derived follow stream
  obtain ⟨u, more, rfl⟩ := after.exists_cons
  have other : ¬ u.spells "=" := by
    intro spelled
    have operator := after.regular.kind_of_spells_operator (by decide) spelled
    exact absurd (Token.eq_of_spells spelled (separates operator)) (by decide)
  rw [expressionStatement, here_bind, bind_apply_ok read, sees_bind, if_neg other,
    bind_apply_ok (terminator_of_lineEnd ended)]
  rfl

section Statements

variable {mode : Terminators} {nested : Reading Stmt} {t : Token} {ts rest : List Token}

private theorem statementWith_unreserved (leads : Leads t) (regular : t.Regular) :
    statementWith mode nested (t :: ts) = (seesClassVariable >>= fun declares =>
      if declares then variableDeclaration mode else expressionStatement mode) (t :: ts) := by
  unfold statementWith
  rw [current_bind]
  rcases leads with kind | kind | kind | opening
  · simp only [kind]
  · simp only [kind]
  · simp only [kind]
  · have kind := regular.kind_of_spells_operator (by decide) opening
    simp only [kind]

theorem statementWith_expression (leads : Leads t) (stream : Stream (t :: ts))
    (free : ¬ DeclaresObject (t :: ts)) :
    statementWith mode nested (t :: ts) = expressionStatement mode (t :: ts) := by
  obtain ⟨declares, look, meaning⟩ := seesClassVariable_cons stream
  have other : ¬ declares := fun found => free (meaning.mp found)
  rw [statementWith_unreserved leads stream.regular, bind_apply_ok look, if_neg other]

theorem statementWith_declaration {type : Ty} {name : Token} (found : typeOf? t = some type)
    (capital : t.kind = .identifier → isCapitalized t) (kind : name.kind = .identifier)
    (stream : Stream (t :: name :: ts)) :
    statementWith mode nested (t :: name :: ts) = variableDeclaration mode (t :: name :: ts) := by
  rcases cases_of_typeOf? found with ⟨identifier, -⟩ | ⟨word, -⟩ | ⟨word, -⟩ | ⟨word, -⟩
  · obtain ⟨declares, look, meaning⟩ := seesClassVariable_cons stream
    have object : declares := meaning.mpr ⟨identifier, capital identifier, kind⟩
    rw [statementWith_unreserved (.inr (.inr (.inl identifier))) stream.regular,
      bind_apply_ok look, if_pos object]
  · simp only [statementWith, current_bind, word]
  · simp only [statementWith, current_bind, word]
  · simp only [statementWith, current_bind, word]

private theorem routine_of_parts {head : Signature} {body : List Stmt} {a b : List Token}
    {e : Token} (headed : Heads mode head ts a) (built : Builds mode (.block body) a (e :: b))
    (admitted : Admits mode (.block body) a (e :: b)) (closed : e.spells "end")
    (ended : LineEnd mode b rest) (stream : Stream ts) (covers : Covers mode nested ts.length)
    (what : String) : routine mode nested what ts = (.ok ⟨head, body⟩, rest) := by
  obtain ⟨after, shorter⟩ := headed.leaves stream
  have stops : Stops ["end"] (e :: b) := ⟨by simp, e, b, rfl, .inr ⟨"end", by simp, closed⟩⟩
  have read := (admitted nested (covers.mono (by omega)) ["end"] stops).read
  have final := (built.leaves after).1
  have read : block nested ["end"] a = (.ok body, e :: b) := read
  rw [routine, bind_apply_ok (signature_of_heads headed stream what), bind_apply_ok read,
    bind_apply_ok (closing_cons final.regular closed ended)]
  rfl

private theorem block_of_admits {body : List Stmt} {e : Token}
    (admitted : Admits mode (.block body) ts (e :: rest)) (stops : List String)
    (stop : ∃ word ∈ stops, e.spells word)
    (known : ∀ word ∈ stops, word = "end" ∨ word = "else")
    (covers : Covers mode nested (ts.length + 1)) :
    block nested stops ts = (.ok body, e :: rest) :=
  (admitted nested covers stops ⟨known, e, rest, rfl, .inr stop⟩).read

private theorem conditional_of_parts {i e : Token} {a b c : List Token} {condition : Expr}
    {thenBody : List Stmt} (spelled : i.spells "if")
    (derived : Derives (.expression 1 condition) ts a) (ended : LineEnd mode a b)
    (built : Builds mode (.block thenBody) b (e :: c))
    (admitted : Admits mode (.block thenBody) b (e :: c)) (closed : e.spells "end")
    (closeEnded : LineEnd mode c rest) (stream : Stream (i :: ts))
    (covers : Covers mode nested (i :: ts).length) :
    conditional mode nested (i :: ts) =
      (.ok (.conditional i.position condition thenBody none), rest) := by
  have streamCondition := stream.tail (stream.regular.more_of_spells spelled)
  obtain ⟨streamBody, shorter⟩ := (derived.leaves.trans ended.leaves) streamCondition
  obtain ⟨read, -, -⟩ := expression_of_bounds derived
    (ended.bounds (built.bounds_block (.inr (.inl closed)) streamBody)) streamCondition
  simp only [Phrase.least, List.length_cons] at shorter covers
  have body := block_of_admits admitted ["else", "end"] ⟨"end", by simp, closed⟩ (by simp)
    (covers.mono (by omega))
  have final := (built.leaves streamBody).1.regular
  have other : ¬ e.spells "else" :=
    fun spelled => absurd (Token.eq_of_spells closed spelled) (by decide)
  rw [conditional, here_bind, expect_bind stream.regular spelled, bind_apply_ok read,
    bind_apply_ok (terminator_of_lineEnd ended), bind_apply_ok body, sees_bind, if_neg other,
    pure_bind]
  exact bind_apply_ok (closing_cons final closed closeEnded)

private theorem alternative_of_parts {i l e : Token} {a b c d f : List Token} {condition : Expr}
    {thenBody elseBody : List Stmt} (spelled : i.spells "if")
    (derived : Derives (.expression 1 condition) ts a) (ended : LineEnd mode a b)
    (built : Builds mode (.block thenBody) b (l :: c))
    (admitted : Admits mode (.block thenBody) b (l :: c)) (other : l.spells "else")
    (otherEnded : LineEnd mode c d) (otherBuilt : Builds mode (.block elseBody) d (e :: f))
    (otherAdmitted : Admits mode (.block elseBody) d (e :: f)) (closed : e.spells "end")
    (closeEnded : LineEnd mode f rest) (stream : Stream (i :: ts))
    (covers : Covers mode nested (i :: ts).length) :
    conditional mode nested (i :: ts) =
      (.ok (.conditional i.position condition thenBody (some elseBody)), rest) := by
  have streamCondition := stream.tail (stream.regular.more_of_spells spelled)
  obtain ⟨streamThen, shorter⟩ := (derived.leaves.trans ended.leaves) streamCondition
  obtain ⟨read, -, -⟩ := expression_of_bounds derived
    (ended.bounds (built.bounds_block (.inr (.inr other)) streamThen)) streamCondition
  have streamOther := (built.leaves streamThen).1
  obtain ⟨streamElse, elseShorter⟩ :=
    (built.leaves.trans ((leaves_sign other).trans otherEnded.leaves)) streamThen
  have final := (otherBuilt.leaves streamElse).1.regular
  simp only [Phrase.least, Construct.least, List.length_cons] at shorter elseShorter covers
  have thenRead := block_of_admits admitted ["else", "end"] ⟨"else", by simp, other⟩ (by simp)
    (covers.mono (by omega))
  have elseRead := block_of_admits otherAdmitted ["end"] ⟨"end", by simp, closed⟩ (by simp)
    (covers.mono (by omega))
  rw [conditional, here_bind, expect_bind stream.regular spelled, bind_apply_ok read,
    bind_apply_ok (terminator_of_lineEnd ended), bind_apply_ok thenRead, sees_bind, if_pos other,
    advance_bind (streamOther.regular.more_of_spells other),
    bind_apply_ok (terminator_of_lineEnd otherEnded), bind_apply_ok (map_apply_ok elseRead)]
  exact bind_apply_ok (closing_cons final closed closeEnded)

private theorem classDeclaration_of_parts {c name e : Token} {a b d : List Token}
    {face : Option String} {fields : List Field} {methods : List Routine}
    (spelled : c.spells "class") (kind : name.kind = .identifier)
    (implements : Implements face ts a) (ended : LineEnd mode a b)
    (built : Builds mode (.members fields methods) b (e :: d))
    (admitted : Admits mode (.members fields methods) b (e :: d)) (closed : e.spells "end")
    (closeEnded : LineEnd mode d rest) (stream : Stream (c :: name :: ts))
    (covers : Covers mode nested (c :: name :: ts).length) :
    classDeclaration mode nested (c :: name :: ts) =
      (.ok ⟨c.position, name.text, face, fields, methods⟩, rest) := by
  have streamName := stream.tail (stream.regular.more_of_spells spelled)
  have streamFace := streamName.tail (by simp [kind])
  obtain ⟨streamEnd, shorter⟩ := implements.leaves streamFace
  obtain ⟨streamMembers, le⟩ := ended.leaves streamEnd
  have final := (built.leaves streamMembers).1.regular
  simp only [List.length_cons] at covers
  obtain ⟨ms, rfl, rfl, separated⟩ := admitted nested (covers.mono (by omega))
    ⟨by simp, e, d, rfl, .inr ⟨"end", by simp, closed⟩⟩
  -- What comes after the name and the interface is read in the same way with and without one.
  have tail : (do
      terminator mode
      skipNewlines
      let members ← itemsWhile (seesNone ["end"]) (member mode nested)
      closing mode
      return (⟨c.position, name.text, face, members.filterMap Member.field?,
        members.filterMap Member.method?⟩ : ClassDecl)) a =
        (.ok ⟨c.position, name.text, face, ms.filterMap Member.field?,
          ms.filterMap Member.method?⟩, rest) := by
    obtain ⟨x, skip, -, items⟩ := separated
    have read : itemsWhile (seesNone ["end"]) (member mode nested) x = (.ok ms, e :: d) :=
      items _ (Nat.lt_succ_self _)
    rw [bind_apply_ok (terminator_of_lineEnd ended), bind_apply_ok skip, bind_apply_ok read,
      bind_apply_ok (closing_cons final closed closeEnded)]
    rfl
  rw [classDeclaration, here_bind, expect_bind stream.regular spelled, expectIdentifier_bind kind]
  cases implements with
  | none =>
    obtain ⟨t, more, rfl⟩ := streamEnd.exists_cons
    have bounds := ended.bounds (built.bounds_members (.inr (.inl closed)) streamMembers)
    rw [sees_bind, if_neg (bounds.not_implements streamEnd.regular), pure_bind]
    exact tail
  | some implements faceKind =>
    rw [sees_bind, if_pos implements,
      advance_bind (streamFace.regular.more_of_spells implements)]
    exact (bind_apply_ok (map_apply_ok (map_apply_ok (expectIdentifier_cons faceKind)))).trans tail

private theorem separated_signatures {ms : List Signature} {e : Token} {d : List Token}
    (h : Signatures mode ms ts (e :: d)) (stream : Stream ts) (closed : e.spells "end") :
    Separated (seesNone ["end"]) (do let m ← methodSignature mode; skipNewlines; return m) ms ts
      (e :: d) := by
  have stops : Stops ["end"] (e :: d) := ⟨by simp, e, d, rfl, .inr ⟨"end", by simp, closed⟩⟩
  generalize same : e :: d = final at h stops
  induction h with
  | none blank =>
    subst same
    have regular := (Newlines.leaves blank stream).1.regular
    exact separated_none blank stream (Ends.ne_newline (.inr (.inl closed)) regular) stops.seesNone
  | more blank headed others ih =>
    have after := (Newlines.leaves blank stream).1
    obtain ⟨rest, shorter⟩ := headed.leaves after
    have read := signature_of_heads headed after "method name"
    obtain ⟨t, more, rfl, starts, -⟩ := headed.starts after
    exact separated_more blank stream (starts.kind after.regular).1
      (starts.seesNone after.regular stops.1) read (by omega) (ih rest same stops)

private theorem interfaceDeclaration_of_parts {i name e : Token} {a b : List Token}
    {methods : List Signature} (spelled : i.spells "interface") (kind : name.kind = .identifier)
    (ended : LineEnd mode ts a) (listed : Signatures mode methods a (e :: b))
    (closed : e.spells "end") (closeEnded : LineEnd mode b rest)
    (stream : Stream (i :: name :: ts)) :
    interfaceDeclaration mode (i :: name :: ts) =
      (.ok ⟨i.position, name.text, methods⟩, rest) := by
  have streamName := stream.tail (stream.regular.more_of_spells spelled)
  have streamBody := (ended.leaves (streamName.tail (by simp [kind]))).1
  have final := (listed.leaves streamBody).1.regular
  obtain ⟨x, skip, -, items⟩ := separated_signatures listed streamBody closed
  have read : itemsWhile (seesNone ["end"]) (do
      let m ← methodSignature mode
      skipNewlines
      return m) x = (.ok methods, e :: b) := items _ (Nat.lt_succ_self _)
  rw [interfaceDeclaration, here_bind, expect_bind stream.regular spelled,
    expectIdentifier_bind kind, bind_apply_ok (terminator_of_lineEnd ended), bind_apply_ok skip,
    bind_apply_ok read, bind_apply_ok (closing_cons final closed closeEnded)]
  rfl

end Statements

def soleMember (mode : Terminators) (nested : Reading Stmt) : Reading Member := do
  if ← sees "def" then Member.method <$> method mode nested
  else Member.field <$> field mode

private theorem member_eq (mode : Terminators) (nested : Reading Stmt) :
    member mode nested = (do let m ← soleMember mode nested; skipNewlines; return m) := by
  simp only [member, soleMember, bind_assoc]
  refine bind_congr fun seen => ?_
  cases seen <;> rfl

private theorem soleMember_of_fields {mode : Terminators} {nested : Reading Stmt} {f : Field}
    {ts rest : List Token} (h : Fields mode f ts rest) (stream : Stream ts) :
    soleMember mode nested ts = (.ok (.field f), rest) := by
  have read := field_of_fields h
  cases h with
  | @field t _ _ _ _ found kind ended =>
    have other : ¬ t.spells "def" := by
      intro spelled
      have word := stream.regular.kind_of_spells_word (by decide) spelled
      simp [typeOf?, word] at found
    rw [soleMember, sees_bind, if_neg other, map_apply_ok read]

private theorem soleMember_of_routine {mode : Terminators} {nested : Reading Stmt} {t : Token}
    {ts rest : List Token} {r : Routine} (spelled : t.spells "def")
    (read : routine mode nested "method name" (t :: ts) = (.ok r, rest)) :
    soleMember mode nested (t :: ts) = (.ok (.method r), rest) := by
  rw [soleMember, sees_bind, if_pos spelled]
  exact map_apply_ok read

theorem Builds.admits {mode : Terminators} {construct : Construct} {ts rest : List Token}
    (h : Builds mode construct ts rest) (stream : Stream ts) : Admits mode construct ts rest := by
  induction h with
  | declaration found capital kind spelled derived ended =>
    intro follow nested covers
    have streamSign := (stream.tail (more_of_typeOf? found)).tail (by simp [kind])
    rw [statementWith_declaration found capital kind stream,
      variableDeclaration_cons found kind spelled streamSign derived ended
        (ended.bounds (follow rfl))]
  | function built ih =>
    intro follow nested covers
    obtain ⟨t, more, rfl, -, spelled⟩ := built.starts_routine stream
    have kind := stream.regular.kind_of_spells_word (by decide) spelled
    simp only [statementWith, current_bind, kind]
    exact map_apply_ok (ih stream nested covers "function name")
  | conditional spelled derived ended built closed closeEnded ih =>
    intro follow nested covers
    have kind := stream.regular.kind_of_spells_word (by decide) spelled
    have after := stream.tail (stream.regular.more_of_spells spelled)
    have streamBody := ((derived.leaves.trans ended.leaves) after).1
    simp only [statementWith, current_bind, kind]
    exact conditional_of_parts spelled derived ended built (ih streamBody) closed closeEnded stream
      covers
  | alternative spelled derived ended built other otherEnded otherBuilt closed closeEnded ihThen
      ihElse =>
    intro follow nested covers
    have kind := stream.regular.kind_of_spells_word (by decide) spelled
    have after := stream.tail (stream.regular.more_of_spells spelled)
    have streamThen := ((derived.leaves.trans ended.leaves) after).1
    have streamElse :=
      ((built.leaves.trans ((leaves_sign other).trans otherEnded.leaves)) streamThen).1
    simp only [statementWith, current_bind, kind]
    exact alternative_of_parts spelled derived ended built (ihThen streamThen) other otherEnded
      otherBuilt (ihElse streamElse) closed closeEnded stream covers
  | classDecl spelled kind implements ended built closed closeEnded ih =>
    intro follow nested covers
    have word := stream.regular.kind_of_spells_word (by decide) spelled
    have after := (stream.tail (stream.regular.more_of_spells spelled)).tail (by simp [kind])
    have streamMembers := ((implements.leaves.trans ended.leaves) after).1
    simp only [statementWith, current_bind, word]
    exact map_apply_ok (classDeclaration_of_parts spelled kind implements ended built
      (ih streamMembers) closed closeEnded stream covers)
  | interfaceDecl spelled kind ended listed closed closeEnded =>
    intro follow nested covers
    have word := stream.regular.kind_of_spells_word (by decide) spelled
    simp only [statementWith, current_bind, word]
    exact map_apply_ok
      (interfaceDeclaration_of_parts spelled kind ended listed closed closeEnded stream)
  | assignment free first spelled second ended =>
    intro follow nested covers
    obtain ⟨t, more, same, leads⟩ := first.leads rfl
    obtain ⟨rfl, rfl⟩ := List.cons.inj same
    rw [statementWith_expression leads stream free,
      assignment_cons first spelled second ended (ended.bounds (follow rfl)) stream]
  | expression free derived ended =>
    intro follow nested covers
    obtain ⟨t, more, same, leads⟩ := derived.leads rfl
    obtain ⟨rfl, rfl⟩ := List.cons.inj same
    rw [statementWith_expression leads stream free,
      expressionStatement_cons derived ended (ended.bounds (follow rfl)) stream]
  | routine headed built closed ended ih =>
    intro nested covers what
    have after := (headed.leaves stream).1
    exact routine_of_parts headed built (ih after) closed ended stream covers what
  | noStatement blank =>
    intro nested covers stops stop
    obtain ⟨q, more, rfl, ends⟩ := stop.ends
    have regular := (Newlines.leaves blank stream).1.regular
    exact separated_none blank stream (ends.ne_newline regular) stop.seesNone
  | @statement ts a b rest s body blank first others ihFirst ih =>
    intro nested covers stops stop
    obtain ⟨q, last, rfl, ends⟩ := stop.ends
    obtain ⟨after, le⟩ := Newlines.leaves blank stream
    obtain ⟨final, shorter⟩ := first.leaves after
    obtain ⟨k, enough, unfolded⟩ := covers a (by omega)
    have read := ihFirst after (fun _ => others.bounds_block ends final) (statementWithin mode k)
      ((covers_statementWithin mode k).mono enough)
    rw [← unfolded] at read
    obtain ⟨t, more, rfl, starts⟩ := first.starts after
    exact separated_more blank stream (starts.kind after.regular).1
      (starts.seesNone after.regular stop.1) read shorter
      (ih final nested (covers.mono (by simp only [Construct.least] at shorter; omega)) stops stop)
  | noMember blank =>
    intro nested covers stop
    obtain ⟨q, more, rfl, ends⟩ := stop.ends
    have regular := (Newlines.leaves blank stream).1.regular
    exact ⟨[], rfl, rfl, separated_none blank stream (ends.ne_newline regular) stop.seesNone⟩
  | @field ts a b rest f fields methods blank first others ih =>
    intro nested covers stop
    obtain ⟨after, le⟩ := Newlines.leaves blank stream
    obtain ⟨final, shorter⟩ := first.leaves after
    obtain ⟨ms, rfl, rfl, separated⟩ := ih final nested (covers.mono (by omega)) stop
    have read : soleMember mode nested a = (.ok (.field f), b) := soleMember_of_fields first after
    obtain ⟨t, more, rfl, starts⟩ : ∃ t more, a = t :: more ∧ Starts t := by
      cases first with | field found => exact ⟨_, _, rfl, starts_of_typeOf? found⟩
    rw [member_eq] at separated ⊢
    exact ⟨.field f :: ms, rfl, rfl, separated_more blank stream (starts.kind after.regular).1
      (starts.seesNone after.regular stop.1) read shorter separated⟩
  | @method ts a b rest m fields methods blank first others ihFirst ih =>
    intro nested covers stop
    obtain ⟨after, le⟩ := Newlines.leaves blank stream
    obtain ⟨final, shorter⟩ := first.leaves after
    obtain ⟨ms, rfl, rfl, separated⟩ :=
      ih final nested (covers.mono (by simp only [Construct.least] at shorter; omega)) stop
    have body := ihFirst after nested (covers.mono le) "method name"
    obtain ⟨t, more, rfl, starts, spelled⟩ := first.starts_routine after
    rw [member_eq] at separated ⊢
    exact ⟨.method m :: ms, rfl, rfl, separated_more blank stream (starts.kind after.regular).1
      (starts.seesNone after.regular stop.1) (soleMember_of_routine spelled body) shorter
      separated⟩

/-- A program that the rules derive is accepted. -/
theorem program_of_derived {mode : Terminators} {tokens : List Token} {p : Program}
    (stream : Stream tokens) (h : p.Derived mode tokens) :
    Program.ofTokens mode tokens = .ok p := by
  obtain ⟨last, atEnd, built⟩ := h
  have stops : Stops [] [last] := ⟨by simp, last, [], rfl, .inl atEnd⟩
  have read := (built.admits stream (statement mode) (covers_statement mode _) [] stops).read
  have read : statements (statement mode) (seesNone []) tokens = (.ok p.statements, [last]) := read
  rw [Program.ofTokens, program, bind_apply_ok read]
  rfl

end Grammar

end ScriptLang
