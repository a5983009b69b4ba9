import Mathlib.Data.Int.ModEq
import Mathlib.Data.Rat.Floor
import ScriptLang.Proofs.Evaluation.Call
import ScriptLang.Proofs.Grammar.Completeness
import ScriptLang.Proofs.Text

/-!
What operators and interpolation yield: sums, differences and products to any depth, quotients,
and strings that hold a marker.
-/

set_option autoImplicit false
set_option relaxedAutoImplicit false

namespace ScriptLang

/-! ## Wrapping

Sums, differences and products without bounds. Every operation of the language reduces its result
to 64 bits. It comes to the same to compute without bounds and to reduce only the last result: an
expression of such operations yields the one 64-bit number that its exact value is congruent to.
-/

/-- That `k` is the number of 64 bits, the first of them a sign, that stands for `n`. -/
def Represents (k n : Int) : Prop :=
  -2 ^ 63 ≤ k ∧ k ≤ 2 ^ 63 - 1 ∧ k ≡ n [ZMOD 2 ^ 64]

private theorem wrap_eq_ite (n : Int) :
    wrap n = if n % 2 ^ 64 ≤ 2 ^ 63 - 1 then n % 2 ^ 64 else n % 2 ^ 64 - 2 ^ 64 := by
  have size : ((Int64.size : Nat) : Int) = 2 ^ 64 := rfl
  rw [wrap, Int.bmod_def, size]
  omega

private theorem represents_wrap (n : Int) : Represents (wrap n) n := by
  have low : 0 ≤ n % 2 ^ 64 := Int.emod_nonneg n (by decide)
  have high : n % 2 ^ 64 < 2 ^ 64 := Int.emod_lt_of_pos n (by decide)
  unfold Represents Int.ModEq
  rw [wrap_eq_ite]
  split
  · exact ⟨by omega, by omega, Int.mod_modEq n _⟩
  · exact ⟨by omega, by omega, by omega⟩

namespace Represents

variable {j k n : Int}

private theorem unique (hj : Represents j n) (hk : Represents k n) : j = k := by
  obtain ⟨lowJ, highJ, sameJ⟩ := hj
  obtain ⟨lowK, highK, sameK⟩ := hk
  obtain ⟨c, apart⟩ := (sameJ.trans sameK.symm).dvd
  omega

private theorem congr (hk : Represents k j) (same : j ≡ n [ZMOD 2 ^ 64]) : Represents k n :=
  ⟨hk.1, hk.2.1, hk.2.2.trans same⟩

end Represents

/-- That an expression is made of integer literals, variables that hold integers, sums, differences
and products, and that its value is `n` if nothing is ever reduced. -/
inductive ExactValue (vars : Table Value) : Expr → Int → Prop where
  | integer {p : Position} {n : Int} : ExactValue vars (.integer p n) n
  | identifier {p : Position} {name : String} {v : Int64} :
      vars.get? name = some (.int v) → ExactValue vars (.identifier p name) v.toInt
  | sum {p : Position} {left right : Expr} {a b : Int} : ExactValue vars left a →
      ExactValue vars right b → ExactValue vars (.binary p .add left right) (a + b)
  | difference {p : Position} {left right : Expr} {a b : Int} : ExactValue vars left a →
      ExactValue vars right b → ExactValue vars (.binary p .subtract left right) (a - b)
  | product {p : Position} {left right : Expr} {a b : Int} : ExactValue vars left a →
      ExactValue vars right b → ExactValue vars (.binary p .multiply left right) (a * b)

namespace Evaluation

variable {bodyOf : List Stmt → Evaluation (Option Value)} {m : Machine} {p : Position}
  {operator : Operator} {left right e : Expr} {n : Int}

private theorem evaluateWith_binary {a b v : Value}
    (first : evaluateWith bodyOf left m = (.ok a, m))
    (second : evaluateWith bodyOf right m = (.ok b, m))
    (result : Value.operate operator a b = .ok v) :
    evaluateWith bodyOf (.binary p operator left right) m = (.ok v, m) := by
  rw [binary_of_operands first second, result]
  rfl

/-- Each operation on numbers of 64 bits stands for the same operation without bounds. -/
private theorem represents_of_exactValue (bodyOf : List Stmt → Evaluation (Option Value))
    (h : ExactValue m.env.vars e n) :
    ∃ v : Int64, evaluateWith bodyOf e m = (.ok (.int v), m) ∧ Represents v.toInt n := by
  induction h with
  | @integer p n =>
    refine ⟨Int64.ofInt n, by rw [evaluateWith]; rfl, ?_⟩
    rw [toInt_ofInt_eq_wrap]
    exact represents_wrap n
  | @identifier p name v bound =>
    refine ⟨v, ?_, Int64.le_toInt v, ?_, rfl⟩
    · rw [evaluateWith, environment_bind, bound]
      rfl
    · have high := Int64.toInt_lt v
      omega
  | sum _ _ ihLeft ihRight =>
    obtain ⟨x, evaluatedLeft, left⟩ := ihLeft
    obtain ⟨y, evaluatedRight, right⟩ := ihRight
    refine ⟨x + y, evaluateWith_binary evaluatedLeft evaluatedRight rfl, ?_⟩
    rw [toInt_add_eq_wrap]
    exact (represents_wrap _).congr (left.2.2.add right.2.2)
  | difference _ _ ihLeft ihRight =>
    obtain ⟨x, evaluatedLeft, left⟩ := ihLeft
    obtain ⟨y, evaluatedRight, right⟩ := ihRight
    refine ⟨x - y, evaluateWith_binary evaluatedLeft evaluatedRight rfl, ?_⟩
    rw [toInt_sub_eq_wrap]
    exact (represents_wrap _).congr (left.2.2.sub right.2.2)
  | product _ _ ihLeft ihRight =>
    obtain ⟨x, evaluatedLeft, left⟩ := ihLeft
    obtain ⟨y, evaluatedRight, right⟩ := ihRight
    refine ⟨x * y, evaluateWith_binary evaluatedLeft evaluatedRight rfl, ?_⟩
    rw [toInt_mul_eq_wrap]
    exact (represents_wrap _).congr (left.2.2.mul right.2.2)

/-- An expression of integer literals, variables that hold integers, sums, differences and products
has a value under any limit and changes nothing. The value is the one number from `-2 ^ 63` to
`2 ^ 63 - 1` that is congruent modulo `2 ^ 64` to the exact value of the expression. -/
theorem evaluate_of_exactValue (limit : Nat) (h : ExactValue m.env.vars e n) :
    ∃ v : Int64, evaluate limit e m = (.ok (.int v), m) ∧ ∀ k, Represents k n ↔ k = v.toInt := by
  obtain ⟨v, evaluated, represents⟩ := represents_of_exactValue (bodyWithin limit) h
  refine ⟨v, evaluated, fun k => ⟨fun other => other.unique represents, ?_⟩⟩
  rintro rfl
  exact represents

/-- The expression `99999999999999999999 - x * x * x` where `x` is `3000000000000000000`: the
literal, both products and the difference are all beyond 64 bits. -/
theorem evaluate_of_cube_beyond_bounds :
    let nowhere : Position := ⟨0, 0⟩
    let x : Expr := .identifier nowhere "x"
    let cube : Expr := .binary nowhere .multiply (.binary nowhere .multiply x x) x
    let e : Expr := .binary nowhere .subtract (.integer nowhere 99999999999999999999) cube
    let value : Int := 3000000000000000000
    let env := Environment.initial.defineVariable "x" (.ofInt value)
    let m : Machine := { Machine.initial with env }
    let n : Int := 99999999999999999999 - value * value * value
    ExactValue m.env.vars e n ∧
      (∃ v : Int64, evaluate 0 e m = (.ok (.int v), m) ∧ ∀ k, Represents k n ↔ k = v.toInt) ∧
      Represents (-69983720172421121) n := by
  intro nowhere x cube e value env m n
  have fits : (Int64.ofInt value).toInt = value := by decide
  have bound : ExactValue m.env.vars x value := by
    rw [← fits]
    exact .identifier rfl
  have exact : ExactValue m.env.vars e n :=
    .difference .integer (.product (.product bound bound) bound)
  exact ⟨exact, evaluate_of_exactValue 0 exact, by decide, by decide, by decide⟩

end Evaluation

/-! ## Division

Division. The quotient of two numbers is their fraction truncated toward zero, so what remains is
nearer to zero than the divisor and on the side of the dividend. Of all quotients of numbers of 64
bits one alone takes more than 64 bits.
-/

/-- The integer next to a fraction on the side of zero. -/
def towardZero (x : ℚ) : Int :=
  if 0 ≤ x then ⌊x⌋ else ⌈x⌉

private theorem towardZero_neg (x : ℚ) : towardZero (-x) = -towardZero x := by
  unfold towardZero
  rcases lt_trichotomy x 0 with below | rfl | above
  · rw [if_pos (by linarith), if_neg (by linarith), Int.floor_neg]
  · simp
  · rw [if_neg (by linarith), if_pos (by linarith), Int.ceil_neg]

private theorem towardZero_natCast_div (m n : ℕ) : towardZero (m / n) = (m / n : ℕ) := by
  have positive : (0 : ℚ) ≤ m / n := by positivity
  rw [towardZero, if_pos positive, Rat.floor_natCast_div_natCast]
  rfl

section Quotient

variable (a b : Int)

private theorem truncatedQuotient_neg_left : truncatedQuotient (-a) b = -truncatedQuotient a b := by
  rw [truncatedQuotient_eq_tdiv, truncatedQuotient_eq_tdiv, Int.neg_tdiv]

private theorem truncatedQuotient_neg_right :
    truncatedQuotient a (-b) = -truncatedQuotient a b := by
  rw [truncatedQuotient_eq_tdiv, truncatedQuotient_eq_tdiv, Int.tdiv_neg]

private theorem truncatedQuotient_eq_towardZero : truncatedQuotient a b = towardZero (a / b) := by
  -- The signs come out on both sides, and magnitudes are divided as natural numbers are.
  have magnitudes (m n : ℕ) : truncatedQuotient m n = towardZero (m / n) := by
    rw [truncatedQuotient_eq_tdiv, towardZero_natCast_div, Int.ofNat_tdiv]
  rcases Int.natAbs_eq a with ha | ha <;> rcases Int.natAbs_eq b with hb | hb <;> rw [ha, hb] <;>
    simp only [truncatedQuotient_neg_left, truncatedQuotient_neg_right, magnitudes, Int.cast_neg,
      Int.cast_natCast, neg_div, div_neg, towardZero_neg]

private theorem exists_remainder (nonzero : b ≠ 0) :
    ∃ r, a = truncatedQuotient a b * b + r ∧ |r| < |b| ∧ (r = 0 ∨ r.sign = a.sign) := by
  refine ⟨a.tmod b, ?_, ?_, ?_⟩
  · rw [truncatedQuotient_eq_tdiv, Int.tdiv_mul_add_tmod]
  · rw [Int.abs_eq_natAbs, Int.abs_eq_natAbs, Int.natAbs_tmod]
    exact Int.ofNat_lt.mpr (Nat.mod_lt _ (Int.natAbs_pos.mpr nonzero))
  · rw [Int.sign_tmod]
    by_cases divides : b ∣ a
    · exact .inl (Int.tmod_eq_zero_of_dvd divides)
    · exact .inr (if_neg divides)

end Quotient

section Bounded

variable {a b : Int64}

theorem toInt_div_of_fits (fits : ¬ (a.toInt = -2 ^ 63 ∧ b.toInt = -1)) :
    (a / b).toInt = truncatedQuotient a.toInt b.toInt := by
  rw [truncatedQuotient_eq_tdiv]
  by_cases least : a = Int64.minValue
  · subst least
    refine Int64.toInt_div_of_ne_right _ b ?_
    rintro rfl
    exact fits ⟨Int64.toInt_minValue, rfl⟩
  · exact Int64.toInt_div_of_ne_left a b least

/-- The one quotient that takes more than 64 bits wraps around to its own dividend. -/
theorem toInt_div_of_overflow (least : a.toInt = -2 ^ 63) (minus : b.toInt = -1) :
    (a / b).toInt = -2 ^ 63 := by
  rw [toInt_div_eq_wrap, least, minus]
  decide

end Bounded

namespace Evaluation

variable {m n k : Machine} {left right : Expr} {a b : Int64}

/-- The law of division, for operands of any form. Division by zero, and nothing else, is an error
of its own. Every quotient but one is that of the unbounded numbers, with a remainder that is
smaller than the divisor and has the sign of the dividend; and the quotient of unbounded numbers is
their fraction truncated toward zero. -/
theorem evaluate_division (limit : Nat) (position : Position)
    (first : evaluate limit left m = (.ok (.int a), n))
    (second : evaluate limit right n = (.ok (.int b), k)) :
    let outcome := evaluate limit (.binary position .divide left right) m
    (outcome = (.error (.error ⟨.divisionByZero, position⟩), k) ↔ b.toInt = 0) ∧
      (b.toInt ≠ 0 → ∃ q : Int64, outcome = (.ok (.int q), k) ∧
        (¬ (a.toInt = -2 ^ 63 ∧ b.toInt = -1) → q.toInt = truncatedQuotient a.toInt b.toInt ∧
          ∃ r, a.toInt = q.toInt * b.toInt + r ∧ |r| < |b.toInt| ∧
            (r = 0 ∨ r.sign = a.toInt.sign)) ∧
        (a.toInt = -2 ^ 63 → b.toInt = -1 → q.toInt = -2 ^ 63)) ∧
      ∀ x y : Int, y ≠ 0 → truncatedQuotient x y = towardZero (x / y) := by
  intro outcome
  have result : outcome = ((if b = 0 then .error .divisionByZero else .ok (.int (a / b)) :
      Except EvalCause Value).mapError fun cause => .error ⟨cause, position⟩, k) :=
    binary_of_operands first second
  have zero : b.toInt = 0 ↔ b = 0 := by
    rw [← Int64.toInt_zero, Int64.toInt_inj]
  refine ⟨?_, ?_, fun x y _ => truncatedQuotient_eq_towardZero x y⟩
  · rw [result, zero]
    by_cases vanishes : b = 0 <;> simp [vanishes, Except.mapError]
  · intro nonzero
    rw [if_neg (mt zero.mpr nonzero)] at result
    refine ⟨a / b, result, fun fits => ⟨toInt_div_of_fits fits, ?_⟩, toInt_div_of_overflow⟩
    rw [toInt_div_of_fits fits]
    exact exists_remainder a.toInt b.toInt nonzero

/-- The division of `0 - 7` by `2`, and that of the least number of 64 bits by `0 - 1`. -/
theorem evaluate_division_of_negative_dividends :
    let nowhere : Position := ⟨0, 0⟩
    let number (n : Int) : Expr := .integer nowhere n
    let minus (e : Expr) (n : Int) : Expr := .binary nowhere .subtract e (number n)
    let seven := minus (number 0) 7
    let least := minus (minus (number 0) 9223372036854775807) 1
    let one := minus (number 0) 1
    let m := Machine.initial
    (evaluate 0 seven m = (.ok (.int (-7)), m) ∧ evaluate 0 (number 2) m = (.ok (.int 2), m) ∧
      ∃ q : Int64, evaluate 0 (.binary nowhere .divide seven (number 2)) m = (.ok (.int q), m) ∧
        q.toInt = -3 ∧ ∃ r : Int, -7 = q.toInt * 2 + r ∧ |r| < 2 ∧ (r = 0 ∨ r.sign = -1)) ∧
      evaluate 0 least m = (.ok (.int Int64.minValue), m) ∧
      evaluate 0 one m = (.ok (.int (-1)), m) ∧
      ∃ q : Int64, evaluate 0 (.binary nowhere .divide least one) m = (.ok (.int q), m) ∧
        q.toInt = -2 ^ 63 := by
  intro nowhere number minus seven least one m
  have sevenYields : evaluate 0 seven m = (.ok (.int (-7)), m) := rfl
  have twoYields : evaluate 0 (number 2) m = (.ok (.int 2), m) := rfl
  have leastYields : evaluate 0 least m = (.ok (.int Int64.minValue), m) := rfl
  have oneYields : evaluate 0 one m = (.ok (.int (-1)), m) := rfl
  obtain ⟨-, quotient, -⟩ := evaluate_division 0 nowhere sevenYields twoYields
  obtain ⟨q, divided, fits, -⟩ := quotient (by decide)
  obtain ⟨truncated, remainder⟩ := fits (by decide)
  obtain ⟨-, overflow, -⟩ := evaluate_division 0 nowhere leastYields oneYields
  obtain ⟨w, wrapped, -, beyond⟩ := overflow (by decide)
  exact ⟨⟨sevenYields, twoYields, q, divided, truncated.trans (by decide), remainder⟩,
    leastYields, oneYields, w, wrapped, beyond (by decide) (by decide)⟩

end Evaluation

/-! ## Interpolation

What a string of a source text yields. Its first marker, if there is one and a variable of that
name, is replaced by the text of the value, once; the result is not searched for markers again. The
grammar tells strings that hold the opening of a marker from the others, and it makes no difference
to what they yield.
-/

section Interpolation

open Text (Marked opening splitAtMarker_eq_some_iff)

section Text

variable {vars : Table Value} {text : String} {before name after : List Char} {v : Value}

private theorem interpolate_of_bound (marked : Marked text.toList before name after)
    (bound : vars.get? (String.ofList name) = some v) :
    interpolate vars text = String.ofList before ++ v.display ++ String.ofList after := by
  rw [interpolate, splitAtMarker_eq_some_iff.mpr marked]
  dsimp only
  rw [bound]

private theorem interpolate_of_unbound
    (h : ∀ before name after v, Marked text.toList before name after →
    vars.get? (String.ofList name) ≠ some v) : interpolate vars text = text := by
  unfold interpolate
  split
  · rfl
  · rename_i before name after found
    have marked := splitAtMarker_eq_some_iff.mp found
    cases bound : vars.get? (String.ofList name) with
    | none => rfl
    | some v => exact absurd bound (h before name after v marked)

private theorem interpolate_of_not_opening (unmarked : ¬ opening <:+: text.toList) :
    interpolate vars text = text := by
  refine interpolate_of_unbound fun before name after v marked _ => unmarked ?_
  refine ⟨before, name ++ ['\x7d'] ++ after, ?_⟩
  rw [marked.whole]
  simp only [List.append_assoc]

end Text

namespace Evaluation

/-- A string of a source text is read as one node, a template if it holds the opening of a marker
and a plain string if not. The node yields the text with its first marker replaced by what the
variable of that name shows, and the text itself if there is no such marker or no such variable.
There is at most one way to split the text at its first marker. -/
theorem evaluate_atom_of_string (limit : Nat) (m : Machine) (nested : Reading Expr)
    (position : Position) (text : String) (rest : List Token) :
    ∃ node r, Grammar.atom nested (⟨.string, text, position⟩ :: rest) = (.ok node, rest) ∧
      evaluate limit node m = (.ok (.string r), m) ∧ r = interpolate m.env.vars text ∧
      (opening <:+: text.toList → node = .template position text) ∧
      (¬ opening <:+: text.toList → node = .string position text) ∧
      (∀ before name after v, Marked text.toList before name after →
        m.env.vars.get? (String.ofList name) = some v →
        r = String.ofList before ++ v.display ++ String.ofList after) ∧
      ((∀ before name after v, Marked text.toList before name after →
        m.env.vars.get? (String.ofList name) ≠ some v) → r = text) ∧
      ∀ before name after before' name' after', Marked text.toList before name after →
        Marked text.toList before' name' after' →
        before = before' ∧ name = name' ∧ after = after' := by
  -- Whichever node is made, it yields the interpolated text.
  obtain ⟨node, read, yields, template, plain⟩ : ∃ node : Expr,
      Grammar.atom nested (⟨.string, text, position⟩ :: rest) = (.ok node, rest) ∧
      evaluate limit node m = (.ok (.string (interpolate m.env.vars text)), m) ∧
      (opening <:+: text.toList → node = .template position text) ∧
      (¬ opening <:+: text.toList → node = .string position text) := by
    by_cases marked : opening <:+: text.toList
    · refine ⟨_, Grammar.atom_template rfl (Text.hasMarker_iff.mpr marked), ?_, fun _ => rfl,
        absurd marked⟩
      rw [evaluate, evaluateWith, environment_bind]
      rfl
    · refine ⟨_, Grammar.atom_string rfl (mt Text.hasMarker_iff.mp marked), ?_,
        fun other => absurd other marked, fun _ => rfl⟩
      rw [interpolate_of_not_opening marked, evaluate, evaluateWith]
      rfl
  refine ⟨node, interpolate m.env.vars text, read, yields, rfl, template, plain, ?_, ?_, ?_⟩
  · intro before name after v marked bound
    exact interpolate_of_bound marked bound
  · exact interpolate_of_unbound
  · intro before name after before' name' after' first second
    exact first.unique second

/-- The string `a##{x}#{y}` where the value of `x` is the text of the second marker. -/
theorem evaluate_atom_of_string_with_markers :
    let position : Position := ⟨1, 1⟩
    let text := "a##\x7bx\x7d#\x7by\x7d"
    let v : Value := .string "#\x7by\x7d"
    let env := (Environment.initial.defineVariable "x" v).defineVariable "y" (.int 1)
    let m : Machine := { Machine.initial with env }
    let after := ['#', '\x7b', 'y', '\x7d']
    Marked text.toList ['a', '#'] ['x'] after ∧ m.env.vars.get? (String.ofList ['x']) = some v ∧
      ∃ node r, Grammar.atom Grammar.expression [⟨.string, text, position⟩] = (.ok node, []) ∧
        evaluate 0 node m = (.ok (.string r), m) ∧ r = "a##\x7by\x7d#\x7by\x7d" := by
  intro position text v env m after
  have marked : Marked text.toList ['a', '#'] ['x'] after := ⟨by decide, by decide, by decide⟩
  have bound : m.env.vars.get? (String.ofList ['x']) = some v := rfl
  obtain ⟨node, r, read, yields, -, -, -, replaced, -, -⟩ :=
    evaluate_atom_of_string 0 m Grammar.expression position text []
  exact ⟨marked, bound, node, r, read, yields, (replaced _ _ _ v marked bound).trans (by decide)⟩

end Evaluation

end Interpolation

end ScriptLang
