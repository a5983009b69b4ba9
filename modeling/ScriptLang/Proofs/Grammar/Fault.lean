import ScriptLang.Proofs.Grammar.Confinement

/-!
Where a fault lies. A reading stops at the token that it finds at fault, and what it has found does
not depend on the tokens behind that one. Only a misplaced `new` is found later, when the arguments
behind it are closed.
-/

set_option autoImplicit false
set_option relaxedAutoImplicit false

namespace ScriptLang

open Attempt

namespace Reading

variable {α β : Type} {place : Position} {ts rest : List Token}

/-- That `rest` is what is left of `ts` behind a word `new` at `place` and its arguments. -/
def Misplaced (place : Position) (ts rest : List Token) : Prop :=
  ∃ before name args as n, ts = before ++ name :: (args ++ rest) ∧
    name.kind = .identifier ∧ name.text = "new" ∧ name.position = place ∧
    Grammar.arguments (Grammar.expressionWithin n) (args ++ rest) = (.ok as, rest)

private theorem Misplaced.of_suffix {us : List Token} (h : Misplaced place ts rest)
    (suffix : ts <:+ us) : Misplaced place us rest := by
  obtain ⟨before, name, args, as, n, rfl, word⟩ := h
  obtain ⟨front, rfl⟩ := suffix
  exact ⟨front ++ before, name, args, as, n, by simp, word⟩

/-- A reading that finds `new` misplaced only behind the arguments. -/
structure Locates (r : Reading α) : Prop where
  misplaced : ∀ {place ts rest}, r ts = (.error (.syntaxError ⟨.newOnNonClass, place⟩), rest) →
    Misplaced place ts rest

namespace Locates

private theorem of_never {r : Reading α}
    (never : ∀ place ts, (r ts).1 ≠ .error (.syntaxError ⟨.newOnNonClass, place⟩)) :
    Locates r :=
  ⟨fun {place ts _} found => absurd (congrArg Prod.fst found) (never place ts)⟩

private theorem bind {r : Reading α} {next : α → Reading β} (shrinks : ∀ ts, (r ts).2 <:+ ts)
    (first : Locates r) (second : ∀ a, Locates (next a)) : Locates (r >>= next) := by
  refine ⟨fun {place ts rest} found => ?_⟩
  have part := shrinks ts
  rcases hr : r ts with ⟨e | a, mid⟩
  · rw [bind_apply_error hr] at found
    cases found
    exact first.misplaced hr
  · rw [hr] at part
    rw [bind_apply_ok hr] at found
    exact ((second a).misplaced found).of_suffix part

private theorem name (what : String) {f : Token → Reading α}
    (second : ∀ {name place ts rest}, name.kind = .identifier →
      f name ts = (.error (.syntaxError ⟨.newOnNonClass, place⟩), rest) →
      Misplaced place (name :: ts) rest) :
    Locates (expectIdentifier what >>= f) := by
  refine ⟨fun {place ts rest} found => ?_⟩
  cases ts with
  | nil => cases found
  | cons t more =>
    by_cases name : t.kind = .identifier
    · rw [expectIdentifier_bind name] at found
      exact second name found
    · have other : seesKind .identifier (t :: more) = (.ok false, t :: more) := by simp [name]
      have stuck : expectIdentifier what (t :: more) = (.error (.syntaxError
          ⟨.unexpected (.identifier what) t.found, t.position⟩), t :: more) := by
        unfold expectIdentifier
        rw [bind_apply_ok other]
        rfl
      rw [bind_apply_error stuck] at found
      cases found

end Locates

end Reading

namespace Grammar

open Reading

variable {mode : Terminators} {more : List Token}

private theorem locates_current : Locates current := by
  refine .of_never fun place ts => ?_
  cases ts with
  | nil => nofun
  | cons t more => nofun

private theorem locates_advance : Locates advance := by
  refine .of_never fun place ts => ?_
  cases ts with
  | nil => nofun
  | cons t more => nofun

private theorem locates_skipWhile (skipped : Token → Bool) : Locates (skipWhile skipped) := by
  refine .of_never fun place ts => ?_
  have read : skipWhile skipped ts = discard current (ts.dropWhile skipped) := rfl
  rw [read]
  cases ts.dropWhile skipped with
  | nil => nofun
  | cons t more => nofun

private theorem locates_terminator (mode : Terminators) : Locates (terminator mode) := by
  refine .of_never fun place ts => ?_
  cases ts with
  | nil => nofun
  | cons t more =>
    unfold terminator
    rw [current_bind]
    cases kind : t.kind with
    | newline =>
      have taken : discard advance (t :: more) = (.ok (), more) :=
        discard_apply_ok (advance_cons (by simp [kind]))
      simp [taken]
    | endOfInput => nofun
    | _ =>
      cases mode with
      | strict => simp
      | lenient => nofun

private theorem locates_precongruence :
    Precongruence mode mode (fun r r' => Extends [] r r' ∧ Locates r) := by
  have alone : Congruence mode mode (Extends []) := extends_congruence
  exact {
    value := fun a => ⟨alone.value a, .of_never nofun⟩
    seq := fun first second =>
      ⟨first.1.bind fun a => (second a).1, first.2.bind first.1.shrinks fun a => (second a).2⟩
    failure := fun e early =>
      ⟨alone.failure e early, .of_never fun place _ => by simpa using early place⟩
    look := ⟨extends_current, locates_current⟩
    take := ⟨extends_advance, locates_advance⟩
    skip := fun skipped => ⟨.skipWhile skipped, locates_skipWhile skipped⟩
    lineEnd := ⟨extends_terminator mode, locates_terminator mode⟩
    unreserved := fun yes no => by
      refine ⟨alone.unreserved yes.1 no.1, ⟨fun {place ts rest} found => ?_⟩⟩
      obtain same | same := unreserved_eq_or_eq mode ts
      · exact yes.2.misplaced (same.symm.trans found)
      · exact no.2.misplaced (same.symm.trans found)
    limit := fun h => ⟨alone.limit fun m n le => (h m n le).1,
      ⟨fun {_ ts _} => (h (ts.length + 1) _ (Nat.le_refl _)).2.misplaced⟩⟩
    exhausted := fun h => ⟨alone.exhausted h.1, .of_never nofun⟩ }

private theorem extends_expressionWithin {m n : Nat} (le : m ≤ n) :
    Extends more (expressionWithin m) (expressionWithin n) := by
  have alone : Congruence .strict .strict (Extends more) := extends_congruence
  exact alone.expressionWithin (fun _ _ inner => alone.access inner) le

/-- The fault comes up behind the arguments of the word, and the reading stops there. -/
private theorem locates_access {n : Nat} (inner : Locates (expressionWithin n)) (receiver : Expr) :
    Locates (access (expressionWithin n) receiver) := by
  have each : Precongruence .strict .strict (fun r r' => Extends [] r r' ∧ Locates r) :=
    locates_precongruence
  obtain ⟨closes, behind⟩ := each.arguments ⟨extends_expressionWithin (Nat.le_refl n), inner⟩
  refine .bind (each.sees ".").1.shrinks (each.sees ".").2 fun dot => ?_
  cases dot with
  | false => exact .of_never nofun
  | true =>
    refine .bind (each.discard each.take).1.shrinks (each.discard each.take).2 fun _ => ?_
    refine .name _ fun {name place ts rest} identifier found => ?_
    cases ts with
    | nil => cases found
    | cons t more =>
      rw [sees_bind] at found
      cases called : t.spells "(" with
      | false =>
        rw [called] at found
        cases found
      | true =>
        rw [called, if_pos rfl] at found
        rcases hr : arguments (expressionWithin n) (t :: more) with ⟨e | as, mid⟩
        · rw [bind_apply_error hr] at found
          cases found
          exact (behind.misplaced hr).of_suffix (List.suffix_cons name _)
        · rw [bind_apply_ok hr] at found
          by_cases word : name.text = "new"
          · rw [if_pos word] at found
            obtain ⟨args, split⟩ := closes.shrinks (t :: more)
            rw [hr] at split
            cases receiver with
            | identifier position className => cases found
            | _ =>
              cases found
              exact ⟨[], name, args, as, n, by rw [split]; rfl, identifier, word, rfl,
                by rw [split]; exact hr⟩
          · rw [if_neg word] at found
            cases found

private theorem locates_program (mode : Terminators) : Locates (program mode) := by
  have each : Precongruence mode mode (fun r r' => Extends [] r r' ∧ Locates r) :=
    locates_precongruence
  have alone : Congruence mode mode (Extends []) := extends_congruence
  have expression : Extends [] expression expression ∧ Locates expression :=
    each.expression fun m n inner receiver =>
      ⟨alone.access inner.1 receiver, locates_access inner.2 receiver⟩
  exact (each.program expression).2

/-- Closed arguments are read alike whatever bound the depth of their expressions has. -/
private theorem arguments_expression_of_within {tokens ts rest : List Token} {as : List Expr}
    {n : Nat} (unlettered : Unlettered (· ∈ tokens)) (part : ∀ t ∈ ts, t ∈ tokens)
    (some : rest ≠ []) (read : arguments (expressionWithin n) ts = (.ok as, rest)) :
    arguments expression ts = (.ok as, rest) := by
  have alone : Congruence .strict .strict (Extends []) := extends_congruence
  -- A reading that allows for either depth does what each of the two does.
  let wide : Reading Expr := bounded fun k => expressionWithin (max n k)
  have within : Extends [] (expressionWithin n) wide :=
    alone.limit fun _ k _ => extends_expressionWithin (Nat.le_max_left n k)
  have whole : Extends [] expression wide :=
    alone.limit fun _ k le => extends_expressionWithin (le.trans (Nat.le_max_right n k))
  have wider := (alone.arguments within).agrees read nofun some
  rw [List.append_nil, List.append_nil] at wider
  have ends := (Production.arguments.confined .strict unlettered part).ends
  rcases hr : arguments expression ts with ⟨result, left⟩
  have ends : result ≠ .error .unbounded := by
    intro unbounded
    exact ends ((congrArg Prod.fst hr).trans unbounded)
  have kept : left ≠ [] := by
    rintro rfl
    have none := (alone.arguments whole).passes hr ends
    rw [List.append_nil, wider] at none
    exact some (List.suffix_nil.mp none)
  have same := (alone.arguments whole).agrees hr ends kept
  rw [List.append_nil, List.append_nil, wider] at same
  exact same.symm

end Grammar

/-- A fault lies at the token where the reading of a program stops, or, if it is a misplaced `new`,
at that word in front of the arguments that close there; and the same fault is found at the same
token whatever stands behind it. -/
theorem Program.fault_of_front {mode : Terminators} {tokens rest : List Token} {e : SyntaxError}
    (unlettered : ∀ t ∈ tokens, t.kind = .endOfInput → t.text = "")
    (ended : ∃ t ∈ tokens, t.kind = .endOfInput)
    (fails : Grammar.program mode tokens = (.error (.syntaxError e), rest)) :
    ∃ front t more, tokens = front ++ t :: more ∧ rest = t :: more ∧
      (e.cause ≠ .newOnNonClass → e.position = t.position) ∧
      (e.cause = .newOnNonClass → ∃ before name args as, front = before ++ name :: args ∧
        name.kind = .identifier ∧ name.text = "new" ∧ e.position = name.position ∧
        Grammar.arguments Grammar.expression (args ++ rest) = (.ok as, rest)) ∧
      ∀ more', Grammar.program mode (front ++ t :: more') =
        (.error (.syntaxError e), t :: more') := by
  obtain ⟨taken, split, free, result⟩ := Grammar.proceeds_program (b := tokens.length + 1)
    unlettered mode tokens (fun _ there => there) (Nat.lt_succ_self _)
  rw [fails] at split result
  -- What was taken holds no end mark, so the reading stops in front of some token.
  have kept : rest ≠ [] := by
    rintro rfl
    obtain ⟨t, there, atEnd⟩ := ended
    rw [split, List.append_nil] at there
    exact free t there atEnd
  obtain ⟨t, more, rfl⟩ := List.exists_cons_of_ne_nil kept
  refine ⟨taken, t, more, split, rfl, ?_, ?_, ?_⟩
  · intro other
    obtain ⟨_, _, left, place⟩ | ⟨misplaced, -⟩ := result
    · cases left
      exact place.symm
    · exact absurd misplaced other
  · intro misplaced
    obtain ⟨cause, position⟩ := e
    cases misplaced
    obtain ⟨before, name, args, as, n, front, identifier, word, place, closed⟩ :=
      (Grammar.locates_program mode).misplaced fails
    have part : ∀ u ∈ args ++ t :: more, u ∈ tokens := by
      intro u there
      rw [front]
      exact List.mem_append_right before (List.mem_cons_of_mem name there)
    refine ⟨before, name, args, as, ?_, identifier, word, place.symm,
      Grammar.arguments_expression_of_within unlettered part kept closed⟩
    have same : taken ++ t :: more = (before ++ name :: args) ++ t :: more := by
      rw [← split, front]
      simp
    exact List.append_cancel_right same
  · refine Grammar.Production.program.reading_of_front ?_ (split ▸ fails)
    refine (Grammar.Production.program.confined mode ?_ fun _ there => there).ends
    intro u there
    refine unlettered u ?_
    rw [split, List.append_cons]
    exact List.mem_append_left more there

/-- A call of `new` on a number, with more tokens behind the token where its reading stops. -/
theorem Program.fault_of_front_of_misplaced :
    let front : List Token := [⟨.integer, "7", ⟨1, 1⟩⟩, ⟨.operator, ".", ⟨1, 2⟩⟩,
      ⟨.identifier, "new", ⟨1, 3⟩⟩, ⟨.operator, "(", ⟨1, 6⟩⟩, ⟨.integer, "8", ⟨1, 7⟩⟩,
      ⟨.operator, ")", ⟨1, 8⟩⟩]
    let stop : Token := ⟨.operator, "+", ⟨4, 2⟩⟩
    let more : List Token := [⟨.endOfInput, "", ⟨5, 1⟩⟩]
    (∀ t ∈ front ++ stop :: more, t.kind = .endOfInput → t.text = "") ∧
    (∃ t ∈ front ++ stop :: more, t.kind = .endOfInput) ∧
    Grammar.program .lenient (front ++ stop :: more) =
      (.error (.syntaxError ⟨.newOnNonClass, ⟨1, 3⟩⟩), stop :: more) ∧
    ∀ more', Grammar.program .lenient (front ++ stop :: more') =
      (.error (.syntaxError ⟨.newOnNonClass, ⟨1, 3⟩⟩), stop :: more') := by
  intro front stop more
  have unlettered : ∀ t ∈ front ++ stop :: more, t.kind = .endOfInput → t.text = "" := by decide
  have ended : ∃ t ∈ front ++ stop :: more, t.kind = .endOfInput := by decide
  have fails : Grammar.program .lenient (front ++ stop :: more) =
      (.error (.syntaxError ⟨.newOnNonClass, ⟨1, 3⟩⟩), stop :: more) := rfl
  obtain ⟨front', t, more', split, left, -, -, same⟩ := fault_of_front unlettered ended fails
  obtain ⟨rfl, rfl⟩ := List.cons.inj left
  obtain rfl : front = front' := List.append_cancel_right split
  exact ⟨unlettered, ended, fails, same⟩

end ScriptLang
