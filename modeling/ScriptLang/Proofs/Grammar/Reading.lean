import ScriptLang.Attempt
import ScriptLang.Proofs.Grammar.Derivation
import ScriptLang.Proofs.Token.Regular

/-!
Readings on regular tokens, and the levels of operations as readings of one form.
-/

set_option autoImplicit false
set_option relaxedAutoImplicit false

namespace ScriptLang

/-! ## Readings

The steps of a reading on a stream of regular tokens: what each step does when a token of the
wanted form stands in front, and what must have stood there when it succeeds.
-/

section Reading

open Attempt

namespace Reading

variable {t u : Token} {ts rest : List Token} {sign : String}

@[simp] theorem seesKind_cons (kind : Kind) (t : Token) (ts : List Token) :
    seesKind kind (t :: ts) = (.ok (decide (t.kind = kind)), t :: ts) := rfl

@[simp] theorem fault_apply {α : Type} (cause : SyntaxCause) (position : Position)
    (ts : List Token) :
    (fault cause position : Reading α) ts = (.error (.syntaxError ⟨cause, position⟩), ts) := rfl

@[simp] theorem unexpected_cons {α : Type} (wanted : Wanted) (t : Token) (ts : List Token) :
    (unexpected wanted : Reading α) (t :: ts) =
      (.error (.syntaxError ⟨.unexpected wanted t.found, t.position⟩), t :: ts) := rfl

theorem advance_cons (more : t.kind ≠ .endOfInput) : advance (t :: ts) = (.ok t, ts) := by
  simp [advance, more]

@[simp] theorem current_bind {α : Type} (f : Token → Reading α) (t : Token) (ts : List Token) :
    (current >>= f) (t :: ts) = f t (t :: ts) := rfl

@[simp] theorem here_bind {α : Type} (f : Position → Reading α) (t : Token) (ts : List Token) :
    (here >>= f) (t :: ts) = f t.position (t :: ts) := rfl

@[simp] theorem sees_bind {α : Type} (sign : String) (f : Bool → Reading α) (t : Token)
    (ts : List Token) : (sees sign >>= f) (t :: ts) = f (t.spells sign) (t :: ts) := rfl

theorem advance_bind {α : Type} {f : Unit → Reading α} (more : t.kind ≠ .endOfInput) :
    (discard advance >>= f) (t :: ts) = f () ts :=
  bind_apply_ok (discard_apply_ok (advance_cons more))

end Reading

private theorem Token.Regular.more_of_spells_ne {t : Token} {sign : String} (h : t.Regular)
    (spelled : t.spells sign) (nonempty : sign ≠ "") : t.kind ≠ .endOfInput := by
  intro atEnd
  unfold Token.Regular at h
  rw [atEnd] at h
  exact nonempty ((Token.spells_iff.mp spelled).1.symm.trans h)

theorem Token.Regular.more_of_spells {t : Token} {c : Char} {cs : List Char} (h : t.Regular)
    (spelled : t.spells (String.ofList (c :: cs))) : t.kind ≠ .endOfInput :=
  h.more_of_spells_ne spelled (by simp)

namespace Reading

variable {t u : Token} {ts rest : List Token} {sign : String}

theorem expect_bind {α : Type} {c : Char} {cs : List Char} {f : Unit → Reading α}
    (regular : t.Regular) (spelled : t.spells (String.ofList (c :: cs))) :
    (discard (expect (String.ofList (c :: cs))) >>= f) (t :: ts) = f () ts := by
  have read : expect (String.ofList (c :: cs)) (t :: ts) = (.ok t, ts) := by
    unfold expect
    rw [sees_bind, if_pos spelled]
    exact advance_cons (regular.more_of_spells spelled)
  exact bind_apply_ok (discard_apply_ok read)

theorem expectIdentifier_cons {what : String} (name : t.kind = .identifier) :
    expectIdentifier what (t :: ts) = (.ok t, ts) := by
  have seen : seesKind .identifier (t :: ts) = (.ok true, t :: ts) := by simp [name]
  unfold expectIdentifier
  rw [bind_apply_ok seen, if_pos rfl]
  exact advance_cons (by simp [name])

theorem expectIdentifier_bind {α : Type} {what : String} {f : Token → Reading α}
    (name : t.kind = .identifier) : (expectIdentifier what >>= f) (t :: ts) = f t ts :=
  bind_apply_ok (expectIdentifier_cons name)

/-- A reading that succeeds on a stream only as the rule `R` says, and leaves a stream. -/
def Sound {α : Type} (R : α → List Token → List Token → Prop) (r : Reading α) : Prop :=
  ∀ {ts : List Token} {a : α} {rest : List Token}, Stream ts → r ts = (.ok a, rest) →
    R a ts rest ∧ Stream rest

theorem sound_expect (sign : String) (nonempty : sign ≠ "") :
    Sound (fun t ts rest => ts = t :: rest ∧ t.spells sign) (expect sign) := by
  intro ts a rest stream h
  obtain ⟨t, more, rfl⟩ := stream.exists_cons
  unfold expect at h
  rw [sees_bind] at h
  split at h
  · rename_i spelled
    have notEnd := stream.regular.more_of_spells_ne spelled nonempty
    rw [advance_cons notEnd] at h
    cases h
    exact ⟨⟨rfl, spelled⟩, stream.tail notEnd⟩
  · simp at h

theorem sound_expectIdentifier (what : String) :
    Sound (fun t ts rest => ts = t :: rest ∧ t.kind = .identifier) (expectIdentifier what) := by
  intro ts a rest stream h
  obtain ⟨t, more, rfl⟩ := stream.exists_cons
  unfold expectIdentifier at h
  rw [bind_apply_ok (seesKind_cons _ _ _)] at h
  split at h
  · rename_i name
    have name : t.kind = .identifier := of_decide_eq_true name
    have notEnd : t.kind ≠ .endOfInput := by simp [name]
    rw [advance_cons notEnd] at h
    cases h
    exact ⟨⟨rfl, name⟩, stream.tail notEnd⟩
  · simp at h

theorem sound_skipWhile {skipped : Token → Bool} (more : ∀ t, skipped t → t.kind ≠ .endOfInput) :
    Sound (fun _ ts rest => Grammar.Run (skipped ·) ts rest) (skipWhile skipped) := by
  intro ts a rest stream h
  have dropped : ts.dropWhile skipped = rest := by
    simp only [skipWhile, bind_eq_ok, modify_apply, discard_eq_ok] at h
    obtain ⟨_, mid, hm, t, h⟩ := h
    cases hm
    unfold current at h
    split at h
    · cases h
    · cases h
      assumption
  clear h
  subst dropped
  induction ts with
  | nil => cases stream
  | cons t ts ih =>
    rw [List.dropWhile_cons]
    split
    · rename_i skip
      obtain ⟨run, tail⟩ := ih (stream.tail (more t skip))
      exact ⟨.more skip run, tail⟩
    · exact ⟨.none, stream⟩

theorem sound_skipNewlines : Sound (fun _ ts rest => Grammar.Newlines ts rest) skipNewlines := by
  intro ts a rest stream h
  obtain ⟨run, tail⟩ := sound_skipWhile (fun t newline => by simp_all) stream h
  exact ⟨by simpa using run, tail⟩

theorem skipWhile_of_run {skipped : Token → Bool} (run : Grammar.Run (skipped ·) ts (t :: rest))
    (stop : ¬ skipped t) : skipWhile skipped ts = (.ok (), t :: rest) := by
  have dropped : ts.dropWhile skipped = t :: rest := by
    generalize hend : t :: rest = final at run
    induction run with
    | none =>
      rw [← hend, List.dropWhile_cons, if_neg stop]
    | more skip _ ih => rw [List.dropWhile_cons, if_pos skip, ih hend]
  unfold skipWhile
  rw [bind_apply, modify_apply]
  dsimp only
  rw [dropped]
  rfl

theorem skipNewlines_of_run (run : Grammar.Newlines ts (t :: rest)) (stop : t.kind ≠ .newline) :
    skipNewlines ts = (.ok (), t :: rest) :=
  skipWhile_of_run (by simpa using run) (by simpa using stop)

def Looks (test : Reading Bool) : Prop :=
  ∀ {ts rest : List Token} {b : Bool}, test ts = (.ok b, rest) → ts = rest

private theorem sound_itemsWithin {α : Type} {R : α → List Token → List Token → Prop}
    {S : List α → List Token → List Token → Prop} {test : Reading Bool} {item : Reading α}
    (looks : Looks test) (sound : Sound R item) (none : ∀ ts, S [] ts ts)
    (more : ∀ {a as ts mid rest}, R a ts mid → S as mid rest → S (a :: as) ts rest) (n : Nat) :
    Sound S (itemsWithin test item n) := by
  induction n with
  | zero =>
    intro ts as rest stream h
    cases h
  | succ n ih =>
    intro ts as rest stream h
    rw [itemsWithin, bind_eq_ok] at h
    obtain ⟨b, mid, ht, h⟩ := h
    obtain rfl := looks ht
    split at h
    · simp only [bind_eq_ok, pure_eq_ok] at h
      obtain ⟨a, mid, ha, as, last, has, rfl, rfl⟩ := h
      obtain ⟨first, stream⟩ := sound stream ha
      obtain ⟨others, stream⟩ := ih stream has
      exact ⟨more first others, stream⟩
    · obtain ⟨rfl, rfl⟩ := pure_eq_ok.mp h
      exact ⟨none ts, stream⟩

theorem sound_itemsWhile {α : Type} {R : α → List Token → List Token → Prop}
    {S : List α → List Token → List Token → Prop} {test : Reading Bool} {item : Reading α}
    (looks : Looks test) (sound : Sound R item) (none : ∀ ts, S [] ts ts)
    (more : ∀ {a as ts mid rest}, R a ts mid → S as mid rest → S (a :: as) ts rest) :
    Sound S (itemsWhile test item) :=
  fun stream h => sound_itemsWithin looks sound none more _ stream h

theorem stopped_itemsWhile {α : Type} {test : Reading Bool} {item : Reading α} (looks : Looks test)
    {as : List α} {ts rest : List Token} (h : itemsWhile test item ts = (.ok as, rest)) :
    test rest = (.ok false, rest) := by
  have stopped (n : Nat) : ∀ {as : List α} {ts : List Token},
      itemsWithin test item n ts = (.ok as, rest) → test rest = (.ok false, rest) := by
    induction n with
    | zero =>
      intro as ts h
      cases h
    | succ n ih =>
      intro as ts h
      rw [itemsWithin, bind_eq_ok] at h
      obtain ⟨b, mid, ht, h⟩ := h
      obtain rfl := looks ht
      cases b with
      | true =>
        simp only [↓reduceIte, bind_eq_ok, pure_eq_ok] at h
        obtain ⟨a, mid, ha, as, last, has, rfl, rfl⟩ := h
        exact ih has
      | false =>
        obtain ⟨rfl, rfl⟩ := pure_eq_ok.mp h
        exact ht
  exact stopped _ h

/-- What one step from `a` may do when `S` says what a number of steps do: it goes in front of
further steps, or it takes nothing and is the end of them. -/
def Steps {α : Type} (S : α → α → List Token → List Token → Prop) (a : α) :
    Option α → List Token → List Token → Prop
  | some b, ts, rest => ∀ c last, S b c rest last → S a c ts last
  | none, ts, rest => ts = rest

private theorem sound_extendWithin {α : Type} {S : α → α → List Token → List Token → Prop}
    {step : α → Reading (Option α)} (sound : ∀ a, Sound (Steps S a) (step a))
    (none : ∀ a ts, S a a ts ts) (n : Nat) (a : α) : Sound (S a) (extendWithin step n a) := by
  induction n generalizing a with
  | zero =>
    intro ts c rest stream h
    cases h
  | succ n ih =>
    intro ts c rest stream h
    rw [extendWithin, bind_eq_ok] at h
    obtain ⟨b?, mid, hb, h⟩ := h
    obtain ⟨first, smid⟩ := sound a stream hb
    cases b? with
    | some b =>
      obtain ⟨others, srest⟩ := ih b smid h
      exact ⟨first c rest others, srest⟩
    | none =>
      obtain ⟨rfl, rfl⟩ := pure_eq_ok.mp h
      obtain rfl : ts = mid := first
      exact ⟨none a ts, stream⟩

theorem sound_extend {α : Type} {S : α → α → List Token → List Token → Prop}
    {step : α → Reading (Option α)} (sound : ∀ a, Sound (Steps S a) (step a))
    (none : ∀ a ts, S a a ts ts) (a : α) : Sound (S a) (extend step a) :=
  fun stream h => sound_extendWithin sound none _ a stream h

theorem extendWithin_some {α : Type} {step : α → Reading (Option α)} {a b c : α} {n : Nat}
    {ts mid rest : List Token} (first : step a ts = (.ok (some b), mid))
    (others : extendWithin step n b mid = (.ok c, rest)) :
    extendWithin step (n + 1) a ts = (.ok c, rest) := by
  rw [extendWithin, bind_apply_ok first]
  exact others

theorem extendWithin_none {α : Type} {step : α → Reading (Option α)} {a : α} {n : Nat}
    {ts : List Token} (stop : step a ts = (.ok none, ts)) :
    extendWithin step (n + 1) a ts = (.ok a, ts) := by
  rw [extendWithin, bind_apply_ok stop]
  rfl

/-- An item that is read goes before those that are read after it. -/
theorem itemsWithin_more {α : Type} {test : Reading Bool} {item : Reading α} {a : α} {as : List α}
    {n : Nat} {ts mid rest : List Token} (more : test ts = (.ok true, ts))
    (first : item ts = (.ok a, mid)) (others : itemsWithin test item n mid = (.ok as, rest)) :
    itemsWithin test item (n + 1) ts = (.ok (a :: as), rest) := by
  rw [itemsWithin, bind_apply_ok more, if_pos rfl, bind_apply_ok first, bind_apply_ok others]
  rfl

theorem itemsWithin_none {α : Type} {test : Reading Bool} {item : Reading α} {n : Nat}
    {ts : List Token} (stop : test ts = (.ok false, ts)) :
    itemsWithin test item (n + 1) ts = (.ok [], ts) := by
  rw [itemsWithin, bind_apply_ok stop]
  rfl

end Reading

namespace Grammar

open Reading

theorem eq_of_sees {sign : String} {ts rest : List Token} {b : Bool}
    (h : sees sign ts = (.ok b, rest)) : ts = rest := by
  cases ts with
  | nil => cases h
  | cons t ts =>
    cases h
    rfl

theorem looks_argument : Looks (do return !(← sees ")")) := by
  intro ts rest b h
  simp only [bind_eq_ok, pure_eq_ok] at h
  obtain ⟨seen, mid, hs, rfl, rfl⟩ := h
  exact eq_of_sees hs

theorem looks_seesNone (signs : List String) : Looks (seesNone signs) := by
  intro ts rest b h
  cases ts with
  | nil => cases h
  | cons t ts =>
    cases h
    rfl

theorem cases_of_typeOf? {t : Token} {type : Ty} (h : typeOf? t = some type) :
    (t.kind = .identifier ∧ type = .named t.text) ∨ (t.kind = .word "Int" ∧ type = .int) ∨
      (t.kind = .word "String" ∧ type = .string) ∨ (t.kind = .word "void" ∧ type = .void) := by
  unfold typeOf? at h
  split at h
  · exact .inr (.inl ⟨‹_›, (Option.some.inj h).symm⟩)
  · exact .inr (.inr (.inl ⟨‹_›, (Option.some.inj h).symm⟩))
  · exact .inr (.inr (.inr ⟨‹_›, (Option.some.inj h).symm⟩))
  · exact .inl ⟨‹_›, (Option.some.inj h).symm⟩
  · cases h

theorem more_of_typeOf? {t : Token} {type : Ty} (h : typeOf? t = some type) :
    t.kind ≠ .endOfInput := by
  rcases cases_of_typeOf? h with ⟨kind, -⟩ | ⟨kind, -⟩ | ⟨kind, -⟩ | ⟨kind, -⟩ <;> simp [kind]

theorem more_of_isStray {t : Token} (h : isStray t) : t.kind ≠ .endOfInput := by
  simp only [isStray, Bool.and_eq_true, decide_eq_true_eq] at h
  exact h.2

theorem more_of_declaresObject {t : Token} {a : List Token} (h : DeclaresObject (t :: a)) :
    t.kind ≠ .endOfInput := by
  cases a with
  | nil => exact h.elim
  | cons u b => simp [h.1]

/-- The look at the first two tokens finds exactly the declarations of class variables. -/
theorem seesClassVariable_cons {t : Token} {a : List Token} (stream : Stream (t :: a)) :
    ∃ b, seesClassVariable (t :: a) = (.ok b, t :: a) ∧ (b ↔ DeclaresObject (t :: a)) := by
  unfold seesClassVariable
  rw [current_bind]
  by_cases candidate : t.kind = .identifier ∧ isCapitalized t
  · have sa := stream.tail (by simp [candidate.1])
    obtain ⟨u, b, rfl⟩ := sa.exists_cons
    rw [if_pos (by simpa using candidate)]
    exact ⟨decide (u.kind = .identifier), rfl, by simp [DeclaresObject, candidate]⟩
  · rw [if_neg (by simpa using candidate)]
    refine ⟨false, rfl, ?_⟩
    cases a with
    | nil => simp [DeclaresObject]
    | cons u b =>
      simp only [DeclaresObject, Bool.false_eq_true, false_iff]
      exact fun declares => candidate ⟨declares.1, declares.2.1⟩

end Grammar

end Reading

/-! ## Levels

The levels of operations. Equality, sums, products and primaries are readings of one form, told
apart by the number of their level, which is the precedence of the operators that they join.
-/

section Level

namespace Operator

def signsOf : Nat → List String
  | 1 => ["=="]
  | 2 => ["+", "-"]
  | 3 => ["*", "/"]
  | _ => []

def signs : List String :=
  ["==", "+", "-", "*", "/"]

theorem sign_mem_signs {operator : Operator} (known : operator.precedence ≠ 0) :
    operator.sign ∈ signs := by
  cases operator with
  | unknown => exact absurd rfl known
  | _ => decide

theorem sign_ne {operator : Operator} (known : operator.precedence ≠ 0) {sign : String}
    (other : sign ∉ signs) : operator.sign ≠ sign :=
  ne_of_mem_of_not_mem (sign_mem_signs known) other

theorem sign_mem_operatorTexts {operator : Operator} (known : operator.precedence ≠ 0) :
    operator.sign ∈ operatorTexts := by
  have all : signs ⊆ operatorTexts := by decide
  exact all (sign_mem_signs known)

theorem ofSign_sign {operator : Operator} (known : operator.precedence ≠ 0) :
    ofSign operator.sign = operator := by
  cases operator with
  | unknown => exact absurd rfl known
  | _ => rfl

private theorem mem_signsOf_precedence {operator : Operator} (known : operator.precedence ≠ 0) :
    operator.sign ∈ signsOf operator.precedence := by
  cases operator with
  | unknown => exact absurd rfl known
  | _ => decide

private theorem exists_of_mem_signsOf {level : Nat} {sign : String} (h : sign ∈ signsOf level) :
    ∃ operator : Operator, operator.precedence = level ∧ operator.sign = sign ∧ level ≠ 0 := by
  unfold signsOf at h
  split at h
  · obtain rfl := List.mem_singleton.mp h
    exact ⟨.equal, rfl, rfl, by decide⟩
  · rcases List.mem_cons.mp h with rfl | h
    · exact ⟨.add, rfl, rfl, by decide⟩
    · obtain rfl := List.mem_singleton.mp h
      exact ⟨.subtract, rfl, rfl, by decide⟩
  · rcases List.mem_cons.mp h with rfl | h
    · exact ⟨.multiply, rfl, rfl, by decide⟩
    · obtain rfl := List.mem_singleton.mp h
      exact ⟨.divide, rfl, rfl, by decide⟩
  · cases h

end Operator

theorem Token.Regular.more_of_operator {t : Token} (h : t.Regular) {operator : Operator}
    (spelled : t.spells operator.sign) (known : operator.precedence ≠ 0) :
    t.kind ≠ .endOfInput :=
  h.more_of_spells_ne spelled (Operator.sign_ne known (by decide))

open Operator (signsOf primaryPrecedence)

theorem Token.eq_of_spells {t : Token} {a b : String} (first : t.spells a) (second : t.spells b) :
    a = b :=
  (Token.spells_iff.mp first).1.symm.trans (Token.spells_iff.mp second).1

theorem any_spells_iff {level : Nat} {t : Token} :
    (signsOf level).any t.spells ↔
      ∃ operator : Operator, operator.precedence = level ∧ t.spells operator.sign ∧ level ≠ 0 := by
  rw [List.any_eq_true]
  constructor
  · rintro ⟨sign, known, spelled⟩
    obtain ⟨operator, level, rfl, positive⟩ := Operator.exists_of_mem_signsOf known
    exact ⟨operator, level, spelled, positive⟩
  · rintro ⟨operator, rfl, spelled, positive⟩
    exact ⟨operator.sign, Operator.mem_signsOf_precedence positive, spelled⟩

namespace Grammar

open Reading

variable (nested : Reading Expr)

def level : Nat → Reading Expr
  | 1 => equality nested
  | 2 => sum nested
  | 3 => product nested
  | _ => primary nested

theorem level_primary :
    level nested primaryPrecedence = atom nested >>= extend (access nested) := rfl

theorem level_operation {n : Nat} (positive : 0 < n) (below : n < primaryPrecedence) :
    level nested n =
      level nested (n + 1) >>= extend (operand (signsOf n) (level nested (n + 1))) := by
  match n with
  | 1 | 2 | 3 => rfl
  | n + 4 => exact absurd below (by simp [primaryPrecedence])

end Grammar

end Level

end ScriptLang
