import ScriptLang.Proofs.Grammar.Reading

/-!
Readings go forward. Whatever tokens it is given, a reading takes tokens from the front, never an
end mark, and stops; a repetition never outlasts its bound, because each item takes a token. If it
fails, then at the token in front of it, or because the list has no end mark. The end marks may
stand anywhere, but they carry no text.
-/

set_option autoImplicit false
set_option relaxedAutoImplicit false

namespace ScriptLang

/-- What a failure may be when `rest` is left and `T` holds of all tokens: a fault at the token in
front, or a word `new` found misplaced only after its arguments; an integer token that is no number;
a missing end mark. -/
def ParseFailure.Blames (T : Token → Prop) (rest : List Token) : ParseFailure → Prop
  | .syntaxError e =>
    (∃ t more, rest = t :: more ∧ t.position = e.position) ∨
      e.cause = .newOnNonClass ∧ ∃ t, T t ∧ t.position = e.position
  | .notANumber text =>
    ∃ t, T t ∧ t.kind = .integer ∧ t.text = text ∧ Text.integerValue? text.toList = none
  | .pastEnd => rest = []
  | .unbounded => False

namespace Reading

variable {α β : Type} {T : Token → Prop} {b : Nat}

/-- How a reading goes on a token list: it takes some tokens, and no end mark; if it yields `a`, at
least `least a` tokens. -/
def Goes (T : Token → Prop) (least : α → Nat) (r : Reading α) (ts : List Token) : Prop :=
  ∃ taken, ts = taken ++ (r ts).2 ∧ (∀ t ∈ taken, t.kind ≠ .endOfInput) ∧
    match (r ts).1 with
    | .ok a => least a ≤ taken.length
    | .error e => e.Blames T (r ts).2

/-- How a reading goes on all lists of fewer than `b` tokens. -/
def Proceeds (T : Token → Prop) (b : Nat) (least : α → Nat) (r : Reading α) : Prop :=
  ∀ ts, (∀ t ∈ ts, T t) → ts.length < b → Goes T least r ts

section Steps

variable {least more : α → Nat} {k : α → Nat} {m : β → Nat} {t : Token} {ts : List Token}

private theorem goes_pure {a : α} (none : least a = 0) : Goes T least (pure a) ts :=
  ⟨[], rfl, nofun, none.le⟩

private theorem proceeds_pure {a : α} (none : least a = 0) : Proceeds T b least (pure a) :=
  fun _ _ _ => goes_pure none

private theorem goes_stuck {r : Reading α} {cause : SyntaxCause}
    (stuck : r (t :: ts) = (.error (.syntaxError ⟨cause, t.position⟩), t :: ts)) :
    Goes T least r (t :: ts) := by
  unfold Goes
  rw [stuck]
  exact ⟨[], rfl, nofun, .inl ⟨t, ts, rfl, rfl⟩⟩

private theorem Proceeds.mono {r : Reading α} {b' : Nat} (h : Proceeds T b more r) (fewer : b' ≤ b)
    (less : ∀ a, least a ≤ more a) : Proceeds T b' least r := by
  intro ts known short
  obtain ⟨taken, split, free, result⟩ := h ts known (by omega)
  refine ⟨taken, split, free, ?_⟩
  split at result
  · exact (less _).trans result
  · exact result

theorem Proceeds.fewer {r : Reading α} {b' : Nat} (h : Proceeds T b least r) (fewer : b' ≤ b) :
    Proceeds T b' least r :=
  h.mono fewer fun _ => Nat.le_refl _

theorem Proceeds.any {r : Reading α} (h : Proceeds T b least r) : Proceeds T b (fun _ => 0) r :=
  h.mono (Nat.le_refl b) fun _ => Nat.zero_le _

private theorem Goes.bind {r : Reading α} {next : α → Reading β} (first : Goes T k r ts)
    (known : ∀ t ∈ ts, T t)
    (second : ∀ a rest, (∀ t ∈ rest, T t) → rest.length + k a ≤ ts.length →
      Goes T (fun c => m c - k a) (next a) rest) : Goes T m (r >>= next) ts := by
  obtain ⟨taken, split, free, result⟩ := first
  unfold Goes
  rw [Attempt.bind_apply]
  rcases hr : r ts with ⟨e | a, rest⟩
  · rw [hr] at split result
    exact ⟨taken, split, free, result⟩
  · rw [hr] at split result
    dsimp only at split result ⊢
    have count : ts.length = taken.length + rest.length := by rw [split, List.length_append]
    have kept : ∀ t ∈ rest, T t := fun t there => known t (by rw [split]; simp [there])
    obtain ⟨taken', split', free', result'⟩ := second a rest kept (by omega)
    refine ⟨taken ++ taken', ?_, List.forall_mem_append.mpr ⟨free, free'⟩, ?_⟩
    · rw [List.append_assoc, ← split', split]
    · cases hn : (next a rest).1 with
      | ok c =>
        simp only [hn, List.length_append] at result' ⊢
        omega
      | error e => simpa only [hn] using result'

theorem Proceeds.bind {r : Reading α} {next : α → Reading β} (first : Proceeds T b k r)
    (second : ∀ a, Proceeds T (b - k a) (fun c => m c - k a) (next a)) :
    Proceeds T b m (r >>= next) := by
  intro ts known short
  refine (first ts known short).bind known fun a rest kept fewer => second a rest kept ?_
  omega

private theorem Proceeds.map {r : Reading α} (h : Proceeds T b k r) (f : α → β)
    (same : ∀ a, m (f a) ≤ k a) : Proceeds T b m (f <$> r) := by
  rw [map_eq_pure_bind]
  exact h.bind fun a => proceeds_pure (Nat.sub_eq_zero_of_le (same a))

private theorem proceeds_current {f : Token → Reading β}
    (h : ∀ t ts, T t → (∀ u ∈ ts, T u) → ts.length + 1 < b → Goes T m (f t) (t :: ts)) :
    Proceeds T b m (current >>= f) := by
  intro ts known short
  cases ts with
  | nil => exact ⟨[], rfl, nofun, rfl⟩
  | cons t ts =>
    obtain ⟨front, others⟩ := List.forall_mem_cons.mp known
    exact h t ts front others short

private theorem proceeds_look (f : Token → α) :
    Proceeds T b (fun _ => 0) (do return f (← current) : Reading α) :=
  proceeds_current fun _ _ _ _ _ => goes_pure rfl

theorem proceeds_sees (sign : String) : Proceeds T b (fun _ => 0) (sees sign) :=
  proceeds_look _

private theorem proceeds_here : Proceeds T b (fun _ => 0) here :=
  proceeds_look _

theorem proceeds_unexpected (wanted : Wanted) : Proceeds T b m (unexpected wanted) := by
  intro ts known short
  cases ts with
  | nil => exact ⟨[], rfl, nofun, rfl⟩
  | cons t ts => exact goes_stuck rfl

private theorem proceeds_fault_here (cause : SyntaxCause) :
    Proceeds T b m (do fault cause (← here)) := by
  intro ts known short
  cases ts with
  | nil => exact ⟨[], rfl, nofun, rfl⟩
  | cons t ts => exact goes_stuck rfl

private theorem proceeds_misplaced (known : T t) :
    Proceeds T b m (fault .newOnNonClass t.position) :=
  fun _ _ _ => ⟨[], rfl, nofun, .inr ⟨rfl, t, known, rfl⟩⟩

private theorem goes_cons {r next : Reading β} (same : r (t :: ts) = next ts)
    (notEnd : t.kind ≠ .endOfInput) (h : Goes T (fun c => m c - 1) next ts) :
    Goes T m r (t :: ts) := by
  obtain ⟨taken, split, free, result⟩ := h
  unfold Goes
  rw [same]
  refine ⟨t :: taken, by rw [List.cons_append, ← split],
    List.forall_mem_cons.mpr ⟨notEnd, free⟩, ?_⟩
  cases hn : (next ts).1 with
  | ok c =>
    simp only [hn, List.length_cons] at result ⊢
    omega
  | error e => simpa only [hn] using result

private theorem goes_advance {next : Reading β} (notEnd : t.kind ≠ .endOfInput)
    (h : Goes T (fun c => m c - 1) next ts) : Goes T m (do discard advance; next) (t :: ts) :=
  goes_cons (advance_bind notEnd) notEnd h

private theorem proceeds_name (what : String) {f : Token → Reading β}
    (h : ∀ t, T t → Proceeds T (b - 1) (fun c => m c - 1) (f t)) :
    Proceeds T b m (expectIdentifier what >>= f) := by
  intro ts known short
  cases ts with
  | nil => exact ⟨[], rfl, nofun, rfl⟩
  | cons t ts =>
    obtain ⟨front, others⟩ := List.forall_mem_cons.mp known
    rw [List.length_cons] at short
    by_cases name : t.kind = .identifier
    · exact goes_cons (expectIdentifier_bind name) (by simp [name]) (h t front ts others (by omega))
    · have seen : seesKind .identifier (t :: ts) = (.ok false, t :: ts) := by simp [name]
      have stuck : expectIdentifier what (t :: ts) = (.error (.syntaxError
          ⟨.unexpected (.identifier what) t.found, t.position⟩), t :: ts) := by
        unfold expectIdentifier
        rw [Attempt.bind_apply_ok seen]
        rfl
      exact goes_stuck (Attempt.bind_apply_error stuck)

theorem proceeds_expectIdentifier (what : String) :
    Proceeds T b (fun _ => 1) (expectIdentifier what) := by
  have read : Proceeds T b (fun _ => 1) (expectIdentifier what >>= pure) :=
    proceeds_name what fun _ _ => proceeds_pure rfl
  rwa [bind_pure] at read

end Steps

/-- That the end marks among the tokens of `T` carry no text. -/
def Unlettered (T : Token → Prop) : Prop :=
  ∀ t, T t → t.kind = .endOfInput → t.text = ""

private theorem Unlettered.not_end (h : Unlettered T) {t : Token} (known : T t) {sign : String}
    (spelled : t.spells sign) (nonempty : sign ≠ "") : t.kind ≠ .endOfInput := by
  intro atEnd
  exact nonempty ((Token.spells_iff.mp spelled).1.symm.trans (h t known atEnd))

section Signs

variable {m : β → Nat} (hT : Unlettered T)

include hT

private theorem proceeds_sign {sign : String} (nonempty : sign ≠ "") {next : Reading β}
    (h : Proceeds T (b - 1) (fun c => m c - 1) next) :
    Proceeds T b m (do discard (expect sign); next) := by
  intro ts known short
  cases ts with
  | nil => exact ⟨[], rfl, nofun, rfl⟩
  | cons t ts =>
    obtain ⟨front, others⟩ := List.forall_mem_cons.mp known
    rw [List.length_cons] at short
    by_cases spelled : t.spells sign
    · have notEnd := hT.not_end front spelled nonempty
      have read : expect sign (t :: ts) = (.ok t, ts) := by
        unfold expect
        rw [sees_bind, if_pos spelled]
        exact advance_cons notEnd
      exact goes_cons (Attempt.bind_apply_ok (Attempt.discard_apply_ok read)) notEnd
        (h ts others (by omega))
    · have stuck : expect sign (t :: ts) =
          (.error (.syntaxError ⟨.unexpected (.sign sign) t.found, t.position⟩), t :: ts) := by
        unfold expect
        rw [sees_bind, if_neg spelled]
        rfl
      exact goes_stuck (Attempt.bind_apply_error (Attempt.discard_apply_error stuck))

private theorem proceeds_optional {sign : String} (nonempty : sign ≠ "") {next other : Reading β}
    (yes : Proceeds T (b - 1) (fun c => m c - 1) next) (no : Proceeds T b m other) :
    Proceeds T b m (do if ← sees sign then discard advance; next else other) := by
  intro ts known short
  cases ts with
  | nil => exact ⟨[], rfl, nofun, rfl⟩
  | cons t ts =>
    obtain ⟨front, others⟩ := List.forall_mem_cons.mp known
    unfold Goes
    rw [sees_bind]
    split
    · rename_i spelled
      rw [List.length_cons] at short
      exact goes_advance (hT.not_end front spelled nonempty) (yes ts others (by omega))
    · exact no (t :: ts) known short

end Signs

private theorem proceeds_skipWhile {skipped : Token → Bool}
    (more : ∀ t, skipped t → t.kind ≠ .endOfInput) :
    Proceeds T b (fun _ => 0) (skipWhile skipped) := by
  intro ts known short
  have free : ∀ t ∈ ts.takeWhile skipped, t.kind ≠ .endOfInput := fun t there =>
    more t (List.mem_takeWhile_imp there)
  have read : skipWhile skipped ts = discard current (ts.dropWhile skipped) := rfl
  unfold Goes
  rw [read]
  have split : ts = ts.takeWhile skipped ++ ts.dropWhile skipped :=
    List.takeWhile_append_dropWhile.symm
  cases left : ts.dropWhile skipped with
  | nil => exact ⟨ts.takeWhile skipped, by rwa [left] at split, free, rfl⟩
  | cons t rest => exact ⟨ts.takeWhile skipped, by rwa [left] at split, free, Nat.zero_le _⟩

theorem proceeds_skipNewlines : Proceeds T b (fun _ => 0) skipNewlines :=
  proceeds_skipWhile fun t newline => by simp_all

private theorem proceeds_bounded {least : α → Nat} {r : Nat → Reading α}
    (h : ∀ n, n ≤ b → Proceeds T n least (r n)) : Proceeds T b least (bounded r) :=
  fun ts known short => h (ts.length + 1) short ts known (Nat.lt_succ_self _)

private theorem proceeds_itemsWithin {test : Reading Bool} {item : Reading α}
    (look : Proceeds T b (fun _ => 0) test) (one : Proceeds T b (fun _ => 1) item) {n : Nat}
    (enough : b ≤ n) : Proceeds T b (fun _ => 0) (itemsWithin test item n) := by
  induction n generalizing b with
  | zero =>
    intro ts _ short
    omega
  | succ n ih =>
    rw [itemsWithin]
    refine look.bind fun more => ?_
    split
    · refine one.bind fun a => ?_
      have others := ih (look.fewer (Nat.sub_le b 1)) (one.fewer (Nat.sub_le b 1)) (by omega)
      exact others.bind fun as => proceeds_pure rfl
    · exact proceeds_pure rfl

private theorem proceeds_itemsWhile {test : Reading Bool} {item : Reading α}
    (look : Proceeds T b (fun _ => 0) test) (one : Proceeds T b (fun _ => 1) item) :
    Proceeds T b (fun _ => 0) (itemsWhile test item) :=
  proceeds_bounded fun _ fewer =>
    proceeds_itemsWithin (look.fewer fewer) (one.fewer fewer) (Nat.le_refl _)

/-- How many tokens a step takes at least: one, if it is a step on. -/
def stepLength : Option α → Nat
  | some _ => 1
  | none => 0

private theorem proceeds_extendWithin {step : α → Reading (Option α)}
    (one : ∀ a, Proceeds T b stepLength (step a)) {n : Nat} (enough : b ≤ n) (a : α) :
    Proceeds T b (fun _ => 0) (extendWithin step n a) := by
  induction n generalizing a b with
  | zero =>
    intro ts _ short
    omega
  | succ n ih =>
    rw [extendWithin]
    refine (one a).bind fun found => ?_
    cases found with
    | some c =>
      have shorter d := (one d).fewer (Nat.sub_le b 1)
      exact ih shorter (Nat.sub_le_of_le_add enough) c
    | none => exact proceeds_pure rfl

private theorem proceeds_extend {step : α → Reading (Option α)}
    (one : ∀ a, Proceeds T b stepLength (step a)) (a : α) :
    Proceeds T b (fun _ => 0) (extend step a) :=
  proceeds_bounded fun _ fewer =>
    proceeds_extendWithin (fun c => (one c).fewer fewer) (Nat.le_refl _) a

end Reading

namespace Grammar

open Reading

variable {T : Token → Prop} {b : Nat}

private theorem proceeds_operand (hT : Unlettered T) {signs : List String} {level : Reading Expr}
    (nonempty : ∀ sign ∈ signs, sign ≠ "") (one : Proceeds T b (fun _ => 1) level)
    (left : Expr) : Proceeds T b stepLength (operand signs level left) := by
  unfold operand
  refine proceeds_current fun t ts known others short => ?_
  split
  · rename_i spelled
    obtain ⟨sign, member, spelled⟩ := List.any_eq_true.mp spelled
    refine goes_advance (hT.not_end known spelled (nonempty sign member)) ?_
    exact (one.bind fun _ => proceeds_pure rfl) ts others (by omega)
  · exact goes_pure rfl

theorem proceeds_level (hT : Unlettered T) {signs : List String} {level : Reading Expr}
    (nonempty : ∀ sign ∈ signs, sign ≠ "") (one : Proceeds T b (fun _ => 1) level) :
    Proceeds T b (fun _ => 1) (do extend (operand signs level) (← level)) := by
  refine one.bind fun left => ?_
  exact (proceeds_extend (proceeds_operand hT nonempty one) left).mono (Nat.sub_le _ _)
    fun _ => Nat.zero_le _

section Nested

variable {nested : Reading Expr} (hT : Unlettered T) (hn : Proceeds T b (fun _ => 1) nested)

include hT hn

theorem proceeds_arguments : Proceeds T (b + 1) (fun _ => 1) (arguments nested) := by
  unfold arguments
  refine proceeds_sign hT (by decide) ?_
  have test : Proceeds T b (fun _ => 0) (do return !(← sees ")")) :=
    (proceeds_sees _).bind fun _ => proceeds_pure rfl
  refine (proceeds_itemsWhile test hn).bind fun args => ?_
  exact proceeds_sign hT (by decide) (proceeds_pure rfl)

theorem proceeds_atom : Proceeds T (b + 1) (fun _ => 1) (atom nested) := by
  unfold atom
  refine proceeds_current fun t ts known others short => ?_
  split
  · rename_i kind
    refine goes_advance (by simp [kind]) ?_
    cases value : Text.integerValue? t.text.toList with
    | some n => exact goes_pure rfl
    | none => exact ⟨[], rfl, nofun, t, known, kind, rfl, value⟩
  · rename_i kind
    refine goes_advance (by simp [kind]) ?_
    split
    · exact goes_pure rfl
    · exact goes_pure rfl
  · rename_i kind
    refine goes_advance (by simp [kind]) ?_
    have name : Proceeds T b (fun _ => 0) (do
        if ← sees "(" then return Expr.functionCall t.position t.text (← arguments nested)
        else return Expr.identifier t.position t.text) := by
      refine (proceeds_sees _).bind fun opens => ?_
      split
      · have args := (proceeds_arguments hT hn).mono (Nat.le_succ b) fun _ => Nat.zero_le 1
        exact args.bind fun _ => proceeds_pure rfl
      · exact proceeds_pure rfl
    exact name ts others (by omega)
  · have inner : Proceeds T (b + 1) (fun _ => 1) (do
        if ← sees "(" then
          discard advance
          let inner ← nested
          discard (expect ")")
          return inner
        else unexpected .expression) := by
      refine proceeds_optional hT (by decide) ?_ ?_
      · refine (hn.fewer (Nat.le_refl _)).bind fun e => ?_
        exact proceeds_sign hT (by decide) (proceeds_pure rfl)
      · exact proceeds_unexpected _
    exact inner (t :: ts) (List.forall_mem_cons.mpr ⟨known, others⟩) short

private theorem proceeds_access (receiver : Expr) :
    Proceeds T (b + 1) stepLength (access nested receiver) := by
  unfold access
  refine proceeds_optional hT (by decide) ?_ (proceeds_pure rfl)
  refine proceeds_name _ fun name known => ?_
  refine (proceeds_sees _).bind fun opens => ?_
  split
  · have args : Proceeds T (b - 1) (fun _ => 0) (arguments nested) :=
      (proceeds_arguments hT hn).mono (by omega) fun _ => Nat.zero_le 1
    refine args.bind fun as => ?_
    split
    · split
      · exact proceeds_pure rfl
      · exact proceeds_misplaced known
    · exact proceeds_pure rfl
  · exact proceeds_pure rfl

theorem proceeds_primary : Proceeds T (b + 1) (fun _ => 1) (primary nested) := by
  unfold primary
  refine (proceeds_atom hT hn).bind fun a => ?_
  exact (proceeds_extend (proceeds_access hT hn) a).mono (Nat.sub_le _ _) fun _ => Nat.zero_le _

theorem proceeds_equality : Proceeds T (b + 1) (fun _ => 1) (equality nested) :=
  proceeds_level hT (by decide) <| proceeds_level hT (by decide) <|
    proceeds_level hT (by decide) <| proceeds_primary hT hn

end Nested

private theorem proceeds_expressionWithin (hT : Unlettered T) {n : Nat} (enough : b ≤ n) :
    Proceeds T b (fun _ => 1) (expressionWithin n) := by
  induction n generalizing b with
  | zero =>
    intro ts _ short
    omega
  | succ n ih =>
    exact (proceeds_equality hT (ih (Nat.le_refl n))).fewer enough

theorem proceeds_expression (hT : Unlettered T) : Proceeds T b (fun _ => 1) expression :=
  proceeds_bounded fun _ _ => proceeds_expressionWithin hT (Nat.le_refl _)

section Declarations

variable (hT : Unlettered T)

theorem proceeds_terminator (mode : Terminators) :
    Proceeds T b (fun _ => 0) (terminator mode) := by
  unfold terminator
  refine proceeds_current fun t ts known others short => ?_
  split
  · rename_i kind
    have notEnd : t.kind ≠ .endOfInput := by simp [kind]
    have taken : discard advance (t :: ts) = (.ok (), ts) :=
      Attempt.discard_apply_ok (advance_cons notEnd)
    exact goes_cons taken notEnd (goes_pure (a := ()) rfl)
  · exact goes_pure rfl
  · cases mode with
    | strict => exact goes_stuck rfl
    | lenient => exact goes_pure rfl

theorem proceeds_typeRef : Proceeds T b (fun _ => 1) typeRef := by
  unfold typeRef
  refine proceeds_current fun t ts known others short => ?_
  cases found : typeOf? t with
  | some type => exact goes_advance (more_of_typeOf? found) (goes_pure rfl)
  | none => exact goes_stuck rfl

include hT

theorem proceeds_closing (mode : Terminators) : Proceeds T b (fun _ => 1) (closing mode) :=
  proceeds_sign hT (by decide) (proceeds_terminator mode)

private theorem proceeds_param : Proceeds T b (fun _ => 1) param := by
  unfold param
  refine proceeds_here.bind fun position => ?_
  refine proceeds_name _ fun name _ => ?_
  refine proceeds_optional hT (by decide) ?_ ?_
  · refine proceeds_typeRef.any.bind fun type => ?_
    exact proceeds_pure rfl
  · exact proceeds_fault_here _

private theorem proceeds_paramsWithin {n : Nat} (enough : b ≤ n) :
    Proceeds T b (fun _ => 1) (paramsWithin n) := by
  induction n generalizing b with
  | zero =>
    intro ts _ short
    omega
  | succ n ih =>
    rw [paramsWithin]
    refine (proceeds_param hT).bind fun p => ?_
    refine (proceeds_skipWhile fun _ => more_of_isStray).bind fun _ => ?_
    refine (proceeds_sees _).bind fun last => ?_
    split
    · exact proceeds_pure rfl
    · have others := ih (b := b - 1 - 0 - 0) (by omega)
      exact others.any.bind fun ps => proceeds_pure rfl

theorem proceeds_params : Proceeds T b (fun _ => 1) params := by
  unfold params
  refine proceeds_sign hT (by decide) ?_
  refine proceeds_optional hT (by decide) (proceeds_pure rfl) ?_
  have some : Proceeds T (b - 1) (fun _ => 0) (bounded paramsWithin) :=
    proceeds_bounded fun _ _ => (proceeds_paramsWithin hT (Nat.le_refl _)).any
  refine some.bind fun ps => ?_
  exact proceeds_sign hT (by decide) (proceeds_pure rfl)

omit hT in
theorem proceeds_returnType : Proceeds T b (fun _ => 1) returnType := by
  unfold returnType
  refine proceeds_current fun t ts known others short => ?_
  split
  · rename_i arrow
    have kind : t.kind = .operator := by simp_all
    refine goes_advance (by simp [kind]) ?_
    exact (proceeds_typeRef (b := b)).any ts others (by omega)
  · exact goes_stuck rfl

theorem proceeds_signature (mode : Terminators) (what : String) :
    Proceeds T b (fun _ => 1) (signature mode what) := by
  unfold signature
  refine proceeds_here.bind fun position => ?_
  refine proceeds_sign hT (by decide) ?_
  refine proceeds_name _ fun name _ => ?_
  refine (proceeds_params hT).any.bind fun ps => ?_
  refine proceeds_returnType.any.bind fun returns => ?_
  exact (proceeds_terminator mode).bind fun _ => proceeds_pure rfl

omit hT in
theorem proceeds_field (mode : Terminators) : Proceeds T b (fun _ => 1) (field mode) := by
  unfold field
  refine proceeds_here.bind fun position => ?_
  refine proceeds_typeRef.bind fun type => ?_
  refine proceeds_name _ fun name _ => ?_
  exact (proceeds_terminator mode).bind fun _ => proceeds_pure rfl

end Declarations

section Statements

variable {nested : Reading Stmt}

private theorem proceeds_seesNone (signs : List String) :
    Proceeds T b (fun _ => 0) (seesNone signs) :=
  proceeds_look _

private theorem proceeds_seesClassVariable : Proceeds T b (fun _ => 0) seesClassVariable := by
  unfold seesClassVariable
  refine proceeds_current fun t ts known others short => ?_
  split
  · cases ts with
    | nil => exact ⟨[], rfl, nofun, Nat.le_refl 0⟩
    | cons u ts => exact ⟨[], rfl, nofun, Nat.le_refl 0⟩
  · exact goes_pure rfl

private theorem proceeds_statements {test : Reading Bool} (look : Proceeds T b (fun _ => 0) test)
    (one : Proceeds T b (fun _ => 1) nested) :
    Proceeds T b (fun _ => 0) (statements nested test) := by
  unfold statements
  refine proceeds_skipNewlines.bind fun _ => proceeds_itemsWhile look ?_
  exact one.bind fun s => proceeds_skipNewlines.bind fun _ => proceeds_pure rfl

theorem proceeds_block (stops : List String) (one : Proceeds T b (fun _ => 1) nested) :
    Proceeds T b (fun _ => 0) (block nested stops) :=
  proceeds_statements (proceeds_seesNone stops) one

variable (hT : Unlettered T)

include hT

theorem proceeds_variableDeclaration (mode : Terminators) :
    Proceeds T b (fun _ => 1) (variableDeclaration mode) := by
  unfold variableDeclaration
  refine proceeds_here.bind fun position => ?_
  refine proceeds_typeRef.bind fun type => ?_
  refine proceeds_name _ fun name _ => ?_
  refine proceeds_sign hT (by decide) ?_
  refine (proceeds_expression hT).any.bind fun value => ?_
  exact (proceeds_terminator mode).bind fun _ => proceeds_pure rfl

theorem proceeds_expressionStatement (mode : Terminators) :
    Proceeds T b (fun _ => 1) (expressionStatement mode) := by
  unfold expressionStatement
  refine proceeds_here.bind fun position => ?_
  refine (proceeds_expression hT).bind fun expr => ?_
  refine proceeds_optional hT (by decide) ?_ ?_
  · refine (proceeds_expression hT).any.bind fun value => ?_
    exact (proceeds_terminator mode).bind fun _ => proceeds_pure rfl
  · exact (proceeds_terminator mode).bind fun _ => proceeds_pure rfl

theorem proceeds_interfaceDeclaration (mode : Terminators) :
    Proceeds T b (fun _ => 1) (interfaceDeclaration mode) := by
  unfold interfaceDeclaration
  refine proceeds_here.bind fun position => ?_
  refine proceeds_sign hT (by decide) ?_
  refine proceeds_name _ fun name _ => ?_
  refine (proceeds_terminator mode).bind fun _ => ?_
  refine proceeds_skipNewlines.bind fun _ => ?_
  refine (proceeds_itemsWhile (proceeds_seesNone _) ?_).bind fun methods => ?_
  · refine (proceeds_signature hT mode _).bind fun m => ?_
    exact proceeds_skipNewlines.bind fun _ => proceeds_pure rfl
  · refine (proceeds_closing hT mode).any.bind fun _ => ?_
    exact proceeds_pure rfl

variable (hn : Proceeds T b (fun _ => 1) nested)

include hn

theorem proceeds_routine (mode : Terminators) (what : String) :
    Proceeds T (b + 1) (fun _ => 1) (routine mode nested what) := by
  unfold routine
  refine (proceeds_signature hT mode what).bind fun head => ?_
  refine (proceeds_block _ hn).bind fun body => ?_
  refine (proceeds_closing hT mode).any.bind fun _ => ?_
  exact proceeds_pure rfl

theorem proceeds_conditional (mode : Terminators) :
    Proceeds T (b + 1) (fun _ => 1) (conditional mode nested) := by
  unfold conditional
  refine proceeds_here.bind fun position => ?_
  refine proceeds_sign hT (by decide) ?_
  refine (proceeds_expression hT).any.bind fun condition => ?_
  refine (proceeds_terminator mode).bind fun _ => ?_
  refine (proceeds_block _ hn).bind fun thenBody => ?_
  have rest (elseBody : Option (List Stmt)) : Proceeds T b (fun _ => 0) (do
      closing mode
      return Stmt.conditional position condition thenBody elseBody) :=
    (proceeds_closing hT mode).any.bind fun _ => proceeds_pure rfl
  refine proceeds_optional hT (by decide) ?_ (rest none)
  refine (proceeds_terminator mode).bind fun _ => ?_
  have elses := (proceeds_block ["end"] hn).map (m := fun _ => 0) some fun _ => Nat.le_refl 0
  exact (elses.bind rest).fewer (Nat.sub_le b 1)

private theorem proceeds_member (mode : Terminators) :
    Proceeds T (b + 1) (fun _ => 1) (member mode nested) := by
  unfold member
  have rest (m : Member) : Proceeds T b (fun _ => 0) (do
      skipNewlines
      return m) :=
    proceeds_skipNewlines.bind fun _ => proceeds_pure rfl
  refine (proceeds_sees _).bind fun defined => ?_
  dsimp only
  split
  · have method := (proceeds_routine hT hn mode "method name").map (m := fun _ => 1) Member.method
      fun _ => Nat.le_refl 1
    exact method.bind rest
  · have field := (proceeds_field (T := T) (b := b + 1) mode).map (m := fun _ => 1) Member.field
      fun _ => Nat.le_refl 1
    exact field.bind rest

theorem proceeds_classDeclaration (mode : Terminators) :
    Proceeds T (b + 1) (fun _ => 1) (classDeclaration mode nested) := by
  unfold classDeclaration
  refine proceeds_here.bind fun position => ?_
  refine proceeds_sign hT (by decide) ?_
  refine proceeds_name _ fun name _ => ?_
  have one : Proceeds T (b - 1) (fun _ => 1) (member mode nested) :=
    (proceeds_member hT hn mode).fewer (by omega)
  have rest (implements : Option String) : Proceeds T (b - 1) (fun _ => 0) (do
      terminator mode
      skipNewlines
      let members ← itemsWhile (seesNone ["end"]) (member mode nested)
      closing mode
      return (⟨position, name.text, implements, members.filterMap Member.field?,
        members.filterMap Member.method?⟩ : ClassDecl)) := by
    refine (proceeds_terminator mode).bind fun _ => ?_
    refine proceeds_skipNewlines.bind fun _ => ?_
    refine (proceeds_itemsWhile (proceeds_seesNone _) one).bind fun members => ?_
    refine (proceeds_closing hT mode).any.bind fun _ => ?_
    exact proceeds_pure rfl
  refine proceeds_optional hT (by decide) ?_ (rest none)
  have face := proceeds_expectIdentifier (T := T) (b := b - 1) "interface name after 'implements'"
  have text := (face.map (m := fun _ => 0) Token.text fun _ => Nat.zero_le 1).map
    (m := fun _ => 0) some fun _ => Nat.le_refl 0
  exact (text.bind rest).fewer (by omega)

private theorem proceeds_statementWith (mode : Terminators) :
    Proceeds T (b + 1) (fun _ => 1) (statementWith mode nested) := by
  unfold statementWith
  refine proceeds_current fun t ts known others short => ?_
  have all := List.forall_mem_cons.mpr ⟨known, others⟩
  have body := proceeds_routine hT hn mode "function name"
  split
  · exact proceeds_variableDeclaration hT mode (t :: ts) all short
  · exact proceeds_variableDeclaration hT mode (t :: ts) all short
  · exact proceeds_variableDeclaration hT mode (t :: ts) all short
  · exact body.map (m := fun _ => 1) Stmt.function (fun _ => Nat.le_refl 1) (t :: ts) all short
  · exact proceeds_conditional hT hn mode (t :: ts) all short
  · exact (proceeds_classDeclaration hT hn mode).map (m := fun _ => 1) Stmt.classDecl
      (fun _ => Nat.le_refl 1) (t :: ts) all short
  · exact (proceeds_interfaceDeclaration hT mode).map (m := fun _ => 1) Stmt.interfaceDecl
      (fun _ => Nat.le_refl 1) (t :: ts) all short
  · have unreserved : Proceeds T (b + 1) (fun _ => 1) (do
        if ← seesClassVariable then variableDeclaration mode else expressionStatement mode) := by
      refine proceeds_seesClassVariable.bind fun declares => ?_
      split
      · exact proceeds_variableDeclaration hT mode
      · exact proceeds_expressionStatement hT mode
    exact unreserved (t :: ts) all short

end Statements

private theorem proceeds_statementWithin (hT : Unlettered T) (mode : Terminators) {n : Nat}
    (enough : b ≤ n) : Proceeds T b (fun _ => 1) (statementWithin mode n) := by
  induction n generalizing b with
  | zero =>
    intro ts _ short
    omega
  | succ n ih =>
    exact (proceeds_statementWith hT (ih (Nat.le_refl n)) mode).fewer enough

theorem proceeds_statement (hT : Unlettered T) (mode : Terminators) :
    Proceeds T b (fun _ => 1) (statement mode) :=
  proceeds_bounded fun _ _ => proceeds_statementWithin hT mode (Nat.le_refl _)

theorem proceeds_program (hT : Unlettered T) (mode : Terminators) :
    Proceeds T b (fun _ => 0) (program mode) := by
  unfold program
  refine (proceeds_statements (proceeds_seesNone []) (proceeds_statement hT mode)).bind fun ss => ?_
  exact proceeds_pure rfl

end Grammar

theorem Stream.unlettered {tokens : List Token} (stream : Stream tokens) :
    Reading.Unlettered (· ∈ tokens) := by
  intro t there atEnd
  simpa [Token.Regular, atEnd] using stream.forall_regular t there

private theorem Stream.exists_end {tokens : List Token} (h : Stream tokens) :
    ∃ t ∈ tokens, t.kind = .endOfInput := by
  induction h with
  | last atEnd _ => exact ⟨_, List.mem_cons_self, atEnd⟩
  | cons _ _ _ ih =>
    obtain ⟨t, there, atEnd⟩ := ih
    exact ⟨t, List.mem_cons_of_mem _ there, atEnd⟩

/-- The tokens of a text spell a program, or they hold a fault at one of them. -/
theorem Program.exists_fault_of_ofTokens {tokens : List Token} (stream : Stream tokens)
    {mode : Terminators} {failure : ParseFailure} (h : ofTokens mode tokens = .error failure) :
    ∃ e, failure = .syntaxError e ∧ ∃ t ∈ tokens, t.position = e.position := by
  have regular := stream.forall_regular
  obtain ⟨taken, split, free, result⟩ := Grammar.proceeds_program stream.unlettered mode tokens
    (fun _ there => there) (Nat.lt_succ_self _)
  rw [ofTokens] at h
  simp only [h] at result
  cases failure with
  | syntaxError e =>
    refine ⟨e, rfl, ?_⟩
    obtain ⟨t, more, left, place⟩ | ⟨-, t, there, place⟩ := result
    · exact ⟨t, by rw [split, left]; simp, place⟩
    · exact ⟨t, there, place⟩
  | notANumber text =>
    obtain ⟨t, there, kind, rfl, unread⟩ := result
    have digits := regular t there
    rw [Token.Regular, kind] at digits
    rw [Text.integerValue?_of_digits (by simpa using digits.1) digits.2.1 digits.2.2.1] at unread
    cases unread
  | pastEnd =>
    obtain ⟨t, there, atEnd⟩ := stream.exists_end
    rw [show (Grammar.program mode tokens).2 = [] from result, List.append_nil] at split
    exact absurd atEnd (free t (split ▸ there))
  | unbounded => exact result.elim

end ScriptLang
