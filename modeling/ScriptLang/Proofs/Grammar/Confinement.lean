import ScriptLang.Proofs.Grammar.Production
import ScriptLang.Proofs.Grammar.Progress

/-!
Readings end, and stay in front of the first end mark. The tokens in any list may be of any kind
and order, as long as its end marks carry no text. No production takes an end mark, and none looks
at a token behind the one that it stops at; so what stands behind the first end mark is never read.
-/

set_option autoImplicit false
set_option relaxedAutoImplicit false

namespace ScriptLang

open Attempt

namespace Reading

variable {α β : Type} {more : List Token}

/-- A reading and another that does the same when `more` tokens follow. Where the one does not come
to the end of its tokens, the other reads them in the same way; where it does, the other reads them
all. If the one comes to its bound, which the length of the list sets, nothing is asked. -/
structure Extends (more : List Token) (r r' : Reading α) : Prop where
  shrinks : ∀ ts, (r ts).2 <:+ ts
  shrinks' : ∀ ts, (r' ts).2 <:+ ts
  agrees : ∀ {ts result rest}, r ts = (result, rest) → result ≠ .error .unbounded → rest ≠ [] →
    r' (ts ++ more) = (result, rest ++ more)
  passes : ∀ {ts result}, r ts = (result, []) → result ≠ .error .unbounded →
    (r' (ts ++ more)).2 <:+ more

private theorem suffix_bind {r : Reading α} {next : α → Reading β} {ts us : List Token}
    (first : (r ts).2 <:+ us) (second : ∀ a ts, (next a ts).2 <:+ ts) :
    ((r >>= next) ts).2 <:+ us := by
  rcases hr : r ts with ⟨e | a, mid⟩
  · rw [hr] at first
    rwa [bind_apply_error hr]
  · rw [hr] at first
    rw [bind_apply_ok hr]
    exact (second a mid).trans first

namespace Extends

variable {r r' : Reading α}

theorem bind {next next' : α → Reading β} (first : Extends more r r')
    (second : ∀ a, Extends more (next a) (next' a)) :
    Extends more (r >>= next) (r' >>= next') where
  shrinks ts := suffix_bind (first.shrinks ts) fun a => (second a).shrinks
  shrinks' ts := suffix_bind (first.shrinks' ts) fun a => (second a).shrinks'
  agrees {ts result rest} read bounded left := by
    rcases hr : r ts with ⟨e | a, mid⟩
    · obtain ⟨rfl, rfl⟩ := Prod.mk.inj ((bind_apply_error hr).symm.trans read)
      have alike := first.agrees hr (by simpa using bounded) left
      exact bind_apply_error alike
    · rw [bind_apply_ok hr] at read
      -- The second part leaves tokens, so the first one left some too.
      have some : mid ≠ [] := by
        rintro rfl
        have none := (second a).shrinks []
        rw [read] at none
        exact left (List.suffix_nil.mp none)
      rw [bind_apply_ok (first.agrees hr nofun some)]
      exact (second a).agrees read bounded left
  passes {ts result} read bounded := by
    have further (behind : (r' (ts ++ more)).2 <:+ more) :
        ((r' >>= next') (ts ++ more)).2 <:+ more :=
      suffix_bind behind fun a => (second a).shrinks'
    rcases hr : r ts with ⟨e | a, mid⟩
    · obtain ⟨rfl, rfl⟩ := Prod.mk.inj ((bind_apply_error hr).symm.trans read)
      exact further (first.passes hr (by simpa using bounded))
    · cases mid with
      | nil => exact further (first.passes hr nofun)
      | cons t mid =>
        rw [bind_apply_ok hr] at read
        rw [bind_apply_ok (first.agrees hr nofun (List.cons_ne_nil t mid))]
        exact (second a).passes read bounded

private theorem of_front (result : Token → Except ParseFailure α) (takes : Token → Bool)
    (none : r [] = (.error .pastEnd, []))
    (some : ∀ t ts, r (t :: ts) = (result t, if takes t then ts else t :: ts)) :
    Extends more r r := by
  have shrinks (ts : List Token) : (r ts).2 <:+ ts := by
    cases ts with
    | nil => simp [none]
    | cons t ts =>
      rw [some]
      dsimp only
      split
      · exact List.suffix_cons t ts
      · exact List.suffix_rfl
  refine ⟨shrinks, shrinks, ?_, ?_⟩
  · intro ts result rest read _ left
    cases ts with
    | nil =>
      rw [none] at read
      cases read
      exact absurd rfl left
    | cons t ts =>
      rw [some] at read
      cases read
      rw [List.cons_append, some]
      split <;> rfl
  · intro ts result read _
    cases ts with
    | nil => exact shrinks more
    | cons t ts =>
      rw [some] at read
      rw [List.cons_append, some]
      by_cases taken : takes t
      · obtain rfl : ts = [] := by simpa [taken] using congrArg Prod.snd read
        simp [taken]
      · simpa [taken] using congrArg Prod.snd read

private theorem of_same {result : Except ParseFailure α} (same : ∀ ts, r ts = (result, ts)) :
    Extends more r r where
  shrinks ts := by simp [same]
  shrinks' ts := by simp [same]
  agrees {ts result rest} read _ _ := by
    rw [same] at read ⊢
    cases read
    rfl
  passes {ts result} read _ := by
    rw [same] at read ⊢
    cases read
    exact List.suffix_rfl

private theorem of_cases
    (same : ∀ ts, ∃ s, Extends more s s ∧ r ts = s ts ∧ r (ts ++ more) = s (ts ++ more)) :
    Extends more r r := by
  have shrinks (ts : List Token) : (r ts).2 <:+ ts := by
    obtain ⟨s, h, alone, -⟩ := same ts
    rw [alone]
    exact h.shrinks ts
  refine ⟨shrinks, shrinks, ?_, ?_⟩
  · intro ts result rest read bounded left
    obtain ⟨s, h, alone, behind⟩ := same ts
    rw [behind]
    exact h.agrees (alone.symm.trans read) bounded left
  · intro ts result read bounded
    obtain ⟨s, h, alone, behind⟩ := same ts
    rw [behind]
    exact h.passes (alone.symm.trans read) bounded

theorem skipWhile (skipped : Token → Bool) :
    Extends more (Reading.skipWhile skipped) (Reading.skipWhile skipped) := by
  have read (ts : List Token) :
      Reading.skipWhile skipped ts = discard current (ts.dropWhile skipped) := rfl
  have shrinks (ts : List Token) : (Reading.skipWhile skipped ts).2 <:+ ts := by
    rw [read]
    have suffix := List.dropWhile_suffix (l := ts) skipped
    rcases left : ts.dropWhile skipped with _ | ⟨t, rest⟩
    · exact List.nil_suffix
    · rwa [left] at suffix
  refine ⟨shrinks, shrinks, ?_, ?_⟩
  · intro ts result rest h _ some
    rw [read] at h ⊢
    rcases left : ts.dropWhile skipped with _ | ⟨t, rest⟩
    · rw [left] at h
      cases h
      exact absurd rfl some
    · rw [left] at h
      cases h
      rw [List.dropWhile_append, left]
      rfl
  · intro ts result h _
    rw [read] at h
    rcases left : ts.dropWhile skipped with _ | ⟨t, rest⟩
    · rw [read, List.dropWhile_append, left, List.isEmpty_nil, if_pos rfl, ← read]
      exact shrinks more
    · rw [left] at h
      cases h

end Extends

end Reading

namespace Grammar

open Reading

variable {α : Type} {mode : Terminators} {more : List Token}

theorem extends_current : Extends more current current :=
  .of_front .ok (fun _ => false) rfl fun _ _ => rfl

theorem extends_advance : Extends more advance advance := by
  refine .of_front .ok (fun t => t.kind ≠ .endOfInput) rfl fun t ts => ?_
  by_cases atEnd : t.kind = .endOfInput <;> simp [advance, atEnd]

theorem extends_terminator (mode : Terminators) :
    Extends more (terminator mode) (terminator mode) := by
  let result (t : Token) : Except ParseFailure Unit :=
    if t.kind = .newline ∨ t.kind = .endOfInput ∨ mode = .lenient then .ok ()
    else .error (.syntaxError ⟨.unexpected .newline t.found, t.position⟩)
  refine .of_front result (fun t => t.kind = .newline) rfl fun t ts => ?_
  unfold terminator
  rw [current_bind]
  cases kind : t.kind with
  | newline =>
    have taken : discard advance (t :: ts) = (.ok (), ts) :=
      discard_apply_ok (advance_cons (by simp [kind]))
    simp [taken, kind, result]
  | endOfInput => simp [kind, result]
  | _ =>
    cases mode with
    | strict => simp [kind, result]
    | lenient => simp [result]

private theorem variableDeclaration_singleton {t : Token} (name : t.kind = .identifier) :
    variableDeclaration mode [t] = (.error .pastEnd, []) := by
  have type : typeRef [t] = (.ok ⟨t.position, .named t.text⟩, []) := by
    have named : typeOf? t = some (.named t.text) := by simp [typeOf?, name]
    simp only [typeRef, current_bind, named]
    exact advance_bind (by simp [name])
  rw [variableDeclaration, here_bind, bind_apply_ok type]
  rfl

private theorem expressionStatement_singleton {t : Token} (name : t.kind = .identifier) :
    expressionStatement mode [t] = (.error .pastEnd, []) := by
  have atom : atom (expressionWithin 1) [t] = (.error .pastEnd, []) := by
    simp only [atom, current_bind, name]
    exact (advance_bind (by simp [name])).trans rfl
  have primary : primary (expressionWithin 1) [t] = (.error .pastEnd, []) := bind_apply_error atom
  have product : product (expressionWithin 1) [t] = (.error .pastEnd, []) :=
    bind_apply_error primary
  have sum : sum (expressionWithin 1) [t] = (.error .pastEnd, []) := bind_apply_error product
  have expression : expression [t] = (.error .pastEnd, []) := bind_apply_error sum
  rw [expressionStatement, here_bind, bind_apply_error expression]

/-- A declaration of a class variable if one stands in front, else what begins with an
expression. -/
def unreserved (mode : Terminators) : Reading Stmt := do
  if ← seesClassVariable then variableDeclaration mode else expressionStatement mode

private theorem unreserved_apply {t u : Token} {ts : List Token}
    (second : following (t :: ts) = (.ok u, t :: ts)) :
    unreserved mode (t :: ts) =
      if (t.kind = .identifier ∧ isCapitalized t) ∧ u.kind = .identifier
      then variableDeclaration mode (t :: ts) else expressionStatement mode (t :: ts) := by
  have seen : seesClassVariable (t :: ts) = (.ok (decide
      ((t.kind = .identifier ∧ isCapitalized t) ∧ u.kind = .identifier)), t :: ts) := by
    unfold seesClassVariable
    rw [current_bind]
    by_cases candidate : t.kind = .identifier ∧ isCapitalized t
    · rw [if_pos (by simpa using candidate), bind_apply_ok second]
      simp [candidate]
    · rw [if_neg (by simpa using candidate)]
      simp [candidate]
  rw [unreserved, bind_apply_ok seen]
  by_cases declares : (t.kind = .identifier ∧ isCapitalized t) ∧ u.kind = .identifier
  · simp only [declares]
    rfl
  · simp only [declares]
    rfl

private theorem unreserved_of_ne {t : Token} (other : t.kind ≠ .identifier) (ts : List Token) :
    unreserved mode (t :: ts) = expressionStatement mode (t :: ts) := by
  cases ts with
  | nil => rw [unreserved_apply rfl, if_neg fun declares => other declares.1.1]
  | cons u ts => rw [unreserved_apply rfl, if_neg fun declares => other declares.1.1]

theorem unreserved_eq_or_eq (mode : Terminators) (ts : List Token) :
    unreserved mode ts = variableDeclaration mode ts ∨
      unreserved mode ts = expressionStatement mode ts := by
  match ts with
  | [] => exact .inl rfl
  | [t] =>
    rw [unreserved_apply rfl]
    exact ite_eq_or_eq _ _ _
  | t :: u :: ts =>
    rw [unreserved_apply rfl]
    exact ite_eq_or_eq _ _ _

/-- The look at a second token does not matter where there is none: either statement would come to
the end of the tokens. -/
private theorem extends_unreserved
    (yes : Extends more (variableDeclaration mode) (variableDeclaration mode))
    (no : Extends more (expressionStatement mode) (expressionStatement mode)) :
    Extends more (unreserved mode) (unreserved mode) := by
  refine .of_cases fun ts => ?_
  match ts with
  | [] =>
    obtain behind | behind := unreserved_eq_or_eq mode more
    · exact ⟨_, yes, rfl, behind⟩
    · exact ⟨_, no, rfl, behind⟩
  | [t] =>
    by_cases name : t.kind = .identifier
    · have stuck : unreserved mode [t] = (.error .pastEnd, []) := by
        rw [unreserved_apply rfl, variableDeclaration_singleton name,
          expressionStatement_singleton name, ite_self]
      obtain behind | behind := unreserved_eq_or_eq mode ([t] ++ more)
      · exact ⟨_, yes, stuck.trans (variableDeclaration_singleton name).symm, behind⟩
      · exact ⟨_, no, stuck.trans (expressionStatement_singleton name).symm, behind⟩
    · exact ⟨_, no, unreserved_of_ne name [], unreserved_of_ne name more⟩
  | t :: u :: ts =>
    by_cases declares : (t.kind = .identifier ∧ isCapitalized t) ∧ u.kind = .identifier
    · refine ⟨_, yes, ?_, ?_⟩
      · rw [unreserved_apply rfl, if_pos declares]
      · rw [List.cons_append, List.cons_append, unreserved_apply rfl, if_pos declares]
    · refine ⟨_, no, ?_, ?_⟩
      · rw [unreserved_apply rfl, if_neg declares]
      · rw [List.cons_append, List.cons_append, unreserved_apply rfl, if_neg declares]

theorem extends_congruence : Congruence mode mode (Extends more) where
  value _ := .of_same fun _ => rfl
  seq := Extends.bind
  failure _ _ := .of_same fun _ => rfl
  misplaced _ := .of_same fun _ => rfl
  look := extends_current
  take := extends_advance
  skip := Extends.skipWhile
  lineEnd := extends_terminator mode
  unreserved := extends_unreserved
  limit h :=
    { shrinks := fun ts => (h _ _ (Nat.le_refl _)).shrinks ts
      shrinks' := fun ts => (h _ _ (Nat.le_refl _)).shrinks' ts
      agrees := fun {ts _ _} => (h (ts.length + 1) ((ts ++ more).length + 1) (by simp)).agrees
      passes := fun {ts _} => (h (ts.length + 1) ((ts ++ more).length + 1) (by simp)).passes }
  exhausted h :=
    { shrinks := fun _ => List.suffix_rfl
      shrinks' := h.shrinks'
      agrees := fun read bounded => by
        cases read
        exact absurd rfl bounded
      passes := fun read bounded => by
        cases read
        exact absurd rfl bounded }

/-- A production does not look behind the token that it stops at: the tokens behind that one may be
any others. -/
theorem Production.reading_of_front (production : Production α) {front more : List Token}
    {t : Token} {result : Except ParseFailure α}
    (ends : (production.reading mode (front ++ [t])).1 ≠ .error .unbounded)
    (read : production.reading mode (front ++ t :: more) = (result, t :: more))
    (more' : List Token) :
    production.reading mode (front ++ t :: more') = (result, t :: more') := by
  have front_append (ts : List Token) : front ++ t :: ts = (front ++ [t]) ++ ts := by simp
  have extended (ts : List Token) :
      Extends ts (production.reading mode) (production.reading mode) :=
    extends_congruence.production production
  rcases stopped : production.reading mode (front ++ [t]) with ⟨result', rest⟩
  rw [stopped] at ends
  have some : rest ≠ [] := by
    rintro rfl
    have behind := (extended more).passes stopped ends
    rw [← front_append, read] at behind
    exact absurd behind.length_le (by simp)
  have alike := (extended more).agrees stopped ends some
  rw [← front_append, read] at alike
  obtain ⟨rfl, left⟩ := Prod.mk.inj alike
  obtain rfl : [t] = rest := List.append_cancel_right left
  rw [front_append, (extended more').agrees stopped ends some]
  rfl

section Progress

variable {T : Token → Prop} {b : Nat}

private theorem proceeds_advance : Proceeds T b (fun _ => 0) advance := by
  intro ts _ _
  cases ts with
  | nil => exact ⟨[], rfl, nofun, rfl⟩
  | cons t ts =>
    by_cases atEnd : t.kind = .endOfInput
    · exact ⟨[], by simp [advance, atEnd], nofun, Nat.le_refl 0⟩
    · exact ⟨[t], by simp [advance, atEnd], by simpa using atEnd, Nat.zero_le 1⟩

private theorem proceeds_expect (sign : String) : Proceeds T b (fun _ => 0) (expect sign) := by
  refine (proceeds_sees sign).bind fun found => ?_
  split
  · exact proceeds_advance
  · exact proceeds_unexpected _

/-- Every production goes forward, and if it has no result, it stops with a failure that it may
have. -/
private theorem proceeds_production (hT : Unlettered T) (mode : Terminators)
    (production : Production α) : Proceeds T b (fun _ => 0) (production.reading mode) := by
  have inner : Proceeds T b (fun _ => 1) expression := proceeds_expression hT
  have nested : Proceeds T b (fun _ => 1) (statement mode) := proceeds_statement hT mode
  have outer {β : Type} {least : β → Nat} {r : Reading β} (h : Proceeds T (b + 1) least r) :
      Proceeds T b (fun _ => 0) r := (h.fewer (Nat.le_succ b)).any
  have primary : Proceeds T b (fun _ => 1) (primary expression) :=
    (proceeds_primary hT inner).fewer (Nat.le_succ b)
  have product : Proceeds T b (fun _ => 1) (product expression) :=
    proceeds_level hT (by decide) primary
  have sum : Proceeds T b (fun _ => 1) (sum expression) := proceeds_level hT (by decide) product
  cases production with
  | advance => exact proceeds_advance
  | expect sign => exact proceeds_expect sign
  | expectIdentifier what => exact (proceeds_expectIdentifier what).any
  | skipNewlines => exact proceeds_skipNewlines
  | terminator => exact proceeds_terminator mode
  | closing => exact (proceeds_closing hT mode).any
  | program => exact proceeds_program hT mode
  | block stops => exact proceeds_block stops nested
  | statement => exact nested.any
  | variableDeclaration => exact (proceeds_variableDeclaration hT mode).any
  | functionDefinition => exact outer (proceeds_routine hT nested mode _)
  | params => exact (proceeds_params hT).any
  | returnType => exact proceeds_returnType.any
  | conditional => exact outer (proceeds_conditional hT nested mode)
  | classDeclaration => exact outer (proceeds_classDeclaration hT nested mode)
  | field => exact (proceeds_field mode).any
  | method => exact outer (proceeds_routine hT nested mode _)
  | interfaceDeclaration => exact (proceeds_interfaceDeclaration hT mode).any
  | methodSignature => exact (proceeds_signature hT mode _).any
  | expressionStatement => exact (proceeds_expressionStatement hT mode).any
  | typeRef => exact proceeds_typeRef.any
  | expression => exact inner.any
  | equality => exact outer (proceeds_equality hT inner)
  | sum => exact sum.any
  | product => exact product.any
  | primary => exact primary.any
  | arguments => exact outer (proceeds_arguments hT inner)
  | atom => exact outer (proceeds_atom hT inner)

end Progress

end Grammar

namespace Reading

/-- A reading of `rest` stays inside it: it comes to an end, it takes tokens from the front and no
end mark, and it runs out of tokens only if there is no end mark among them. -/
structure Confined {α : Type} (r : Reading α) (rest : List Token) : Prop where
  ends : (r rest).1 ≠ .error .unbounded
  forward : ∃ taken, rest = taken ++ (r rest).2 ∧ ∀ t ∈ taken, t.kind ≠ .endOfInput
  pastEnd : (r rest).1 = .error .pastEnd → ∀ t ∈ rest, t.kind ≠ .endOfInput

private theorem Goes.confined {α : Type} {T : Token → Prop} {least : α → Nat} {r : Reading α}
    {rest : List Token} (h : Goes T least r rest) : Confined r rest := by
  obtain ⟨taken, split, free, result⟩ := h
  refine ⟨?_, ⟨taken, split, free⟩, ?_⟩
  · intro unbounded
    rw [unbounded] at result
    exact result
  · intro pastEnd
    rw [pastEnd] at result
    obtain rfl : rest = taken := by
      rw [show (r rest).2 = [] from result, List.append_nil] at split
      exact split
    exact free

end Reading

namespace Grammar

open Reading

variable {α : Type} {mode : Terminators}

theorem Production.confined (production : Production α) (mode : Terminators)
    {tokens rest : List Token} (unlettered : Unlettered (· ∈ tokens))
    (part : ∀ t ∈ rest, t ∈ tokens) :
    Confined (production.reading mode) rest :=
  (proceeds_production unlettered mode production rest part (Nat.lt_succ_self _)).confined

private theorem Production.reading_of_end (production : Production α) {front : List Token}
    {last : Token} (unlettered : Unlettered (· ∈ front ++ [last]))
    (atEnd : last.kind = .endOfInput) :
    ∃ result left, ∀ more,
      production.reading mode (front ++ last :: more) = (result, left ++ more) := by
  rcases stopped : production.reading mode (front ++ [last]) with ⟨result, left⟩
  obtain ⟨ends, ⟨taken, split, free⟩, -⟩ := production.confined mode unlettered
    fun t there => there
  rw [stopped] at ends split
  have some : left ≠ [] := by
    rintro rfl
    refine free last ?_ atEnd
    rw [← (List.append_nil taken), ← split]
    exact List.mem_concat_self
  refine ⟨result, left, fun more => ?_⟩
  have extended : Extends more (production.reading mode) (production.reading mode) :=
    extends_congruence.production production
  have alike := extended.agrees stopped ends some
  rwa [List.append_assoc] at alike

private theorem exists_end_of_program {tokens rest : List Token} {p : Program}
    (h : program mode tokens = (.ok p, rest)) :
    ∃ last more, rest = last :: more ∧ last.kind = .endOfInput := by
  obtain ⟨body, hbody, -⟩ := map_eq_ok.mp h
  obtain ⟨_, mid, -, items⟩ := bind_eq_ok.mp hbody
  have stop := stopped_itemsWhile (looks_seesNone []) items
  cases rest with
  | nil => cases stop
  | cons last more => exact ⟨last, more, rfl, by simpa [seesNone, current_bind] using stop⟩

end Grammar

/-- The reading of a program ends and stays in front of the first end mark. This holds of every
production at every place on the way: none takes an end mark, and none runs out of tokens where
there is an end mark. If a program is found, the reading has come to the first end mark. Whatever
stands behind an end mark, the outcome and the place where the reading stops are the same. -/
theorem Program.ofTokens_confined (mode : Terminators) (tokens : List Token)
    (unlettered : ∀ t ∈ tokens, t.kind = .endOfInput → t.text = "") :
    (∀ {α : Type} (production : Grammar.Production α) (rest : List Token), rest <:+ tokens →
      Reading.Confined (production.reading mode) rest) ∧
    (∀ p, ofTokens mode tokens = .ok p → ∃ front last more, tokens = front ++ last :: more ∧
      (∀ t ∈ front, t.kind ≠ .endOfInput) ∧ last.kind = .endOfInput ∧
      (Grammar.program mode tokens).2 = last :: more) ∧
    (∀ front last more, tokens = front ++ last :: more → last.kind = .endOfInput →
      ∃ result left, ∀ more',
        Grammar.program mode (front ++ last :: more') = (result, left ++ more')) := by
  refine ⟨?_, ?_, ?_⟩
  · intro α production rest suffix
    exact production.confined mode unlettered fun t there => suffix.subset there
  · intro p found
    obtain ⟨taken, split, free⟩ :=
      (Grammar.Production.program.confined mode unlettered fun t there => there).forward
    have read : Grammar.program mode tokens = (.ok p, (Grammar.program mode tokens).2) :=
      Prod.ext found rfl
    obtain ⟨last, more, left, atEnd⟩ := Grammar.exists_end_of_program read
    exact ⟨taken, last, more, by rw [← left]; exact split, free, atEnd, left⟩
  · rintro front last more rfl atEnd
    refine Grammar.Production.program.reading_of_end (fun t there => unlettered t ?_) atEnd
    rw [List.append_cons]
    exact List.mem_append_left more there

/-- A sum, an end mark, and an open parenthesis behind it that is never read. -/
theorem Program.ofTokens_before_unread_parenthesis :
    let front : List Token := [⟨.integer, "3", ⟨1, 1⟩⟩, ⟨.operator, "+", ⟨9, 9⟩⟩,
      ⟨.integer, "4", ⟨1, 3⟩⟩]
    let last : Token := ⟨.endOfInput, "", ⟨2, 1⟩⟩
    let more : List Token := [⟨.operator, "(", ⟨7, 1⟩⟩, ⟨.endOfInput, "", ⟨2, 2⟩⟩]
    (∀ t ∈ front ++ last :: more, t.kind = .endOfInput → t.text = "") ∧
    Grammar.expression.Confined (front ++ last :: more) ∧
    ∀ more', Grammar.program .strict (front ++ last :: more') =
      (.ok ⟨[.expression ⟨1, 1⟩ (.binary ⟨1, 1⟩ .add (.integer ⟨1, 1⟩ 3) (.integer ⟨1, 3⟩ 4))]⟩,
        last :: more') := by
  intro front last more
  have unlettered : ∀ t ∈ front ++ last :: more, t.kind = .endOfInput → t.text = "" := by decide
  obtain ⟨confined, -, unread⟩ := ofTokens_confined .strict (front ++ last :: more) unlettered
  refine ⟨unlettered, confined .expression _ List.suffix_rfl, ?_⟩
  obtain ⟨result, left, same⟩ := unread front last more rfl rfl
  have alone : Grammar.program .strict (front ++ [last]) = (.ok ⟨[.expression ⟨1, 1⟩
      (.binary ⟨1, 1⟩ .add (.integer ⟨1, 1⟩ 3) (.integer ⟨1, 3⟩ 4))]⟩, [last]) := rfl
  obtain ⟨rfl, rest⟩ := Prod.mk.inj ((same []).symm.trans alone)
  intro more'
  rw [List.append_nil] at rest
  rw [rest] at same
  exact same more'

end ScriptLang
