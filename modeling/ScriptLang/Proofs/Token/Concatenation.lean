import ScriptLang.Proofs.Program.Relocation
import ScriptLang.Proofs.Token.Cut

/-!
The tokens of two texts with a line feed between them. The line feed cannot go on in any piece that
ends with the first text, so it is a token of its own, in place of the end mark of the first text;
the tokens of the second text follow as many lines further down as the first text takes up.
-/

set_option autoImplicit false
set_option relaxedAutoImplicit false

namespace ScriptLang

namespace Position

def below (lines : Int) (p : Position) : Position :=
  ⟨p.line + lines, p.column⟩

private theorem next_below (lines : Int) (p : Position) (c : Char) :
    (p.below lines).next c = (p.next c).below lines := by
  unfold next below
  split
  · rw [Int.add_right_comm]
  · rfl

private theorem after_below (lines : Int) (p : Position) (text : List Char) :
    (p.below lines).after text = (p.after text).below lines := by
  induction text generalizing p with
  | nil => rfl
  | cons c text ih => rw [after_cons, after_cons, next_below, ih]

private theorem next_feed (p : Position) : p.next '\n' = first.below p.line := by
  rw [next, if_pos rfl, below, first, Int.add_comm]

end Position

namespace Lexeme

variable {c : Char} {rest more : List Char} {l : Lexeme}

private theorem whiles_append_feed (test : Char → Bool) (stop : ¬ test '\n')
    (text t : List Char) :
    (text ++ '\n' :: t).takeWhile test = text.takeWhile test ∧
      (text ++ '\n' :: t).dropWhile test = text.dropWhile test ++ '\n' :: t := by
  induction text with
  | nil => exact ⟨List.takeWhile_cons_of_neg stop, List.dropWhile_cons_of_neg stop⟩
  | cons d text ih =>
    by_cases goes : test d
    · simp only [List.cons_append, List.takeWhile_cons_of_pos goes,
        List.dropWhile_cons_of_pos goes, ih, and_self]
    · simp only [List.cons_append, List.takeWhile_cons_of_neg goes,
        List.dropWhile_cons_of_neg goes, and_self]

private theorem whiles_append_of_closed {test : Char → Bool} {text : List Char} {d : Char}
    (closed : text.dropWhile test = d :: more) (t : List Char) :
    (text ++ t).takeWhile test = text.takeWhile test ∧
      (text ++ t).dropWhile test = d :: (more ++ t) := by
  induction text with
  | nil => cases closed
  | cons e text ih =>
    by_cases goes : test e
    · rw [List.dropWhile_cons_of_pos goes] at closed
      simp only [List.cons_append, List.takeWhile_cons_of_pos goes,
        List.dropWhile_cons_of_pos goes, ih closed, and_self]
    · rw [List.dropWhile_cons_of_neg goes] at closed
      obtain ⟨rfl, rfl⟩ := List.cons.inj closed
      simp only [List.cons_append, List.takeWhile_cons_of_neg goes,
        List.dropWhile_cons_of_neg goes, and_self]

private theorem operator?_append_feed {text : List Char}
    (h : operator? c rest = some (text, more)) (t : List Char) :
    operator? c (rest ++ '\n' :: t) = some (text, more ++ '\n' :: t) := by
  refine operator?_eq_some_iff.mpr ?_
  rcases operator?_eq_some_iff.mp h with ⟨d, rfl, rfl, pair⟩ | ⟨rfl, rfl, sign, alone⟩
  · exact .inl ⟨d, rfl, rfl, pair⟩
  · refine .inr ⟨rfl, rfl, sign, fun d next => ?_⟩
    cases rest with
    | nil =>
      obtain rfl : '\n' = d := Option.some.inj next
      simp [IsPair, markerOpening]
    | cons e rest => exact alone d next

theorem first_append_feed (h : first c rest = .ok (l, more)) (t : List Char) :
    first c (rest ++ '\n' :: t) = .ok (l, more ++ '\n' :: t) := by
  cases First.of_eq h with
  | blank space =>
    obtain ⟨taken, left⟩ := whiles_append_feed isSpace (by decide) rest t
    have found : first c (rest ++ '\n' :: t) = _ := First.eq (.blank space)
    rwa [taken, left] at found
  | newline feed => exact First.eq (.newline feed)
  | comment sharp marker =>
    have marker : (rest ++ '\n' :: t).head? ≠ some markerOpening := by
      cases rest with
      | nil => simp [markerOpening]
      | cons d rest => exact marker
    obtain ⟨taken, left⟩ := whiles_append_feed (· ≠ '\n') (by decide) rest t
    have found : first c (rest ++ '\n' :: t) = _ := First.eq (.comment sharp marker)
    rwa [taken, left] at found
  | integer digit short small =>
    obtain ⟨taken, left⟩ := whiles_append_feed Char.isDigit (by decide) rest t
    have found : first c (rest ++ '\n' :: t) = _ :=
      First.eq (.integer digit (by rwa [taken]) (by rwa [taken]))
    rwa [taken, left] at found
  | string quote closed =>
    -- The quote that closes the string is not behind the line feed.
    obtain ⟨taken, left⟩ := whiles_append_of_closed closed ('\n' :: t)
    have found : first c (rest ++ '\n' :: t) = _ := First.eq (.string quote left)
    rwa [taken] at found
  | word start =>
    obtain ⟨taken, left⟩ := whiles_append_feed isWordPart (by decide) rest t
    have found : first c (rest ++ '\n' :: t) = _ := First.eq (.word start)
    rwa [taken, left] at found
  | operator sign => exact First.eq (.operator (operator?_append_feed sign t))

end Lexeme

def LexError.below (lines : Int) (e : LexError) : LexError :=
  ⟨e.cause, e.position.below lines⟩

private theorem Lexeme.token?_below (lines : Int) (l : Lexeme) (p : Position) :
    l.token? (p.below lines) = (l.token? p).map (Token.relocate (·.below lines)) := by
  unfold Lexeme.token?
  cases l.content <;> rfl

private theorem tokensFrom_below (lines : Int) (p : Position) (text : List Char) :
    tokensFrom (p.below lines) text = match tokensFrom p text with
      | .ok tokens => .ok (tokens.map (Token.relocate (·.below lines)))
      | .error failure => .error (failure.map (.below lines)) := by
  fun_induction tokensFrom p text with
  | case1 p => exact tokensFrom_nil _
  | case2 p c rest failure first =>
    rw [tokensFrom_of_error first]
    cases failure <;> rfl
  | case3 p c rest l more first ih =>
    rw [tokensFrom_of_first first, Position.after_below, ih, Lexeme.token?_below]
    cases tokensFrom (p.after l.spelling) more with
    | error e => rfl
    | ok tokens =>
      simp only [bind, Except.bind, pure, Except.pure, List.map_append]
      cases l.token? p <;> rfl

private theorem tokensFrom_append_feed {p : Position} {text : List Char} {tokens : List Token}
    (h : tokensFrom p text = .ok tokens) :
    ∃ front last, tokens = front ++ [⟨.endOfInput, "", last⟩] ∧
      ∀ t, tokensFrom p (text ++ '\n' :: t) = (do
        let more ← tokensFrom (last.next '\n') t
        return front ++ ⟨.newline, "\n", last⟩ :: more) := by
  fun_induction tokensFrom p text generalizing tokens with
  | case1 p =>
    cases h
    exact ⟨[], p, rfl, fun t => tokensFrom_of_first (l := .newline) rfl⟩
  | case2 => cases h
  | case3 p c rest l more first ih =>
    obtain ⟨tail, others, rfl⟩ := exists_tail_of_bind h
    obtain ⟨front, last, rfl, whole⟩ := ih others
    refine ⟨(l.token? p).toList ++ front, last, by rw [List.append_assoc], fun t => ?_⟩
    rw [List.cons_append, tokensFrom_of_first (Lexeme.first_append_feed first t), whole]
    cases tokensFrom (last.next '\n') t with
    | error e => rfl
    | ok more => simp only [bind, Except.bind, pure, Except.pure, List.append_assoc]

/-- The tokens of two texts with a line feed between them: those of the first, with a newline in
place of the end mark, and those of the second, as many lines further down. -/
theorem tokenize_append {s : String} {tokens : List Token} (h : tokenize s = .ok tokens) :
    ∃ front last, tokens = front ++ [⟨.endOfInput, "", last⟩] ∧
      ∀ t, tokenize (s ++ "\n" ++ t) = match tokenize t with
        | .ok more =>
          .ok (front ++ ⟨.newline, "\n", last⟩ :: more.map (Token.relocate (·.below last.line)))
        | .error failure => .error (failure.map (.below last.line)) := by
  obtain ⟨front, last, same, whole⟩ := tokensFrom_append_feed h
  refine ⟨front, last, same, fun t => ?_⟩
  have text : (s ++ "\n" ++ t).toList = s.toList ++ '\n' :: t.toList := by simp
  unfold tokenize
  rw [text, whole, Position.next_feed, tokensFrom_below]
  cases tokensFrom .first t.toList <;> rfl

end ScriptLang
