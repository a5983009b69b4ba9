import Mathlib.Data.List.TakeWhile
import ScriptLang.Grammar
import ScriptLang.Token

/-!
The shape of the tokens that a source text is cut into: what each kind may hold, that the end mark
stands last and nowhere else, and that their places go forward. On such tokens a sign is spelled by
operators only and a reserved word by its own kind only.
-/

set_option autoImplicit false
set_option relaxedAutoImplicit false

namespace ScriptLang

/-- A name that reads as one identifier: it begins like a word, goes on like one and is not
reserved. -/
def IsName (name : String) : Prop :=
  (∃ c rest, name.toList = c :: rest ∧ Lexeme.isWordStart c ∧ ∀ d ∈ rest, Lexeme.isWordPart d) ∧
    name ∉ Lexeme.reservedWords

def operatorTexts : List String :=
  ["->", "==", "#\x7b", "+", "-", "*", "/", "=", "(", ")", ":", ".", "\x7d"]

namespace Token

/-- What the text of a token is, for each kind. -/
def Regular (t : Token) : Prop :=
  match t.kind with
  | .integer => t.text ≠ "" ∧ (∀ c ∈ t.text.toList, c.isDigit) ∧
      t.text.toList.length ≤ Text.digitLimit ∧
        Text.naturalValue t.text.toList ≤ Lexeme.greatestInteger
  | .string => '"' ∉ t.text.toList
  | .identifier => IsName t.text
  | .operator => t.text ∈ operatorTexts
  | .newline => t.text = "\n"
  | .endOfInput => t.text = ""
  | .word tag => t.text = tag ∧ tag ∈ Lexeme.reservedWords

end Token

/-- A list of regular tokens in which the end mark is the last and only the last. -/
inductive Stream : List Token → Prop where
  | last {t : Token} : t.kind = .endOfInput → t.Regular → Stream [t]
  | cons {t : Token} {rest : List Token} : t.kind ≠ .endOfInput → t.Regular → Stream rest →
      Stream (t :: rest)

namespace Stream

theorem regular {t : Token} {rest : List Token} (h : Stream (t :: rest)) : t.Regular := by
  cases h <;> assumption

theorem tail {t : Token} {rest : List Token} (h : Stream (t :: rest))
    (more : t.kind ≠ .endOfInput) : Stream rest := by
  cases h with
  | last atEnd _ => exact absurd atEnd more
  | cons _ _ rest => exact rest

theorem eq_nil_of_endOfInput {t : Token} {rest : List Token} (h : Stream (t :: rest))
    (atEnd : t.kind = .endOfInput) : rest = [] := by
  cases h with
  | last => rfl
  | cons more => exact absurd atEnd more

theorem exists_cons {ts : List Token} (h : Stream ts) : ∃ t rest, ts = t :: rest := by
  cases h <;> exact ⟨_, _, rfl⟩

theorem ne_nil {ts : List Token} (h : Stream ts) : ts ≠ [] := by
  obtain ⟨t, rest, rfl⟩ := h.exists_cons
  exact List.cons_ne_nil t rest

theorem forall_regular {ts : List Token} (h : Stream ts) : ∀ t ∈ ts, t.Regular := by
  induction h with
  | last _ regular => exact List.forall_mem_singleton.mpr regular
  | cons _ regular _ ih => exact List.forall_mem_cons.mpr ⟨regular, ih⟩

theorem of_append {front rest : List Token} {t : Token} (h : Stream (front ++ t :: rest)) :
    Stream (t :: rest) := by
  induction front with
  | nil => exact h
  | cons u front ih =>
    generalize same : front ++ t :: rest = behind at ih
    rw [List.cons_append, same] at h
    cases h with
    | last => simp at same
    | cons _ _ tail => exact ih tail

end Stream

private theorem operatorTexts_apart {sign : String} (h : sign ∈ operatorTexts) :
    sign ≠ "" ∧ sign ≠ "\n" ∧ sign ∉ Lexeme.reservedWords ∧ ∀ c ∈ sign.toList, ¬ c.isDigit := by
  -- Run as a test of the list: a statement about all characters would be decided one by one.
  have all : operatorTexts.all fun sign => sign ≠ "" ∧ sign ≠ "\n" ∧
      sign ∉ Lexeme.reservedWords ∧ sign.toList.all (!·.isDigit) := by
    decide
  simpa using List.all_eq_true.mp all sign h

private theorem reservedWords_apart {word : String} (h : word ∈ Lexeme.reservedWords) :
    word ≠ "" ∧ word ≠ "\n" ∧ ∀ c ∈ word.toList, ¬ c.isDigit := by
  have all : Lexeme.reservedWords.all fun word =>
      word ≠ "" ∧ word ≠ "\n" ∧ word.toList.all (!·.isDigit) := by
    decide
  simpa using List.all_eq_true.mp all word h

private theorem not_all_isDigit {text : String} (nonempty : text ≠ "")
    (digits : ∀ c ∈ text.toList, c.isDigit) : ¬ ∀ c ∈ text.toList, ¬ c.isDigit := by
  intro none
  have filled : text.toList ≠ [] := fun empty => nonempty (String.toList_eq_nil_iff.mp empty)
  obtain ⟨c, found⟩ := List.exists_mem_of_ne_nil _ filled
  exact none c found (digits c found)

namespace Token

theorem spells_iff {t : Token} {sign : String} :
    t.spells sign ↔ t.text = sign ∧ t.kind ≠ .string ∧ t.kind ≠ .identifier := by
  simp [spells, and_assoc]

theorem Regular.kind_of_spells_operator {t : Token} {sign : String} (h : t.Regular)
    (known : sign ∈ operatorTexts) (spelled : t.spells sign) : t.kind = .operator := by
  obtain ⟨nonempty, noBreak, unreserved, noDigit⟩ := operatorTexts_apart known
  obtain ⟨rfl, noString, noName⟩ := spells_iff.mp spelled
  unfold Regular at h
  generalize kind : t.kind = k at h ⊢
  cases k with
  | integer => exact absurd noDigit (not_all_isDigit h.1 h.2.1)
  | string => exact absurd kind noString
  | identifier => exact absurd kind noName
  | operator => rfl
  | newline => exact absurd h noBreak
  | endOfInput => exact absurd h nonempty
  | word tag => exact absurd (h.1 ▸ h.2) unreserved

theorem Regular.kind_of_spells_word {t : Token} {word : String} (h : t.Regular)
    (known : word ∈ Lexeme.reservedWords) (spelled : t.spells word) : t.kind = .word word := by
  obtain ⟨nonempty, noBreak, noDigit⟩ := reservedWords_apart known
  obtain ⟨rfl, noString, noName⟩ := spells_iff.mp spelled
  unfold Regular at h
  generalize kind : t.kind = k at h ⊢
  cases k with
  | integer => exact absurd noDigit (not_all_isDigit h.1 h.2.1)
  | string => exact absurd kind noString
  | identifier => exact absurd kind noName
  | operator => exact absurd known (operatorTexts_apart h).2.2.1
  | newline => exact absurd h noBreak
  | endOfInput => exact absurd h nonempty
  | word tag => rw [h.1]

end Token

private theorem singleton_mem_operatorTexts {c : Char} (h : c ∈ Lexeme.operatorSigns) :
    String.ofList [c] ∈ operatorTexts := by
  have all : Lexeme.operatorSigns.all fun c => String.ofList [c] ∈ operatorTexts := by decide
  simpa using List.all_eq_true.mp all c h

private theorem mem_operatorTexts_of_operator? {c : Char} {rest text more : List Char}
    (h : Lexeme.operator? c rest = some (text, more)) : String.ofList text ∈ operatorTexts := by
  rcases Lexeme.operator?_eq_some_iff.mp h with ⟨d, -, rfl, pair⟩ | ⟨-, rfl, sign, -⟩
  · rcases pair with ⟨rfl, rfl⟩ | ⟨rfl, rfl⟩ | ⟨rfl, rfl⟩ <;> decide
  · exact singleton_mem_operatorTexts sign

private theorem regular_digits {c : Char} {rest : List Char} (digit : c.isDigit)
    (short : (c :: rest.takeWhile Char.isDigit).length ≤ Text.digitLimit)
    (small : Text.naturalValue (c :: rest.takeWhile Char.isDigit) ≤ Lexeme.greatestInteger)
    (p : Position) :
    Token.Regular ⟨.integer, String.ofList (c :: rest.takeWhile Char.isDigit), p⟩ := by
  refine ⟨by simp, ?_, by rwa [String.toList_ofList], by rwa [String.toList_ofList]⟩
  intro d found
  rw [String.toList_ofList] at found
  rcases List.mem_cons.mp found with rfl | found
  · exact digit
  · exact List.mem_takeWhile_imp found

private theorem regular_word {c : Char} {rest : List Char} (start : Lexeme.isWordStart c)
    (p : Position) :
    let w := String.ofList (c :: rest.takeWhile Lexeme.isWordPart)
    Token.Regular ⟨if w ∈ Lexeme.reservedWords then .word w else .identifier, w, p⟩ := by
  intro w
  by_cases reserved : w ∈ Lexeme.reservedWords
  · simp only [if_pos reserved]
    exact ⟨rfl, reserved⟩
  · simp only [if_neg reserved]
    refine ⟨⟨c, rest.takeWhile Lexeme.isWordPart, String.toList_ofList, start, ?_⟩, reserved⟩
    exact fun d found => List.mem_takeWhile_imp found

theorem Lexeme.regular_of_first {c : Char} {rest more : List Char} {l : Lexeme} {p : Position}
    {t : Token} (h : Lexeme.first c rest = .ok (l, more)) (found : l.token? p = some t) :
    t.kind ≠ .endOfInput ∧ t.Regular := by
  cases Lexeme.First.of_eq h with
  | blank | comment => cases found
  | newline =>
    cases found
    exact ⟨by simp, rfl⟩
  | integer digit short small =>
    cases found
    exact ⟨by simp, regular_digits digit short small p⟩
  | string =>
    cases found
    refine ⟨by simp, fun quoted => ?_⟩
    rw [String.toList_ofList] at quoted
    simpa using List.mem_takeWhile_imp quoted
  | word start =>
    cases found
    refine ⟨?_, regular_word start p⟩
    dsimp only
    split <;> simp
  | operator sign =>
    cases found
    exact ⟨by simp, mem_operatorTexts_of_operator? sign⟩

private theorem stream_tokensFrom {p : Position} {text : List Char} {tokens : List Token}
    (h : tokensFrom p text = .ok tokens) : Stream tokens := by
  fun_induction tokensFrom p text generalizing tokens with
  | case1 p =>
    cases h
    exact .last rfl rfl
  | case2 => cases h
  | case3 p c rest l more first ih =>
    obtain ⟨tail, others, rfl⟩ := exists_tail_of_bind h
    have stream := ih others
    cases found : l.token? p with
    | none => exact stream
    | some t =>
      obtain ⟨notEnd, regular⟩ := Lexeme.regular_of_first first found
      exact .cons notEnd regular stream

/-- The tokens of a source text are regular and end in the end mark. -/
theorem stream_of_tokenize {source : String} {tokens : List Token}
    (h : tokenize source = .ok tokens) : Stream tokens :=
  stream_tokensFrom h

namespace Position

/-- That a place lies before another one, on an earlier line or further left on the same line. -/
def Before (p q : Position) : Prop :=
  p.line < q.line ∨ p.line = q.line ∧ p.column < q.column

instance (p q : Position) : Decidable (p.Before q) :=
  inferInstanceAs (Decidable (_ ∨ _ ∧ _))

variable {p q r : Position}

private theorem Before.trans (first : p.Before q) (second : q.Before r) : p.Before r := by
  unfold Before at *
  omega

theorem not_before_self (p : Position) : ¬ p.Before p := by
  unfold Before
  omega

private theorem before_next (p : Position) (c : Char) : p.Before (p.next c) := by
  unfold next
  split
  · exact .inl (Int.lt_succ p.line)
  · exact .inr ⟨rfl, Int.lt_succ p.column⟩

theorem before_after (p : Position) {text : List Char} (filled : text ≠ []) :
    p.Before (p.after text) := by
  induction text generalizing p with
  | nil => contradiction
  | cons c text ih =>
    rw [after_cons]
    cases text with
    | nil => exact p.before_next c
    | cons d text => exact (p.before_next c).trans (ih (p.next c) (List.cons_ne_nil d text))

end Position

def Ordered (tokens : List Token) : Prop :=
  tokens.Pairwise fun t u => t.position.Before u.position

private theorem ordered_of_tokensFrom {p : Position} {text : List Char} {tokens : List Token}
    (h : tokensFrom p text = .ok tokens) :
    Ordered tokens ∧ ∀ t ∈ tokens, t.position = p ∨ p.Before t.position := by
  fun_induction tokensFrom p text generalizing tokens with
  | case1 p =>
    cases h
    exact ⟨List.pairwise_singleton _ _, List.forall_mem_singleton.mpr (.inl rfl)⟩
  | case2 => cases h
  | case3 p c rest l more first ih =>
    obtain ⟨tail, others, rfl⟩ := exists_tail_of_bind h
    obtain ⟨ordered, later⟩ := ih others
    have forward := p.before_after (Lexeme.spelling_ne_nil_of_first first)
    have behind : ∀ t ∈ tail, p.Before t.position := by
      intro t there
      obtain same | before := later t there
      · rwa [same]
      · exact forward.trans before
    cases found : l.token? p with
    | none => exact ⟨ordered, fun t there => .inr (behind t there)⟩
    | some t =>
      obtain ⟨content, -, rfl⟩ := Option.map_eq_some_iff.mp found
      refine ⟨List.pairwise_cons.mpr ⟨behind, ordered⟩, ?_⟩
      exact List.forall_mem_cons.mpr ⟨.inl rfl, fun t there => .inr (behind t there)⟩

theorem ordered_of_tokenize {source : String} {tokens : List Token}
    (h : tokenize source = .ok tokens) : Ordered tokens :=
  (ordered_of_tokensFrom h).1

end ScriptLang
