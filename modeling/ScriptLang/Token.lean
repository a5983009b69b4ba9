import ScriptLang.Text.Character
import ScriptLang.Text.Format

/-!
Tokens and how a source text is cut into them. A text is a sequence of lexemes, the longest that
fit; spaces and comments stand for no token. Every token has its place in the text, and the last one
marks the end.
-/

set_option autoImplicit false
set_option relaxedAutoImplicit false

namespace ScriptLang

/-! ## Places

Positions in a source text: a line and a column, both counted from one. Tokens and trees that were
not read from a text may carry any two integers, and messages show those.
-/

structure Position where
  line : Int
  column : Int
deriving DecidableEq, Repr, Inhabited

namespace Position

def first : Position := ⟨1, 1⟩

/-- The place right after a character: a line feed moves to the start of the next line, every
other character one column on. -/
def next (p : Position) (c : Char) : Position :=
  if c = '\n' then ⟨p.line + 1, 1⟩ else ⟨p.line, p.column + 1⟩

def after (p : Position) (text : List Char) : Position :=
  text.foldl next p

@[simp] theorem after_nil (p : Position) : p.after [] = p := rfl

@[simp] theorem after_cons (p : Position) (c : Char) (text : List Char) :
    p.after (c :: text) = (p.next c).after text := rfl

def locate (p : Position) (message : String) : String :=
  message ++ " at line " ++ toString p.line ++ " col " ++ toString p.column

end Position

/-! ## Tokens

Tokens: the words, numbers, strings and signs of a script, each with its place, and the two ways
of listing them.
-/

/-- What a token is. A reserved word is a kind of its own, named by its tag. -/
inductive Kind where
  | integer
  | string
  | identifier
  | operator
  | newline
  | endOfInput
  | word (tag : String)
deriving DecidableEq, Repr, Inhabited

namespace Kind

def tag : Kind → String
  | integer => "INTEGER"
  | string => "STRING"
  | identifier => "IDENT"
  | operator => "OP"
  | newline => "NEWLINE"
  | endOfInput => "EOF"
  | word tag => tag

def ofTag : String → Kind
  | "INTEGER" => integer
  | "STRING" => string
  | "IDENT" => identifier
  | "OP" => operator
  | "NEWLINE" => newline
  | "EOF" => endOfInput
  | tag => word tag

theorem tag_ofTag (tag : String) : (ofTag tag).tag = tag := by
  unfold ofTag
  split <;> rfl

end Kind

/-- A token: its kind, its text (for a string, what stands between the quotes) and its place. -/
structure Token where
  kind : Kind
  text : String
  position : Position
deriving DecidableEq, Repr, Inhabited

namespace Token

def describe (t : Token) : String :=
  "Token(" ++ t.kind.tag ++ ", " ++ Text.quoted t.text ++ ", " ++ toString t.position.line ++ ", "
    ++ toString t.position.column ++ ")"

def listingLine (index : Nat) (t : Token) : String :=
  toString index ++ ": " ++ t.kind.tag ++ " " ++ Text.quoted t.text ++ " "
    ++ toString t.position.line ++ ":" ++ toString t.position.column

/-- A listing of tokens, one a line, numbered from zero. -/
def listing (tokens : List Token) : String :=
  "\n".intercalate (tokens.mapIdx listingLine) ++ "\n"

end Token

/-! ## Lexemes

Lexemes: the pieces into which a source text is cut. `Lexeme.first` reads the longest piece at the
start of a text, and `first_spelling` says that the piece and the rest are the whole text.
-/

inductive Lexeme where
  | blank (text : List Char)
  | newline
  | comment (text : List Char)
  | integer (digits : List Char)
  | string (text : List Char)
  | word (text : List Char)
  | operator (text : List Char)
deriving DecidableEq, Repr

inductive LexCause where
  | invalidNumber (digits : String)
  | unterminatedString
  | unexpectedCharacter (c : Char)
deriving DecidableEq, Repr

/-- What ends the cutting of a text: a fault in it, told by `ε`, or an integer of more digits than
are converted. -/
inductive LexFailure (ε : Type) where
  | fault (e : ε)
  | tooLong (digits : Nat)
deriving DecidableEq, Repr

def LexFailure.map {ε δ : Type} (f : ε → δ) : LexFailure ε → LexFailure δ
  | fault e => fault (f e)
  | tooLong digits => tooLong digits

namespace LexCause

def message : LexCause → String
  | invalidNumber digits => "invalid number: " ++ digits
  | unterminatedString => "unterminated string"
  | unexpectedCharacter c => "unexpected character: " ++ Text.quoted (String.singleton c)

end LexCause

namespace Lexeme

def reservedWords : List String :=
  ["Int", "String", "def", "end", "if", "else", "class", "interface", "implements", "void"]

/-- The greatest number that an integer literal may denote, one less than `2 ^ 63`. -/
def greatestInteger : Nat := 9223372036854775807

def isSpace (c : Char) : Bool :=
  c = ' ' || c = '\t' || c = '\r'

def isWordStart (c : Char) : Bool :=
  Text.isLetter c || c = '_'

def isWordPart (c : Char) : Bool :=
  Text.isLetter c || Text.isNumeric c || c = '_'

def operatorSigns : List Char :=
  ['+', '-', '*', '/', '=', '(', ')', ':', '.', '\x7d']

def markerOpening : Char := '\x7b'

def spelling : Lexeme → List Char
  | blank text => text
  | newline => ['\n']
  | comment text => '#' :: text
  | integer digits => digits
  | string text => '"' :: (text ++ ['"'])
  | word text => text
  | operator text => text

/-- The kind and text of the token that a piece stands for; spaces and comments stand for none. -/
def content : Lexeme → Option (Kind × String)
  | blank _ => none
  | newline => some (.newline, "\n")
  | comment _ => none
  | integer digits => some (.integer, String.ofList digits)
  | string text => some (.string, String.ofList text)
  | word text =>
    let w := String.ofList text
    some (if w ∈ reservedWords then .word w else .identifier, w)
  | operator text => some (.operator, String.ofList text)

/-- The operator at the start of a text, the longer of two that fit. -/
def operator? (c : Char) (rest : List Char) : Option (List Char × List Char) :=
  match rest with
  | [] => if c ∈ operatorSigns then some ([c], rest) else none
  | d :: more =>
    if (c = '-' ∧ d = '>') ∨ (c = '=' ∧ d = '=') ∨ (c = '#' ∧ d = markerOpening) then
      some ([c, d], more)
    else if c ∈ operatorSigns then some ([c], rest)
    else none

/-- The longest piece at the start of the text `c :: rest`, and the text after it. -/
def first (c : Char) (rest : List Char) : Except (LexFailure LexCause) (Lexeme × List Char) :=
  if isSpace c then
    .ok (blank (c :: rest.takeWhile isSpace), rest.dropWhile isSpace)
  else if c = '\n' then
    .ok (newline, rest)
  else if c = '#' ∧ rest.head? ≠ some markerOpening then
    .ok (comment (rest.takeWhile (· ≠ '\n')), rest.dropWhile (· ≠ '\n'))
  else if c.isDigit then
    let digits := c :: rest.takeWhile Char.isDigit
    -- The digits are converted before the number is compared.
    if Text.digitLimit < digits.length then
      .error (.tooLong digits.length)
    else if Text.naturalValue digits ≤ greatestInteger then
      .ok (integer digits, rest.dropWhile Char.isDigit)
    else
      .error (.fault (.invalidNumber (String.ofList digits)))
  else if c = '"' then
    match rest.dropWhile (· ≠ '"') with
    | [] => .error (.fault .unterminatedString)
    | _ :: more => .ok (string (rest.takeWhile (· ≠ '"')), more)
  else if isWordStart c then
    .ok (word (c :: rest.takeWhile isWordPart), rest.dropWhile isWordPart)
  else
    match operator? c rest with
    | some (text, more) => .ok (operator text, more)
    | none => .error (.fault (.unexpectedCharacter c))

/-- What stands at the start of `c :: rest` in each case of `first`. -/
inductive First (c : Char) (rest : List Char) :
    Except (LexFailure LexCause) (Lexeme × List Char) → Prop where
  | blank (space : isSpace c) :
    First c rest (.ok (.blank (c :: rest.takeWhile isSpace), rest.dropWhile isSpace))
  | newline (feed : c = '\n') : First c rest (.ok (.newline, rest))
  | comment (sharp : c = '#') (marker : rest.head? ≠ some markerOpening) :
    First c rest (.ok (.comment (rest.takeWhile (· ≠ '\n')), rest.dropWhile (· ≠ '\n')))
  | tooLong (digit : c.isDigit)
    (long : Text.digitLimit < (c :: rest.takeWhile Char.isDigit).length) :
    First c rest (.error (.tooLong (c :: rest.takeWhile Char.isDigit).length))
  | integer (digit : c.isDigit)
    (short : (c :: rest.takeWhile Char.isDigit).length ≤ Text.digitLimit)
    (small : Text.naturalValue (c :: rest.takeWhile Char.isDigit) ≤ greatestInteger) :
    First c rest (.ok (.integer (c :: rest.takeWhile Char.isDigit), rest.dropWhile Char.isDigit))
  | great (digit : c.isDigit)
    (short : (c :: rest.takeWhile Char.isDigit).length ≤ Text.digitLimit)
    (great : greatestInteger < Text.naturalValue (c :: rest.takeWhile Char.isDigit)) :
    First c rest
      (.error (.fault (.invalidNumber (String.ofList (c :: rest.takeWhile Char.isDigit)))))
  | string {d : Char} {more : List Char} (quote : c = '"')
    (closed : rest.dropWhile (· ≠ '"') = d :: more) :
    First c rest (.ok (.string (rest.takeWhile (· ≠ '"')), more))
  | unclosed (quote : c = '"') (opened : rest.dropWhile (· ≠ '"') = []) :
    First c rest (.error (.fault .unterminatedString))
  | word (start : isWordStart c) :
    First c rest (.ok (.word (c :: rest.takeWhile isWordPart), rest.dropWhile isWordPart))
  | operator {text more : List Char} (found : operator? c rest = some (text, more)) :
    First c rest (.ok (.operator text, more))
  | character (space : ¬ isSpace c) (feed : c ≠ '\n')
    (sharp : c = '#' → rest.head? = some markerOpening) (digit : ¬ c.isDigit) (quote : c ≠ '"')
    (start : ¬ isWordStart c) (none : operator? c rest = none) :
    First c rest (.error (.fault (.unexpectedCharacter c)))

theorem first_cases (c : Char) (rest : List Char) : First c rest (first c rest) := by
  unfold first
  split
  · exact .blank ‹_›
  rename_i space
  split
  · exact .newline ‹_›
  rename_i feed
  split
  · rename_i sharp
    exact .comment sharp.1 sharp.2
  rename_i sharp
  split
  · rename_i digit
    dsimp only
    split
    · exact .tooLong digit ‹_›
    rename_i long
    split
    · exact .integer digit (Nat.le_of_not_lt long) ‹_›
    · exact .great digit (Nat.le_of_not_lt long) (Nat.lt_of_not_le ‹_›)
  rename_i digit
  split
  · rename_i quote
    split
    · exact .unclosed quote ‹_›
    · exact .string quote ‹_›
  rename_i quote
  split
  · exact .word ‹_›
  rename_i start
  split
  · exact .operator ‹_›
  · exact .character space feed (by simpa using sharp) digit quote start ‹_›

section FirstPiece

variable {c : Char} {rest text more : List Char} {l : Lexeme}

theorem First.of_eq {found : Except (LexFailure LexCause) (Lexeme × List Char)}
    (h : first c rest = found) : First c rest found :=
  h ▸ first_cases c rest

/-- That two characters are one operator. -/
def IsPair (c d : Char) : Prop :=
  (c = '-' ∧ d = '>') ∨ (c = '=' ∧ d = '=') ∨ (c = '#' ∧ d = markerOpening)

instance (c d : Char) : Decidable (IsPair c d) :=
  inferInstanceAs (Decidable (_ ∨ _))

theorem operator?_eq_some_iff :
    operator? c rest = some (text, more) ↔
      (∃ d, rest = d :: more ∧ text = [c, d] ∧ IsPair c d) ∨
        (rest = more ∧ text = [c] ∧ c ∈ operatorSigns ∧ ∀ d ∈ rest.head?, ¬ IsPair c d) := by
  cases rest with
  | nil =>
    by_cases sign : c ∈ operatorSigns <;> simp [operator?, sign, eq_comm, and_comm]
  | cons d tail =>
    change (if IsPair c d then some ([c, d], tail) else if c ∈ operatorSigns then
      some ([c], d :: tail) else none) = _ ↔ _
    by_cases pair : IsPair c d
    · rw [if_pos pair]
      constructor
      · intro found
        cases found
        exact .inl ⟨d, rfl, rfl, pair⟩
      · rintro (⟨_, same, rfl, -⟩ | ⟨-, -, -, alone⟩)
        · cases same
          rfl
        · exact absurd pair (alone d rfl)
    · rw [if_neg pair]
      by_cases sign : c ∈ operatorSigns <;> simp +contextual [pair, sign, eq_comm, and_comm]

private theorem operator?_append (h : operator? c rest = some (text, more)) :
    text ≠ [] ∧ text ++ more = c :: rest := by
  rcases operator?_eq_some_iff.mp h with ⟨d, rfl, rfl, -⟩ | ⟨rfl, rfl, -⟩
  · exact ⟨List.cons_ne_nil _ _, rfl⟩
  · exact ⟨List.cons_ne_nil _ _, rfl⟩

private theorem takeWhile_append_of_closed {d : Char}
    (closed : rest.dropWhile (· ≠ '"') = d :: more) :
    rest.takeWhile (· ≠ '"') ++ '"' :: more = rest := by
  have stop := List.head?_dropWhile_not (· ≠ '"') rest
  have whole := List.takeWhile_append_dropWhile (p := (· ≠ '"')) (l := rest)
  rw [closed] at stop whole
  obtain rfl : d = '"' := by simpa using stop
  exact whole

theorem first_spelling (h : first c rest = .ok (l, more)) : l.spelling ++ more = c :: rest := by
  cases First.of_eq h with
  | blank | integer | word =>
    exact congrArg (c :: ·) List.takeWhile_append_dropWhile
  | newline feed => rw [feed]; rfl
  | comment sharp =>
    rw [sharp]
    exact congrArg ('#' :: ·) List.takeWhile_append_dropWhile
  | string quote closed =>
    rw [quote, spelling, List.cons_append, List.append_assoc, List.singleton_append,
      takeWhile_append_of_closed closed]
  | operator found => exact (operator?_append found).2

theorem spelling_ne_nil_of_first (h : first c rest = .ok (l, more)) : l.spelling ≠ [] := by
  cases First.of_eq h with
  | operator found => exact (operator?_append found).1
  | _ => exact List.cons_ne_nil _ _

theorem length_lt_of_first (h : first c rest = .ok (l, more)) :
    more.length < (c :: rest).length := by
  have whole := congrArg List.length (first_spelling h)
  have nonempty := List.length_pos_iff.mpr (spelling_ne_nil_of_first h)
  rw [List.length_append] at whole
  omega

end FirstPiece

end Lexeme

/-! ## Token streams

The token stream of a source text: the tokens of its lexemes in order, closed by one that marks
the end.
-/

/-- A place of a source text where no lexeme can be read. -/
structure LexError where
  cause : LexCause
  position : Position
deriving DecidableEq, Repr

namespace Lexeme

def token? (l : Lexeme) (p : Position) : Option Token :=
  l.content.map fun (kind, text) => ⟨kind, text, p⟩

end Lexeme

def tokensFrom (p : Position) (text : List Char) : Except (LexFailure LexError) (List Token) :=
  match text with
  | [] => .ok [⟨.endOfInput, "", p⟩]
  | c :: rest =>
    match _ : Lexeme.first c rest with
    | .error failure => .error (failure.map (⟨·, p⟩))
    | .ok (l, more) => do
      let tokens ← tokensFrom (p.after l.spelling) more
      return (l.token? p).toList ++ tokens
termination_by text.length
decreasing_by exact Lexeme.length_lt_of_first ‹_›

theorem tokensFrom_nil (p : Position) : tokensFrom p [] = .ok [⟨.endOfInput, "", p⟩] := by
  rw [tokensFrom]

theorem exists_tail_of_bind {found : Except (LexFailure LexError) (List Token)}
    {front tokens : List Token} (h : (do let tail ← found; return front ++ tail) = .ok tokens) :
    ∃ tail, found = .ok tail ∧ front ++ tail = tokens := by
  cases found with
  | error e => cases h
  | ok tail => exact ⟨tail, rfl, Except.ok.inj h⟩

theorem error_of_bind {found : Except (LexFailure LexError) (List Token)} {front : List Token}
    {failure : LexFailure LexError}
    (h : (do let tail ← found; return front ++ tail) = .error failure) :
    found = .error failure := by
  cases found with
  | error e => exact h
  | ok tail => cases h

section Cons

variable {p : Position} {c : Char} {rest more : List Char}

theorem tokensFrom_of_first {l : Lexeme} (first : Lexeme.first c rest = .ok (l, more)) :
    tokensFrom p (c :: rest) = (do
      let tokens ← tokensFrom (p.after l.spelling) more
      return (l.token? p).toList ++ tokens) := by
  rw [tokensFrom]
  split
  · rename_i failure found
    rw [first] at found
    cases found
  · rename_i l' more' found
    rw [first] at found
    cases found
    rfl

theorem tokensFrom_of_error {failure : LexFailure LexCause}
    (first : Lexeme.first c rest = .error failure) :
    tokensFrom p (c :: rest) = .error (failure.map (⟨·, p⟩)) := by
  rw [tokensFrom]
  split
  · rename_i failure' found
    rw [first] at found
    cases found
    rfl
  · rename_i l' more' found
    rw [first] at found
    cases found

theorem tokensFrom_cons {l : Lexeme} {tokens whole : List Token}
    (first : Lexeme.first c rest = .ok (l, more)) (same : (l.token? p).toList ++ tokens = whole)
    (others : tokensFrom (p.after l.spelling) more = .ok tokens) :
    tokensFrom p (c :: rest) = .ok whole := by
  rw [tokensFrom_of_first first, others, ← same]
  rfl

theorem tokensFrom_error_of_first {l : Lexeme} {failure : LexFailure LexError}
    (first : Lexeme.first c rest = .ok (l, more))
    (others : tokensFrom (p.after l.spelling) more = .error failure) :
    tokensFrom p (c :: rest) = .error failure := by
  rw [tokensFrom_of_first first, others]
  rfl

end Cons

def tokenize (source : String) : Except (LexFailure LexError) (List Token) :=
  tokensFrom .first source.toList

end ScriptLang
