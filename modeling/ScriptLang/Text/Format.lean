import ScriptLang.Text.Character

/-!
What texts denote and how they are shown: numbers in decimal digits, the lines of a typed text,
interpolation markers, and the quoted form of a string.
-/

set_option autoImplicit false
set_option relaxedAutoImplicit false

namespace ScriptLang.Text

/-! ## Numbers

Numbers written in decimal digits. `naturalValue` is the number that plain digits denote, and
`integerValue?` reads a freer form: white space around the number, a sign, digits of any script,
single underscores between them, but no more digits than are converted. `integerValue?_of_digits`
says that plain digits denote the same number either way.
-/

def naturalValue (digits : List Char) : Nat :=
  digits.foldl (fun n c => 10 * n + (c.toNat - '0'.toNat)) 0

/-- The greatest number of digits that are converted to a number. Zeros in front count as well. -/
def digitLimit : Nat := 4300

/-- The number that begins with the digits of `n` and goes on with the digits of a text. One
underscore may stand before each of them. -/
def continueNatural? (n : Nat) : List Char → Option Nat
  | [] => some n
  | '_' :: c :: rest => do continueNatural? (10 * n + (← digitValue? c)) rest
  | c :: rest => do continueNatural? (10 * n + (← digitValue? c)) rest

/-- The number that digits denote; there is at least one, and the first has no underscore before
it. Too many digits denote none. -/
def natural? (digits : List Char) : Option Nat :=
  match digits with
  | [] => none
  | c :: rest =>
    if digits.countP (· ≠ '_') ≤ digitLimit then do
      continueNatural? (← digitValue? c) rest
    else
      none

def integerValue? (text : List Char) : Option Int :=
  match trim isWhiteSpace text with
  | '-' :: digits => (natural? digits).map fun n => -(n : Int)
  | '+' :: digits => (natural? digits).map fun n => (n : Int)
  | digits => (natural? digits).map fun n => (n : Int)

private theorem continueNatural?_of_digits {digits : List Char} (h : ∀ c ∈ digits, c.isDigit)
    (n : Nat) : continueNatural? n digits =
      some (digits.foldl (fun n c => 10 * n + (c.toNat - '0'.toNat)) n) := by
  induction digits generalizing n with
  | nil => rfl
  | cons c rest ih =>
    have digit : c.isDigit := h c List.mem_cons_self
    have plain : c ≠ '_' := by
      rintro rfl
      exact absurd digit (by decide)
    have tail := ih fun d hd => h d (List.mem_cons_of_mem c hd)
    unfold continueNatural?
    split
    · contradiction
    · simp_all
    · simp_all [digitValue?_of_isDigit]

private theorem not_isWhiteSpace_of_isDigit {c : Char} (h : c.isDigit) : ¬ isWhiteSpace c := by
  have bounds : 48 ≤ c.toNat ∧ c.toNat ≤ 57 := by
    simpa [Char.isDigit, UInt32.le_iff_toNat_le] using h
  simp [isWhiteSpace, whiteSpaceRanges, inSome]
  omega

theorem integerValue?_of_digits {digits : List Char} (nonempty : digits ≠ [])
    (h : ∀ c ∈ digits, c.isDigit) (short : digits.length ≤ digitLimit) :
    integerValue? digits = some (naturalValue digits : Int) := by
  have counted : digits.countP (· ≠ '_') ≤ digitLimit := Nat.le_trans List.countP_le_length short
  have whole := trim_eq_self fun c hc => not_isWhiteSpace_of_isDigit (h c hc)
  cases digits with
  | nil => contradiction
  | cons c rest =>
    have digit : c.isDigit := h c List.mem_cons_self
    have unsigned : c ≠ '-' ∧ c ≠ '+' := by
      constructor <;> rintro rfl <;> exact absurd digit (by decide)
    have tail := continueNatural?_of_digits fun d hd => h d (List.mem_cons_of_mem c hd)
    simp_all [integerValue?, natural?, naturalValue, digitValue?_of_isDigit]

/-! ## Lines

Lines of a typed text. A carriage return, a line feed and the two in this order each end a line;
reading a text as lines first writes every one of them as a line feed.
-/

/-- The text with every line end written as one line feed. -/
def unifyLineEnds : List Char → List Char
  | [] => []
  | '\r' :: '\n' :: rest => '\n' :: unifyLineEnds rest
  | '\r' :: rest => '\n' :: unifyLineEnds rest
  | c :: rest => c :: unifyLineEnds rest

/-- The lines of a text whose line ends are line feeds. Text after the last line feed is a line
only if it is not empty. -/
def splitLines : List Char → List (List Char)
  | [] => []
  | '\n' :: rest => [] :: splitLines rest
  | c :: rest =>
    match splitLines rest with
    | [] => [[c]]
    | line :: more => (c :: line) :: more

private theorem exists_unifyLineEnds_append (a : List Char) : ∃ front, ∀ b,
    unifyLineEnds (a ++ '\n' :: b) = front ++ '\n' :: unifyLineEnds b := by
  fun_induction unifyLineEnds a with
  | case1 => exact ⟨[], fun b => by simp [unifyLineEnds]⟩
  | case2 rest ih =>
    obtain ⟨front, whole⟩ := ih
    exact ⟨'\n' :: front, fun b => by simp [unifyLineEnds, whole]⟩
  | case3 rest other ih =>
    obtain ⟨front, whole⟩ := ih
    cases rest with
    | nil => exact ⟨[], fun b => by simp [unifyLineEnds]⟩
    | cons d rest =>
      have apart : d ≠ '\n' := fun same => other rest (by rw [same])
      refine ⟨'\n' :: front, fun b => ?_⟩
      have behind := whole b
      rw [List.cons_append] at behind ⊢
      simp_all [unifyLineEnds]
  | case4 c rest other hc ih =>
    obtain ⟨front, whole⟩ := ih
    exact ⟨c :: front, fun b => by simp_all [unifyLineEnds]⟩

private theorem splitLines_ne_nil {text : List Char} (filled : text ≠ []) :
    splitLines text ≠ [] := by
  fun_cases splitLines text <;> simp_all

private theorem splitLines_append (a b : List Char) :
    splitLines (a ++ '\n' :: b) = splitLines (a ++ ['\n']) ++ splitLines b := by
  induction a with
  | nil => rfl
  | cons c a ih =>
    rw [List.cons_append, List.cons_append]
    by_cases feed : c = '\n'
    · rw [feed, splitLines, splitLines, ih, List.cons_append]
    · obtain ⟨line, more, found⟩ := List.exists_cons_of_ne_nil
        (splitLines_ne_nil (List.append_ne_nil_of_right_ne_nil a (List.cons_ne_nil '\n' [])))
      simp only [splitLines, ih, found, List.cons_append]

theorem lines_append (a b : List Char) :
    splitLines (unifyLineEnds (a ++ '\n' :: b)) =
      splitLines (unifyLineEnds (a ++ ['\n'])) ++ splitLines (unifyLineEnds b) := by
  obtain ⟨front, whole⟩ := exists_unifyLineEnds_append a
  rw [whole, whole, splitLines_append]
  rfl

theorem lines_of_free {line : List Char} (free : ∀ c ∈ line, c ≠ '\r' ∧ c ≠ '\n') :
    splitLines (unifyLineEnds (line ++ ['\n'])) = [line] := by
  induction line with
  | nil => rfl
  | cons c line ih =>
    obtain ⟨⟨apart, other⟩, free⟩ := List.forall_mem_cons.mp free
    simp [unifyLineEnds, splitLines, apart, ih free]

/-! ## Markers

Interpolation markers: a number sign and a name between braces. Only the first marker of a text
counts.
-/

def cutAtOpening : List Char → Option (List Char × List Char)
  | '#' :: '\x7b' :: rest => some ([], rest)
  | c :: rest => (cutAtOpening rest).map fun (before, after) => (c :: before, after)
  | [] => none

def hasMarker (text : List Char) : Bool :=
  (cutAtOpening text).isSome

/-- The text before the first marker, the name in it and the text after it. The name ends at the
next closing brace; a marker without one is no marker, and no later one is looked for. -/
def splitAtMarker (text : List Char) : Option (List Char × List Char × List Char) := do
  let (before, rest) ← cutAtOpening text
  match rest.dropWhile (· ≠ '\x7d') with
  | [] => none
  | _ :: after => some (before, rest.takeWhile (· ≠ '\x7d'), after)

theorem eq_of_cutAtOpening {text before after : List Char}
    (h : cutAtOpening text = some (before, after)) : text = before ++ '#' :: '\x7b' :: after := by
  fun_induction cutAtOpening text generalizing before with
  | case1 rest => grind
  | case2 c rest _ ih =>
    obtain ⟨⟨front, tail⟩, cut, same⟩ := Option.map_eq_some_iff.mp h
    cases same
    exact congrArg (c :: ·) (ih cut)
  | case3 => cases h

private theorem eq_closing_of_dropWhile {rest after : List Char} {c : Char}
    (h : rest.dropWhile (· ≠ '\x7d') = c :: after) : c = '\x7d' := by
  have hc := List.head?_dropWhile_not (· ≠ '\x7d') rest
  rw [h] at hc
  simpa using hc

/-- The three parts around the first marker, and the marker's braces, are the whole text. -/
theorem eq_of_splitAtMarker {text before name after : List Char}
    (h : splitAtMarker text = some (before, name, after)) :
    text = before ++ '#' :: '\x7b' :: (name ++ '\x7d' :: after) := by
  unfold splitAtMarker at h
  obtain ⟨⟨front, rest⟩, cut, h⟩ := Option.bind_eq_some_iff.mp h
  dsimp only at h
  split at h
  · cases h
  · rename_i c tail found
    cases h
    have whole := List.takeWhile_append_dropWhile (p := (· ≠ '\x7d')) (l := rest)
    rw [found, eq_closing_of_dropWhile found] at whole
    rw [eq_of_cutAtOpening cut, whole]

/-! ## Quoted text

Quoted text, the form in which listings and outlines show a string: on one line, between quotes,
with everything that is not printable escaped.
-/

def hexDigits : Nat → Nat → List Char
  | 0, _ => []
  | width + 1, n => hexDigits width (n / 16) ++ [Nat.digitChar (n % 16)]

/-- The quote that encloses a text: the single one, unless the text holds it and no double one. -/
def enclosingQuote (text : List Char) : Char :=
  if text.contains '\'' && !text.contains '"' then '"' else '\''

def escaped (quote c : Char) : List Char :=
  if c = quote ∨ c = '\\' then ['\\', c]
  else if c = '\n' then ['\\', 'n']
  else if c = '\r' then ['\\', 'r']
  else if c = '\t' then ['\\', 't']
  else if isPrintable c then [c]
  else if c.toNat < 0x100 then '\\' :: 'x' :: hexDigits 2 c.toNat
  else if c.toNat < 0x10000 then '\\' :: 'u' :: hexDigits 4 c.toNat
  else '\\' :: 'U' :: hexDigits 8 c.toNat

def quotedChars (text : List Char) : List Char :=
  let quote := enclosingQuote text
  quote :: text.flatMap (escaped quote) ++ [quote]

def quoted (text : String) : String :=
  String.ofList (quotedChars text.toList)

end ScriptLang.Text
