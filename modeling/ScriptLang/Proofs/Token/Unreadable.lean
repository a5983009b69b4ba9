import Mathlib.Algebra.Ring.Nat
import ScriptLang.Proofs.Token.Concatenation
import ScriptLang.Proofs.Token.Segmentation

/-!
Where a text stops being readable. `Unreadable` lists what no piece begins with: a number that is
too great, a string without an end, a character that begins nothing. A text with such a fault falls
into a readable front and such a rest, and the error tells the place between the two. The cutting
also ends, without an error of the text, at an integer of more digits than are converted; a text is
cut up to there exactly if it `MeetsTooLong`.
-/

set_option autoImplicit false
set_option relaxedAutoImplicit false

namespace ScriptLang

/-- That a character begins no token, no comment and no run of spaces. -/
structure BeginsNothing (c : Char) : Prop where
  space : c ≠ ' ' ∧ c ≠ '\t' ∧ c ≠ '\r'
  comment : c ≠ '#'
  token : ∀ t : Token, t.Regular → t.spelling.head? ≠ some c

/-- That a text begins with something that cannot be read, with the cause and its wording. -/
inductive Unreadable : List Char → LexCause → String → Prop where
  | number {digits more : List Char} : digits ≠ [] → (∀ c ∈ digits, c.isDigit) →
      (∀ c ∈ more.head?, ¬ c.isDigit) → digits.length ≤ Text.digitLimit →
      2 ^ 63 - 1 < Text.naturalValue digits →
      Unreadable (digits ++ more) (.invalidNumber (String.ofList digits))
        ("invalid number: " ++ String.ofList digits)
  | string {more : List Char} : '"' ∉ more →
      Unreadable ('"' :: more) .unterminatedString "unterminated string"
  | character {c : Char} {more : List Char} : BeginsNothing c →
      Unreadable (c :: more) (.unexpectedCharacter c)
        ("unexpected character: " ++ Text.quoted (String.singleton c))

/-- That a text begins with `n` digits, more than are converted, and then no other. -/
def BeginsTooLong (n : Nat) (text : List Char) : Prop :=
  Text.digitLimit < n ∧ ∃ digits more, text = digits ++ more ∧ digits.length = n ∧
    (∀ c ∈ digits, c.isDigit) ∧ ∀ c ∈ more.head?, ¬ c.isDigit

private theorem Unreadable.append_feed {text : List Char} {cause : LexCause} {message : String}
    (h : Unreadable text cause message) (closed : cause ≠ .unterminatedString) (t : List Char) :
    Unreadable (text ++ '\n' :: t) cause message := by
  cases h with
  | @number digits more filled all stop short great =>
    rw [List.append_assoc]
    refine .number filled all ?_ short great
    cases more with
    | nil => simp
    | cons d more => exact stop
  | string => exact absurd rfl closed
  | character nothing => exact .character nothing

private theorem Unreadable.begins {text rest : List Char} {c : Char} {cause : LexCause}
    {message : String} (h : Unreadable text cause message) (same : text = c :: rest) :
    c.isDigit ∨ c = '"' ∨ cause = .unexpectedCharacter c := by
  cases h with
  | number filled all =>
    obtain ⟨d, digits, rfl⟩ := List.exists_cons_of_ne_nil filled
    cases same
    exact .inl (all c List.mem_cons_self)
  | string =>
    cases same
    exact .inr (.inl rfl)
  | character =>
    cases same
    exact .inr (.inr rfl)

namespace Token

variable {t : Token} {c : Char}

private theorem Regular.begins (h : t.Regular) (begun : t.spelling.head? = some c) :
    c.isDigit ∨ c = '"' ∨ Lexeme.isWordStart c ∨ c ∈ '#' :: Lexeme.operatorSigns ∨ c = '\n' := by
  unfold Regular at h
  unfold spelling at begun
  generalize t.kind = kind at h begun
  cases kind with
  | integer =>
    rw [if_neg (by simp)] at begun
    exact .inl (h.2.1 c (List.mem_of_mem_head? begun))
  | string =>
    rw [if_pos rfl] at begun
    cases begun
    exact .inr (.inl rfl)
  | identifier =>
    obtain ⟨⟨d, rest, text, start, -⟩, -⟩ := h
    rw [if_neg (by simp), text] at begun
    cases begun
    exact .inr (.inr (.inl start))
  | operator =>
    have all : operatorTexts.all fun sign =>
        sign.toList.head?.all (· ∈ '#' :: Lexeme.operatorSigns) := by
      decide
    have sign := List.all_eq_true.mp all _ h
    rw [if_neg (by simp)] at begun
    rw [begun, Option.all_some] at sign
    exact .inr (.inr (.inr (.inl (of_decide_eq_true sign))))
  | newline =>
    rw [if_neg (by simp), h] at begun
    cases begun
    exact .inr (.inr (.inr (.inr rfl)))
  | endOfInput =>
    rw [if_neg (by simp), h] at begun
    cases begun
  | word tag =>
    obtain ⟨d, rest, text, start, -⟩ := Lexeme.exists_word_of_reserved h.2
    rw [if_neg (by simp), h.1, text] at begun
    cases begun
    exact .inr (.inr (.inl start))

end Token

namespace Lexeme

variable {c : Char} {rest more : List Char} {l : Lexeme} {cause : LexCause}

private theorem not_mem_of_operator?_eq_none (h : operator? c rest = none) :
    c ∉ operatorSigns ∧ (c = '#' → rest.head? ≠ some markerOpening) := by
  have never (text more : List Char) : ¬ operator? c rest = some (text, more) := by simp [h]
  have unpaired : ∀ d ∈ rest.head?, ¬ IsPair c d := by
    intro d next pair
    obtain ⟨more, rfl⟩ := List.head?_eq_some_iff.mp next
    exact never _ _ (operator?_eq_some_iff.mpr (.inl ⟨d, rfl, rfl, pair⟩))
  refine ⟨fun sign => ?_, fun sharp marker => unpaired _ marker (.inr (.inr ⟨sharp, rfl⟩))⟩
  exact never _ _ (operator?_eq_some_iff.mpr (.inr ⟨rfl, rfl, sign, unpaired⟩))

private theorem digits_in_front (rest : List Char) (digit : c.isDigit) :
    c :: rest = c :: rest.takeWhile Char.isDigit ++ rest.dropWhile Char.isDigit ∧
      (∀ d ∈ c :: rest.takeWhile Char.isDigit, d.isDigit) ∧
      ∀ d ∈ (rest.dropWhile Char.isDigit).head?, ¬ d.isDigit := by
  refine ⟨?_, ?_, head?_dropWhile_stops Char.isDigit rest⟩
  · rw [List.cons_append, List.takeWhile_append_dropWhile]
  · exact List.forall_mem_cons.mpr ⟨digit, fun d inside => List.mem_takeWhile_imp inside⟩

private theorem unreadable_of_first (h : first c rest = .error (.fault cause)) :
    Unreadable (c :: rest) cause cause.message := by
  cases First.of_eq h with
  | great digit short great =>
    obtain ⟨whole, all, stop⟩ := digits_in_front rest digit
    rw [whole]
    exact .number (List.cons_ne_nil _ _) all stop short great
  | unclosed quote opened =>
    subst quote
    refine .string fun closing => ?_
    simpa using List.dropWhile_eq_nil_iff.mp opened '"' closing
  | character space feed sharp digit quote start none =>
    obtain ⟨sign, marker⟩ := not_mem_of_operator?_eq_none none
    have blank := mt isSpace_iff.mpr space
    simp only [not_or] at blank
    -- Nothing is left that a token may begin with.
    refine .character ⟨blank, fun same => marker same (sharp same), fun t regular begun => ?_⟩
    rcases regular.begins begun with hd | hq | hw | hs | hn
    · exact digit hd
    · exact quote hq
    · exact start hw
    · rcases List.mem_cons.mp hs with same | inside
      · exact marker same (sharp same)
      · exact sign inside
    · exact feed hn

private theorem first_number {digits : List Char} (digit : c.isDigit)
    (all : ∀ d ∈ digits, d.isDigit) (stop : ∀ d ∈ rest.head?, ¬ d.isDigit)
    (short : (c :: digits).length ≤ Text.digitLimit)
    (great : greatestInteger < Text.naturalValue (c :: digits)) :
    first c (digits ++ rest) = .error (.fault (.invalidNumber (String.ofList (c :: digits)))) := by
  obtain ⟨taken, -⟩ := takeWhile_append_of_head all stop
  have found : first c (digits ++ rest) = _ :=
    First.eq (.great digit (by rwa [taken]) (by rwa [taken]))
  rwa [taken] at found

private theorem first_digit (digit : c.isDigit) : first c [] = .ok (.integer [c], []) := by
  have bound : c.toNat ≤ 57 := (Char.isDigit_iff_toNat.mp digit).2
  have small : Text.naturalValue [c] ≤ greatestInteger := by
    simp only [Text.naturalValue, greatestInteger, List.foldl_cons, List.foldl_nil]
    omega
  exact first_integer digit (by simp) (by simp) (by simp [Text.digitLimit]) small

private theorem beginsTooLong_of_first {n : Nat} (h : first c rest = .error (.tooLong n)) :
    c.isDigit ∧ BeginsTooLong n (c :: rest) := by
  cases First.of_eq h with
  | tooLong digit long =>
    obtain ⟨whole, all, stop⟩ := digits_in_front rest digit
    exact ⟨digit, long, _, _, whole, rfl, all, stop⟩

private theorem first_of_beginsTooLong {n : Nat} (h : BeginsTooLong n (c :: rest)) :
    first c rest = .error (.tooLong n) := by
  obtain ⟨long, digits, more, whole, rfl, all, stop⟩ := h
  cases digits with
  | nil => exact absurd long (Nat.not_lt_zero _)
  | cons d digits =>
    rw [List.cons_append] at whole
    obtain ⟨rfl, rfl⟩ := List.cons.inj whole
    obtain ⟨digit, all⟩ := List.forall_mem_cons.mp all
    obtain ⟨taken, -⟩ := takeWhile_append_of_head all stop
    have found : first c (digits ++ more) = _ := First.eq (.tooLong digit (by rwa [taken]))
    rwa [taken] at found

private theorem first_unclosed (opened : '"' ∉ rest) :
    first '"' rest = .error (.fault .unterminatedString) := by
  refine First.eq (.unclosed rfl (List.dropWhile_eq_nil_iff.mpr fun d inside => ?_))
  exact decide_eq_true fun same => opened (same ▸ inside)

private theorem first_ne_ok (h : BeginsNothing c) : first c rest ≠ .ok (l, more) := by
  intro read
  have whole := first_spelling read
  obtain ⟨d, text, spelled⟩ := List.exists_cons_of_ne_nil (spelling_ne_nil_of_first read)
  rw [spelled, List.cons_append] at whole
  obtain ⟨rfl, -⟩ := List.cons.inj whole
  cases token : l.token? .first with
  | some t =>
    refine h.token t (regular_of_first read token).2 ?_
    rw [(longest_of_first read token).1, spelled]
    rfl
  | none =>
    rcases blank_or_comment_of_first read (Option.map_eq_none_iff.mp token) with
      ⟨_, rfl, all⟩ | ⟨_, rfl, -⟩
    · cases spelled
      simpa [h.space] using isSpace_iff.mp (all d List.mem_cons_self)
    · cases spelled
      exact h.comment rfl

private theorem first_of_beginsNothing (h : BeginsNothing c) (rest : List Char) :
    first c rest = .error (.fault (.unexpectedCharacter c)) := by
  cases read : first c rest with
  | ok found => exact absurd read (first_ne_ok h)
  | error failure =>
    cases failure with
    | tooLong n => exact absurd (first_digit (beginsTooLong_of_first read).1) (first_ne_ok h)
    | fault cause =>
      rcases (unreadable_of_first read).begins rfl with digit | rfl | rfl
      · exact absurd (first_digit digit) (first_ne_ok h)
      · have string : first '"' ([] ++ ['"']) = .ok (.string [], []) := first_string (by simp)
        exact absurd string (first_ne_ok h)
      · rfl

private theorem first_of_unreadable {text : List Char} {message : String}
    (h : Unreadable text cause message) (same : text = c :: rest) :
    first c rest = .error (.fault cause) := by
  cases h with
  | number filled all stop short great =>
    obtain ⟨d, digits, rfl⟩ := List.exists_cons_of_ne_nil filled
    cases same
    obtain ⟨digit, all⟩ := List.forall_mem_cons.mp all
    exact first_number digit all stop short great
  | string opened =>
    cases same
    exact first_unclosed opened
  | character nothing =>
    cases same
    exact first_of_beginsNothing nothing rest

private theorem first_append_feed_of_error (h : first c rest = .error (.fault cause))
    (closed : cause ≠ .unterminatedString) (t : List Char) :
    first c (rest ++ '\n' :: t) = .error (.fault cause) :=
  first_of_unreadable ((unreadable_of_first h).append_feed closed t) rfl

end Lexeme

section TokensFrom

variable {p : Position} {text : List Char} {e : LexError}

private theorem tokensFrom_append_feed_of_error (h : tokensFrom p text = .error (.fault e))
    (closed : e.cause ≠ .unterminatedString) (t : List Char) :
    tokensFrom p (text ++ '\n' :: t) = .error (.fault e) := by
  fun_induction tokensFrom p text with
  | case1 => cases h
  | case2 p c rest failure first =>
    cases failure with
    | tooLong => cases h
    | fault cause =>
      cases h
      exact tokensFrom_of_error (Lexeme.first_append_feed_of_error first closed t)
  | case3 p c rest l more first ih =>
    exact tokensFrom_error_of_first (Lexeme.first_append_feed first t) (ih (error_of_bind h))

/-- A text with a fault is a readable front and an unreadable rest, and the error is about the place
between them. -/
theorem exists_front_of_tokensFrom {before : List Char}
    (h : tokensFrom (.following before) text = .error (.fault e)) :
    ∃ front rest tokens, text = front ++ rest ∧
      Segmented before front (tokens ++ [⟨.endOfInput, "", e.position⟩]) ∧
      Unreadable rest e.cause e.cause.message := by
  generalize hp : Position.following before = p at h
  fun_induction tokensFrom p text generalizing before with
  | case1 => cases h
  | case2 p c rest failure first =>
    cases failure with
    | tooLong => cases h
    | fault cause =>
      cases h
      subst hp
      exact ⟨[], c :: rest, [], rfl, .finish, Lexeme.unreadable_of_first first⟩
  | case3 p c rest l more first ih =>
    subst hp
    obtain ⟨front, fault, tokens, rfl, readable, unreadable⟩ :=
      ih (Position.following_append before l.spelling) (error_of_bind h)
    refine ⟨l.spelling ++ front, fault, (l.token? (.following before)).toList ++ tokens, ?_, ?_,
      unreadable⟩
    · rw [← Lexeme.first_spelling first, List.append_assoc]
    · -- The piece in front of the fault is read as well where the text ends before the fault.
      rw [List.append_assoc]
      exact .piece first (List.prefix_append front fault) readable

def oneDigit (before : List Char) (d : Char) : List Token :=
  [⟨.integer, String.singleton d, .following before⟩,
    ⟨.endOfInput, "", .following (before ++ [d])⟩]

/-- A text in which too many digits are met is a front, readable together with the first of them,
and the rest. -/
private theorem exists_front_of_tooLong {before : List Char} {n : Nat}
    (h : tokensFrom (.following before) text = .error (.tooLong n)) :
    ∃ front d rest tokens, text = front ++ d :: rest ∧ BeginsTooLong n (d :: rest) ∧
      Segmented before (front ++ [d]) (tokens ++ oneDigit (before ++ front) d) := by
  generalize hp : Position.following before = p at h
  fun_induction tokensFrom p text generalizing before with
  | case1 => cases h
  | case2 p c rest failure first =>
    cases failure with
    | fault => cases h
    | tooLong =>
      cases h
      obtain ⟨digit, long⟩ := Lexeme.beginsTooLong_of_first first
      have alone : Segmented before [c] (oneDigit before c) :=
        .piece (Lexeme.first_digit digit) List.prefix_rfl .finish
      exact ⟨[], c, rest, [], rfl, long, by rwa [List.append_nil]⟩
  | case3 p c rest l more first ih =>
    subst hp
    obtain ⟨front, d, rest, tokens, rfl, long, readable⟩ :=
      ih (Position.following_append before l.spelling) (error_of_bind h)
    have short : front ++ [d] <+: front ++ d :: rest :=
      (List.prefix_append_right_inj front).mpr (List.prefix_append [d] rest)
    refine ⟨l.spelling ++ front, d, rest, (l.token? (.following before)).toList ++ tokens, ?_, long,
      ?_⟩
    · rw [← Lexeme.first_spelling first, List.append_assoc]
    · rw [List.append_assoc, List.append_assoc, ← List.append_assoc before]
      exact .piece first short readable

private theorem eq_nil_or_concat_of_append (front : List Char) {behind : List Char} {c : Char}
    (h : front ++ behind = text ++ [c]) :
    behind = [] ∨ ∃ middle, behind = middle ++ [c] ∧ text = front ++ middle := by
  rcases List.eq_nil_or_concat behind with none | ⟨middle, d, same⟩
  · exact .inl none
  · rw [List.concat_eq_append] at same
    subst same
    rw [← List.append_assoc] at h
    obtain ⟨rfl, last⟩ := List.append_inj' h rfl
    cases last
    exact .inr ⟨middle, rfl, rfl⟩

private theorem head?_append_cons (front rest : List Char) (c : Char) :
    (front ++ c :: rest).head? = (front ++ [c]).head? := by
  cases front <;> rfl

private theorem Segmented.eq_end {before : List Char} {tokens : List Token}
    (h : Segmented before [] tokens) : tokens = [⟨.endOfInput, "", .following before⟩] := by
  have found := h.tokensFrom
  rw [tokensFrom_nil] at found
  exact (Except.ok.inj found).symm

private theorem Segmented.ne_oneDigit {before front : List Char} {tokens others : List Token}
    {d : Char} (h : Segmented before [] tokens) : tokens ≠ others ++ oneDigit front d := by
  intro same
  rw [h.eq_end] at same
  simpa [oneDigit] using congrArg List.length same

/-- Where a readable text ends in a number of one digit, and too many digits stand in place of that
digit, the text is read up to there. -/
private theorem Segmented.tooLong {before front rest : List Char} {tokens others : List Token}
    {d : Char} {n : Nat} (h : Segmented before text tokens) (whole : text = front ++ [d])
    (ends : tokens = others ++ oneDigit (before ++ front) d)
    (long : BeginsTooLong n (d :: rest)) :
    ScriptLang.tokensFrom (.following before) (front ++ d :: rest) = .error (.tooLong n) := by
  -- Behind a segment in front of the digit the same holds, with that segment added to `before`.
  induction h generalizing front others with
  | finish => simp at whole
  | @space before behind tokens c space segmented ih =>
    rcases eq_nil_or_concat_of_append [c] whole with rfl | ⟨middle, rfl, rfl⟩
    · exact absurd ends segmented.ne_oneDigit
    · rw [List.append_assoc, List.singleton_append,
        tokensFrom_space (Lexeme.isSpace_iff.mpr space), ← Position.following_concat]
      exact ih rfl (by rw [ends, List.append_assoc before])
  | @comment before said behind tokens marker feed stop segmented ih =>
    rcases eq_nil_or_concat_of_append _ whole with rfl | ⟨middle, rfl, rfl⟩
    · exact absurd ends segmented.ne_oneDigit
    · have stop : (middle ++ d :: rest).head? = some '\n' := by
        rw [head?_append_cons]
        exact stop.resolve_left (by simp)
      have behind := ih rfl (by rw [ends, List.append_assoc before])
      rw [Position.following_append] at behind
      rw [List.append_assoc]
      exact tokensFrom_error_of_first (Lexeme.first_comment marker feed (.inr stop)) behind
  | @token before behind tokens t fits segmented ih =>
    rcases eq_nil_or_concat_of_append _ whole with rfl | ⟨middle, rfl, rfl⟩
    · rw [segmented.eq_end] at ends
      cases others with
      | nil =>
        obtain ⟨rfl, -⟩ := List.cons.inj ends
        have alone : front = [] := by
          simpa [Token.spelling] using congrArg List.length whole
        subst alone
        exact tokensFrom_of_error (Lexeme.first_of_beginsTooLong long)
      | cons u others => simpa [oneDigit] using congrArg List.length ends
    · have longest : t.Longest (middle ++ d :: rest) := by
        have same := fits.longest
        unfold Token.Longest at same ⊢
        rwa [head?_append_cons]
      have next : t.Fits before (middle ++ d :: rest) := { fits with longest }
      obtain ⟨c, cs, l, text, read, -, same⟩ := next.first
      cases others with
      | nil =>
        -- The token would have to stand where the digit does, but the digit is behind it.
        have there : t.position = .following (before ++ (t.spelling ++ middle)) :=
          congrArg Token.position (List.cons.inj ends).1
        have filled : t.spelling ++ middle ≠ [] := by simp [text]
        have later := (Position.following before).before_after filled
        rw [← Position.following_append, ← there, fits.position] at later
        exact absurd later (Position.not_before_self _)
      | cons u others =>
        have behind := ih rfl ((List.cons.inj ends).2.trans (by rw [List.append_assoc before]; rfl))
        rw [List.append_assoc, text]
        refine tokensFrom_error_of_first read ?_
        rwa [same, ← Position.following_append]

end TokensFrom

/-- That a source text goes on with too many digits, `n` of them, where a number begins: if only the
first of them is left, the text up to there has tokens, and that digit is the last. -/
def MeetsTooLong (n : Nat) (source : String) : Prop :=
  ∃ front digit rest tokens, source.toList = front ++ digit :: rest ∧
    BeginsTooLong n (digit :: rest) ∧
    tokenize (String.ofList (front ++ [digit])) = .ok (tokens ++ oneDigit front digit)

/-- The cutting of a text ends at too many digits exactly if the text meets them. -/
theorem tokenize_eq_tooLong_iff {source : String} {n : Nat} :
    tokenize source = .error (.tooLong n) ↔ MeetsTooLong n source := by
  unfold MeetsTooLong
  simp only [tokenize_eq_ok_iff_segmented, String.toList_ofList]
  rw [tokenize, ← Position.following_nil]
  constructor
  · exact exists_front_of_tooLong
  · rintro ⟨front, digit, rest, tokens, whole, long, readable⟩
    rw [whole]
    exact readable.tooLong rfl rfl long

theorem meetsTooLong_of_digits {digits : List Char} (all : ∀ c ∈ digits, c.isDigit)
    (long : Text.digitLimit < digits.length) :
    MeetsTooLong digits.length (String.ofList digits) := by
  have begins : BeginsTooLong digits.length digits :=
    ⟨long, digits, [], (List.append_nil digits).symm, rfl, all, nofun⟩
  cases digits with
  | nil => exact absurd long (Nat.not_lt_zero _)
  | cons c digits =>
    refine tokenize_eq_tooLong_iff.mp ?_
    rw [tokenize, String.toList_ofList]
    exact tokensFrom_of_error (Lexeme.first_of_beginsTooLong begins)

/-- A text with a fault is readable up to the place of the error: cut off there, it has tokens, with
the end mark at that place. Behind it stands a number greater than `2 ^ 63 - 1`,
a quote that no later quote closes or a character that begins nothing, and the error says which.
The error stays when a line feed and more text follow, unless it is about an open string. -/
theorem exists_readable_front {source : String} {e : LexError}
    (h : tokenize source = .error (.fault e)) :
    ∃ front rest, source = front ++ rest ∧
      (∃ tokens, tokenize front = .ok tokens ∧
        tokens.getLast? = some ⟨.endOfInput, "", e.position⟩) ∧
      Unreadable rest.toList e.cause e.cause.message ∧
      (e.cause ≠ .unterminatedString →
        ∀ t, tokenize (source ++ "\n" ++ t) = .error (.fault e)) := by
  rw [tokenize, ← Position.following_nil] at h
  obtain ⟨front, rest, tokens, whole, readable, unreadable⟩ := exists_front_of_tokensFrom h
  refine ⟨String.ofList front, String.ofList rest, ?_, ⟨tokens ++ [_], ?_, List.getLast?_concat⟩,
    ?_, ?_⟩
  · rw [← String.ofList_append, ← whole, String.ofList_toList]
  · rw [tokenize_eq_ok_iff_segmented, String.toList_ofList]
    exact readable
  · rwa [String.toList_ofList]
  · intro closed t
    have text : (source ++ "\n" ++ t).toList = source.toList ++ '\n' :: t.toList := by simp
    rw [tokenize, text]
    exact tokensFrom_append_feed_of_error h closed t.toList

/-- A string over two lines, a comment, and then a number that is too great. -/
theorem exists_readable_front_of_great_number :
    let source := "\"a\n\" # b\n->99999999999999999999=="
    let e : LexError := ⟨.invalidNumber "99999999999999999999", ⟨3, 3⟩⟩
    tokenize source = .error (.fault e) ∧
      ∃ front rest, source = front ++ rest ∧
        (∃ tokens, tokenize front = .ok tokens ∧
          tokens.getLast? = some ⟨.endOfInput, "", e.position⟩) ∧
        Unreadable rest.toList e.cause e.cause.message ∧
        (e.cause ≠ .unterminatedString →
          ∀ t, tokenize (source ++ "\n" ++ t) = .error (.fault e)) := by
  intro source e
  have fails : tokenize source = .error (.fault e) := by
    have text : source.toList = ['"', 'a', '\n', '"', ' ', '#', ' ', 'b', '\n', '-', '>'] ++
        List.replicate 20 '9' ++ ['=', '='] := by
      decide
    rw [tokenize, text]
    iterate 5 refine tokensFrom_error_of_first rfl ?_
    exact tokensFrom_of_error (rfl : Lexeme.first '9' _ = .error (.fault e.cause))
  exact ⟨fails, exists_readable_front fails⟩

end ScriptLang
