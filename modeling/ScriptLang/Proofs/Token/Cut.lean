import ScriptLang.Proofs.Program.Relocation
import ScriptLang.Proofs.Token.Regular

/-!
How a text that is put together from pieces is cut into tokens. `Cut` relates a whole text to its
tokens, without their places and without the end mark; each lemma puts one piece in front of a text
of which the cut is known. The text that follows is always there, since a piece may go on in it.
-/

set_option autoImplicit false
set_option relaxedAutoImplicit false

namespace ScriptLang

namespace Token

def plain (kind : Kind) (text : String) : Token :=
  ⟨kind, text, .first⟩

def sign (text : String) : Token :=
  plain .operator text

def name (text : String) : Token :=
  plain .identifier text

@[simp] theorem text_name (text : String) : (name text).text = text := rfl

@[simp] theorem position_name (text : String) : (name text).position = .first := rfl

def reserved (word : String) : Token :=
  plain (.word word) word

@[simp] theorem position_reserved (word : String) : (reserved word).position = .first := rfl

def feed : Token :=
  plain .newline "\n"

def final : Token :=
  plain .endOfInput ""

end Token

/-- That a text is cut into tokens, whatever their places. -/
inductive Cut : List Char → List Token → Prop where
  | done : Cut [] []
  | token {c : Char} {rest more : List Char} {l : Lexeme} {kind : Kind} {text : String}
      {ts : List Token} : Lexeme.first c rest = .ok (l, more) → l.content = some (kind, text) →
      Cut more ts → Cut (c :: rest) (.plain kind text :: ts)
  | pass {c : Char} {rest more : List Char} {l : Lexeme} {ts : List Token} :
      Lexeme.first c rest = .ok (l, more) → l.content = none → Cut more ts → Cut (c :: rest) ts

private theorem Cut.tokensFrom {text : List Char} {ts : List Token} (h : Cut text ts)
    (p : Position) : ∃ tokens, ScriptLang.tokensFrom p text = .ok tokens ∧
      tokens.map Token.unplaced = ts ++ [.final] := by
  induction h generalizing p with
  | done =>
    exact ⟨[⟨.endOfInput, "", p⟩], tokensFrom_nil p, rfl⟩
  | @token c rest more l kind text ts first content _ ih =>
    obtain ⟨tokens, others, same⟩ := ih (p.after l.spelling)
    refine ⟨_, tokensFrom_cons first rfl others, ?_⟩
    rw [Lexeme.token?, content, List.map_append, same]
    rfl
  | @pass c rest more l ts first content _ ih =>
    obtain ⟨tokens, others, same⟩ := ih (p.after l.spelling)
    refine ⟨_, tokensFrom_cons first rfl others, ?_⟩
    rw [Lexeme.token?, content, List.map_append, same]
    rfl

theorem Cut.tokenize {text : String} {ts : List Token} (h : Cut text.toList ts) :
    ∃ tokens, ScriptLang.tokenize text = .ok tokens ∧
      tokens.map Token.unplaced = ts ++ [.final] :=
  h.tokensFrom .first

/-- Whether a word or a number ends before a text. -/
def Breaks : List Char → Prop
  | [] => True
  | c :: _ => ¬ Lexeme.isWordPart c

namespace Lexeme

private theorem not_isWordStart_of_mem {c : Char} (h : c ∈ [' ', '\t', '\r', '\n', '#', '"']) :
    ¬ isWordStart c := by
  have all : [' ', '\t', '\r', '\n', '#', '"'].all (!isWordStart ·) := by decide
  simpa using List.all_eq_true.mp all c h

private theorem not_isDigit_of_isLetter {c : Char} (h : Text.isLetter c) : ¬ c.isDigit := by
  intro digit
  have bounds : 48 ≤ c.toNat ∧ c.toNat ≤ 57 := by
    simpa [Char.isDigit, UInt32.le_iff_toNat_le] using digit
  have above (n : UInt32) (le : n ≤ c.val) : n.toNat ≤ c.toNat := UInt32.le_iff_toNat_le.mp le
  rcases (Bool.or_eq_true _ _).mp h with ascii | other
  · rcases (Bool.or_eq_true _ _).mp ascii with upper | lower
    · have := above 65 (of_decide_eq_true upper).1
      simp at this
      omega
    · have := above 97 (of_decide_eq_true ((Bool.and_eq_true _ _).mp lower).1)
      simp at this
      omega
  · have := of_decide_eq_true ((Bool.and_eq_true _ _).mp other).1
    omega

private theorem apart_of_isWordStart {c : Char} (h : isWordStart c) :
    ¬ isSpace c ∧ c ≠ '\n' ∧ c ≠ '#' ∧ ¬ c.isDigit ∧ c ≠ '"' := by
  have other : c ∉ [' ', '\t', '\r', '\n', '#', '"'] := fun known => not_isWordStart_of_mem known h
  have digit : ¬ c.isDigit := by
    simp only [isWordStart, Bool.or_eq_true, decide_eq_true_eq] at h
    rcases h with letter | rfl
    · exact not_isDigit_of_isLetter letter
    · decide
  simp only [List.mem_cons, List.not_mem_nil, or_false, not_or] at other
  obtain ⟨space, tab, carriage, feed, sharp, quote⟩ := other
  exact ⟨by simp [isSpace, space, tab, carriage], feed, sharp, digit, quote⟩

private theorem isWordPart_of_isDigit {c : Char} (h : c.isDigit) : isWordPart c := by
  simp [isWordPart, Text.isNumeric_of_isDigit h]

end Lexeme

open Lexeme

variable {rest : List Char} {ts : List Token}

theorem takeWhile_append_of_head {test : Char → Bool} {text : List Char}
    (all : ∀ c ∈ text, test c) (stop : ∀ c ∈ rest.head?, ¬ test c) :
    (text ++ rest).takeWhile test = text ∧ (text ++ rest).dropWhile test = rest := by
  have ended : rest.takeWhile test = [] ∧ rest.dropWhile test = rest := by
    cases rest with
    | nil => exact ⟨rfl, rfl⟩
    | cons c rest =>
      have other := stop c rfl
      exact ⟨List.takeWhile_cons_of_neg other, List.dropWhile_cons_of_neg other⟩
  rw [List.takeWhile_append_of_pos all, List.dropWhile_append_of_pos all, ended.1, ended.2,
    List.append_nil]
  exact ⟨rfl, rfl⟩

private theorem breaks_iff : Breaks rest ↔ ∀ c ∈ rest.head?, ¬ isWordPart c := by
  cases rest <;> simp [Breaks]

namespace Lexeme

private theorem not_isSpace_of_isDigit {c : Char} (h : c.isDigit) :
    ¬ isSpace c ∧ c ≠ '\n' ∧ c ≠ '#' := by
  refine ⟨?_, ?_, ?_⟩
  · intro space
    simp only [isSpace, Bool.or_eq_true, decide_eq_true_eq] at space
    rcases space with (rfl | rfl) | rfl <;> exact absurd h (by decide)
  · rintro rfl
    exact absurd h (by decide)
  · rintro rfl
    exact absurd h (by decide)

private theorem first_of_isDigit {c : Char} (digit : c.isDigit) (rest : List Char) :
    first c rest =
      let digits := c :: rest.takeWhile Char.isDigit
      if Text.digitLimit < digits.length then .error (.tooLong digits.length)
      else if Text.naturalValue digits ≤ greatestInteger then
        .ok (.integer digits, rest.dropWhile Char.isDigit)
      else .error (.fault (.invalidNumber (String.ofList digits))) := by
  obtain ⟨space, feed, sharp⟩ := not_isSpace_of_isDigit digit
  unfold first
  rw [if_neg space, if_neg feed, if_neg (fun h => sharp h.1), if_pos digit]

private theorem apart_of_operatorSigns {c : Char} (h : c ∈ operatorSigns) :
    ¬ isSpace c ∧ c ≠ '\n' ∧ c ≠ '#' ∧ ¬ c.isDigit ∧ c ≠ '"' ∧ ¬ isWordStart c := by
  have all : operatorSigns.all fun c =>
      ¬ isSpace c ∧ c ≠ '\n' ∧ c ≠ '#' ∧ ¬ c.isDigit ∧ c ≠ '"' ∧ ¬ isWordStart c := by
    decide
  exact of_decide_eq_true (List.all_eq_true.mp all c h)

/-- The cases of `first` exclude each other. -/
theorem First.eq {c : Char} {found : Except (LexFailure LexCause) (Lexeme × List Char)}
    (h : First c rest found) : first c rest = found := by
  cases h with
  | blank space => exact if_pos space
  | newline feed =>
    subst feed
    rfl
  | comment sharp marker =>
    subst sharp
    unfold first
    rw [if_neg (by decide), if_neg (by decide), if_pos ⟨rfl, marker⟩]
  | tooLong digit long =>
    rw [first_of_isDigit digit]
    exact if_pos long
  | integer digit short small =>
    rw [first_of_isDigit digit]
    exact (if_neg (Nat.not_lt_of_le short)).trans (if_pos small)
  | great digit short great =>
    rw [first_of_isDigit digit]
    exact (if_neg (Nat.not_lt_of_le short)).trans (if_neg (Nat.not_le_of_lt great))
  | string quote closed =>
    subst quote
    change (match rest.dropWhile (· ≠ '"') with | [] => _ | _ :: more => _) = _
    rw [closed]
  | unclosed quote opened =>
    subst quote
    change (match rest.dropWhile (· ≠ '"') with | [] => _ | _ :: more => _) = _
    rw [opened]
  | word start =>
    obtain ⟨space, feed, sharp, digit, quote⟩ := apart_of_isWordStart start
    unfold first
    rw [if_neg space, if_neg feed, if_neg (fun h => sharp h.1), if_neg digit, if_neg quote,
      if_pos start]
  | operator found =>
    rcases operator?_eq_some_iff.mp found with
      ⟨d, rfl, rfl, ⟨rfl, rfl⟩ | ⟨rfl, rfl⟩ | ⟨rfl, rfl⟩⟩ | ⟨rfl, rfl, known, -⟩
    · rfl
    · rfl
    · rfl
    · obtain ⟨space, feed, sharp, digit, quote, start⟩ := apart_of_operatorSigns known
      unfold first
      rw [if_neg space, if_neg feed, if_neg (fun h => sharp h.1), if_neg digit, if_neg quote,
        if_neg start, found]
  | character space feed sharp digit quote start none =>
    unfold first
    rw [if_neg space, if_neg feed, if_neg (fun h => h.2 (sharp h.1)), if_neg digit, if_neg quote,
      if_neg start, none]

theorem first_word {c : Char} {text : List Char} (start : isWordStart c)
    (all : ∀ d ∈ text, isWordPart d) (stop : ∀ d ∈ rest.head?, ¬ isWordPart d) :
    first c (text ++ rest) = .ok (.word (c :: text), rest) := by
  obtain ⟨taken, left⟩ := takeWhile_append_of_head all stop
  have found : first c (text ++ rest) = _ := First.eq (.word start)
  rwa [taken, left] at found

theorem exists_word_of_reserved {w : String} (known : w ∈ reservedWords) :
    ∃ c text, w.toList = c :: text ∧ isWordStart c ∧ ∀ d ∈ text, isWordPart d := by
  have each : reservedWords.all fun w =>
      isWordStart w.toList.head! ∧ w.toList ≠ [] ∧ w.toList.tail.all isWordPart := by
    decide
  obtain ⟨start, filled, all⟩ := of_decide_eq_true (List.all_eq_true.mp each w known)
  rw [List.all_eq_true] at all
  cases same : w.toList with
  | nil => exact absurd same filled
  | cons c text =>
    rw [same] at start all
    exact ⟨c, text, rfl, start, all⟩

theorem first_integer {c : Char} {digits : List Char} (digit : c.isDigit)
    (all : ∀ d ∈ digits, d.isDigit) (stop : ∀ d ∈ rest.head?, ¬ d.isDigit)
    (short : (c :: digits).length ≤ Text.digitLimit)
    (small : Text.naturalValue (c :: digits) ≤ greatestInteger) :
    first c (digits ++ rest) = .ok (.integer (c :: digits), rest) := by
  obtain ⟨taken, left⟩ := takeWhile_append_of_head all stop
  have found : first c (digits ++ rest) = _ :=
    First.eq (.integer digit (by rwa [taken]) (by rwa [taken]))
  rwa [taken, left] at found

theorem first_string {text : List Char} (free : '"' ∉ text) :
    first '"' (text ++ '"' :: rest) = .ok (.string text, rest) := by
  have all : ∀ c ∈ text, decide (c ≠ '"') := fun c found =>
    decide_eq_true fun same => free (same ▸ found)
  have stop : ∀ c ∈ ('"' :: rest).head?, ¬ decide (c ≠ '"') := by simp
  obtain ⟨taken, left⟩ := takeWhile_append_of_head all stop
  have found : first '"' (text ++ '"' :: rest) = _ := First.eq (.string rfl left)
  rwa [taken] at found

theorem first_comment {text : List Char} (marker : text.head? ≠ some markerOpening)
    (feed : '\n' ∉ text) (ends : rest = [] ∨ rest.head? = some '\n') :
    first '#' (text ++ rest) = .ok (.comment text, rest) := by
  have all : ∀ c ∈ text, decide (c ≠ '\n') := fun c found =>
    decide_eq_true fun same => feed (same ▸ found)
  have stop : ∀ c ∈ rest.head?, ¬ decide (c ≠ '\n') := by
    intro c next
    rcases ends with rfl | ends
    · cases next
    · rw [ends] at next
      cases next
      decide
  have plain : (text ++ rest).head? ≠ some markerOpening := by
    cases text with
    | cons c text => exact marker
    | nil =>
      rcases ends with rfl | ends
      · simp
      · rw [List.nil_append, ends]
        decide
  obtain ⟨taken, left⟩ := takeWhile_append_of_head all stop
  have found : first '#' (text ++ rest) = _ := First.eq (.comment rfl plain)
  rwa [taken, left] at found

theorem first_sign {c : Char} (known : c ∈ operatorSigns)
    (apart : ∀ d ∈ rest.head?, ¬ (c = '-' ∧ d = '>') ∧ ¬ (c = '=' ∧ d = '=')) :
    first c rest = .ok (.operator [c], rest) := by
  refine First.eq (.operator (operator?_eq_some_iff.mpr (.inr ⟨rfl, rfl, known, ?_⟩)))
  rintro d next (arrow | equals | marker)
  · exact (apart d next).1 arrow
  · exact (apart d next).2 equals
  · exact (apart_of_operatorSigns known).2.2.1 marker.1

end Lexeme

namespace Cut

private theorem word {c : Char} {text : List Char} (start : isWordStart c)
    (all : ∀ d ∈ text, isWordPart d) (breaks : Breaks rest) (h : Cut rest ts) :
    Cut (c :: text ++ rest) (.plain (if String.ofList (c :: text) ∈ reservedWords then
      .word (String.ofList (c :: text)) else .identifier) (String.ofList (c :: text)) :: ts) := by
  exact .token (first_word start all (breaks_iff.mp breaks)) rfl h

theorem name {name : String} (known : IsName name) (breaks : Breaks rest) (h : Cut rest ts) :
    Cut (name.toList ++ rest) (.name name :: ts) := by
  obtain ⟨⟨c, text, same, start, all⟩, free⟩ := known
  have whole : String.ofList (c :: text) = name := by rw [← same, String.ofList_toList]
  have cut := word start all breaks h
  rw [whole, if_neg free] at cut
  rwa [same]

theorem reserved {w : String} (known : w ∈ reservedWords) (breaks : Breaks rest)
    (h : Cut rest ts) : Cut (w.toList ++ rest) (.reserved w :: ts) := by
  obtain ⟨c, text, same, start, all⟩ := exists_word_of_reserved known
  have whole : String.ofList (c :: text) = w := by rw [← same, String.ofList_toList]
  have cut := word start all breaks h
  rw [whole, if_pos known] at cut
  rwa [same]

private theorem toList_toString (n : Nat) : (toString (n : Int)).toList = Nat.toDigits 10 n :=
  Nat.toList_repr

theorem naturalValue_toString (n : Nat) :
    Text.naturalValue (toString (n : Int)).toList = n := by
  rw [toList_toString]
  exact Nat.ofDigitChars_ten_toDigits

private theorem length_toString_le {n : Nat} (small : n ≤ greatestInteger) :
    (toString (n : Int)).toList.length ≤ Text.digitLimit := by
  have short : (Nat.toDigits 10 n).length ≤ 19 := by
    refine (Nat.length_toDigits_le_iff (by decide) (by decide)).mpr (Nat.lt_of_le_of_lt small ?_)
    decide
  rw [toList_toString]
  exact short.trans (by decide)

theorem integer {n : Nat} (small : n ≤ greatestInteger) (breaks : Breaks rest) (h : Cut rest ts) :
    Cut ((toString (n : Int)).toList ++ rest) (.plain .integer (toString (n : Int)) :: ts) := by
  have text := toList_toString n
  have all : ∀ c ∈ Nat.toDigits 10 n, c.isDigit :=
    fun c found => Nat.isDigit_of_mem_toDigits (by decide) (by decide) found
  have value := naturalValue_toString n
  have short := length_toString_le small
  obtain ⟨c, digits, same⟩ := List.exists_cons_of_ne_nil (Nat.toDigits_ne_nil (n := n) (b := 10))
  rw [← String.ofList_toList (s := toString (n : Int)), String.toList_ofList, text, same]
  rw [text, same] at value short
  rw [same] at all
  have stop : ∀ d ∈ rest.head?, ¬ d.isDigit := fun d next digit =>
    breaks_iff.mp breaks d next (isWordPart_of_isDigit digit)
  refine .token (first_integer (all c List.mem_cons_self) ?_ stop short (by rwa [value])) rfl h
  exact fun d found => all d (List.mem_cons_of_mem c found)

theorem string {text : String} (free : '"' ∉ text.toList) (h : Cut rest ts) :
    Cut ('"' :: (text.toList ++ '"' :: rest)) (.plain .string text :: ts) := by
  have content : (Lexeme.string text.toList).content = some (.string, text) := by
    rw [Lexeme.content, String.ofList_toList]
  exact .token (first_string free) content h

theorem space (h : Cut rest ts) : Cut (' ' :: rest) ts := by
  have first : Lexeme.first ' ' rest =
      .ok (.blank (' ' :: rest.takeWhile isSpace), rest.dropWhile isSpace) := rfl
  refine .pass first rfl ?_
  cases rest with
  | nil => exact h
  | cons c rest =>
    by_cases blank : isSpace c
    · rw [List.dropWhile_cons_of_pos blank]
      have again : Lexeme.first c rest = _ := First.eq (.blank blank)
      cases h with
      | token first content =>
        rw [again] at first
        cases first
        cases content
      | pass first _ more =>
        rw [again] at first
        cases first
        exact more
    · rwa [List.dropWhile_cons_of_neg blank]

theorem newline (h : Cut rest ts) : Cut ('\n' :: rest) (.feed :: ts) :=
  .token (l := .newline) rfl rfl h

private theorem sign_of_apart {c : Char} (known : c ∈ operatorSigns)
    (apart : ∀ d ∈ rest.head?, ¬ (c = '-' ∧ d = '>') ∧ ¬ (c = '=' ∧ d = '='))
    (h : Cut rest ts) : Cut (c :: rest) (.sign (String.singleton c) :: ts) :=
  .token (first_sign known apart) rfl h

private theorem sign {c : Char} (h : Cut rest ts)
    (known : c ∈ ['(', ')', '.', ':', '+', '*', '/']) :
    Cut (c :: rest) (.sign (String.singleton c) :: ts) := by
  have all : ['(', ')', '.', ':', '+', '*', '/'].all fun c =>
      c ∈ operatorSigns ∧ c ≠ '-' ∧ c ≠ '=' := by
    decide
  have single := of_decide_eq_true (List.all_eq_true.mp all c known)
  exact sign_of_apart single.1 (fun _ _ => ⟨fun h => single.2.1 h.1, fun h => single.2.2 h.1⟩) h

theorem opening (h : Cut rest ts) : Cut ('(' :: rest) (.sign "(" :: ts) :=
  sign h (by decide)

theorem closing (h : Cut rest ts) : Cut (')' :: rest) (.sign ")" :: ts) :=
  sign h (by decide)

theorem dot (h : Cut rest ts) : Cut ('.' :: rest) (.sign "." :: ts) :=
  sign h (by decide)

theorem colon (h : Cut rest ts) : Cut (':' :: rest) (.sign ":" :: ts) :=
  sign h (by decide)

theorem sign_space {c : Char} (h : Cut rest ts) (known : c ∈ operatorSigns) :
    Cut (c :: ' ' :: rest) (.sign (String.singleton c) :: ts) := by
  refine sign_of_apart known ?_ h.space
  rintro d ⟨⟩
  exact ⟨by simp, by simp⟩

theorem equals (h : Cut rest ts) : Cut ('=' :: '=' :: rest) (.sign "==" :: ts) :=
  .token (l := .operator ['=', '=']) rfl rfl h

theorem arrow (h : Cut rest ts) : Cut ('-' :: '>' :: rest) (.sign "->" :: ts) :=
  .token (l := .operator ['-', '>']) rfl rfl h

end Cut

end ScriptLang
