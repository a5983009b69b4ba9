import ScriptLang.Proofs.Token.Cut

/-!
The tokens of a text as its segmentation. `Segmented before rest tokens` says how the text `rest`,
which follows the text `before`, is made up: at each place stands a space, a comment that runs to
the end of its line, or the text of the next token, none of them shorter than it could be. The
tokenizer finds the segmentation of a text exactly if there is one, so there is at most one. Places
are counted from the text alone, apart from the way in which the tokenizer keeps them.
-/

set_option autoImplicit false
set_option relaxedAutoImplicit false

namespace ScriptLang

namespace Position

/-- The place that a text leads up to: one line more than it has line feeds, and one column more
than it has characters after the last of them. -/
def following (before : List Char) : Position :=
  ⟨1 + before.count '\n', 1 + (before.reverse.takeWhile (· ≠ '\n')).length⟩

theorem following_concat (before : List Char) (c : Char) :
    following (before ++ [c]) = (following before).next c := by
  unfold following next
  by_cases feed : c = '\n'
  · subst feed
    simp [Int.add_assoc]
  · simp [feed, Int.add_assoc]

theorem following_append (before text : List Char) :
    following (before ++ text) = (following before).after text := by
  induction text generalizing before with
  | nil => simp
  | cons c text ih =>
    rw [after_cons, ← following_concat, ← ih, List.append_assoc, List.singleton_append]

theorem following_nil : following [] = first := rfl

end Position

namespace Token

/-- What a token takes up in the source: its text, between quotes if it is a string. -/
def spelling (t : Token) : List Char :=
  if t.kind = .string then '"' :: (t.text.toList ++ ['"']) else t.text.toList

/-- Whether a token goes on as far as it can: no digit follows a number, no part of a word follows
a word, and what follows `-` or `=` does not make a longer operator of it. -/
def Longest (t : Token) (rest : List Char) : Prop :=
  match t.kind with
  | .integer => ∀ c ∈ rest.head?, ¬ c.isDigit
  | .identifier | .word _ => ∀ c ∈ rest.head?, ¬ Lexeme.isWordPart c
  | .operator => (t.text = "-" → rest.head? ≠ some '>') ∧ (t.text = "=" → rest.head? ≠ some '=')
  | .string | .newline | .endOfInput => True

/-- That a token stands between two texts. A line feed in it makes it a string or a token of its
own. -/
structure Fits (t : Token) (before rest : List Char) : Prop where
  more : t.kind ≠ .endOfInput
  regular : t.Regular
  position : t.position = .following before
  feed : '\n' ∈ t.spelling → t.kind = .newline ∨ t.kind = .string
  longest : t.Longest rest

end Token

/-- That `rest`, standing after `before`, is made up of spaces, comments and the tokens. -/
inductive Segmented : List Char → List Char → List Token → Prop where
  | finish {before : List Char} : Segmented before [] [⟨.endOfInput, "", .following before⟩]
  | space {before rest : List Char} {tokens : List Token} {c : Char} :
      c = ' ' ∨ c = '\t' ∨ c = '\r' → Segmented (before ++ [c]) rest tokens →
      Segmented before (c :: rest) tokens
  | comment {before text rest : List Char} {tokens : List Token} :
      text.head? ≠ some '\x7b' → '\n' ∉ text → rest = [] ∨ rest.head? = some '\n' →
      Segmented (before ++ '#' :: text) rest tokens →
      Segmented before ('#' :: text ++ rest) tokens
  | token {before rest : List Char} {tokens : List Token} {t : Token} :
      t.Fits before rest → Segmented (before ++ t.spelling) rest tokens →
      Segmented before (t.spelling ++ rest) (t :: tokens)

namespace Lexeme

variable {c : Char} {rest more : List Char} {l : Lexeme} {p : Position} {t : Token}

theorem isSpace_iff : isSpace c ↔ c = ' ' ∨ c = '\t' ∨ c = '\r' := by
  simp [isSpace, or_assoc]

theorem head?_dropWhile_stops (test : Char → Bool) (rest : List Char) :
    ∀ d ∈ (rest.dropWhile test).head?, ¬ test d := by
  intro d found
  have stopped := List.head?_dropWhile_not test rest
  rw [Option.mem_def.mp found] at stopped
  simpa using stopped

theorem blank_or_comment_of_first (h : first c rest = .ok (l, more)) (none : l.content = none) :
    (∃ text, l = .blank text ∧ ∀ d ∈ text, isSpace d) ∨
      ∃ text, l = .comment text ∧ text.head? ≠ some '\x7b' ∧ '\n' ∉ text ∧
        (more = [] ∨ more.head? = some '\n') := by
  cases First.of_eq h with
  | blank space =>
    refine .inl ⟨_, rfl, fun d found => ?_⟩
    rcases List.mem_cons.mp found with rfl | inside
    · exact space
    · exact List.mem_takeWhile_imp inside
  | comment _ marker =>
    refine .inr ⟨_, rfl, fun opens => marker ?_,
      fun feed => by simpa using List.mem_takeWhile_imp feed, ?_⟩
    · cases rest with
      | nil => cases opens
      | cons d rest =>
        rw [List.takeWhile_cons] at opens
        split at opens
        · exact opens
        · cases opens
    · cases left : rest.dropWhile (· ≠ '\n') with
      | nil => exact .inl rfl
      | cons d more =>
        have stopped := head?_dropWhile_stops (· ≠ '\n') rest d (by rw [left]; rfl)
        exact .inr (by simpa using stopped)
  | newline | integer | string | word | operator => cases none

private theorem longest_of_operator? {text : List Char} (h : operator? c rest = some (text, more)) :
    (String.ofList text = "-" → more.head? ≠ some '>') ∧
      (String.ofList text = "=" → more.head? ≠ some '=') := by
  have known (s : String) : String.ofList text = s ↔ text = s.toList :=
    ⟨fun h => by rw [← h, String.toList_ofList], fun h => by rw [h, String.ofList_toList]⟩
  rw [known, known]
  rcases operator?_eq_some_iff.mp h with ⟨d, -, rfl, pair⟩ | ⟨rfl, rfl, -, alone⟩
  · exact ⟨nofun, nofun⟩
  · constructor
    · rintro same next
      cases same
      exact alone '>' next (.inl ⟨rfl, rfl⟩)
    · rintro same next
      cases same
      exact alone '=' next (.inr (.inl ⟨rfl, rfl⟩))

theorem longest_of_first (h : first c rest = .ok (l, more)) (found : l.token? p = some t) :
    t.spelling = l.spelling ∧ t.Longest more := by
  cases First.of_eq h with
  | blank | comment => cases found
  | newline | string =>
    cases found
    exact ⟨by simp [Token.spelling, spelling], trivial⟩
  | integer =>
    cases found
    exact ⟨by simp [Token.spelling, spelling], head?_dropWhile_stops Char.isDigit rest⟩
  | word =>
    cases found
    have stop := head?_dropWhile_stops isWordPart rest
    refine ⟨?_, ?_⟩
    · dsimp only [Token.spelling, spelling]
      split_ifs <;> simp_all
    · dsimp only [Token.Longest]
      split_ifs <;> exact stop
  | operator sign =>
    cases found
    exact ⟨by simp [Token.spelling, spelling], longest_of_operator? sign⟩

end Lexeme

namespace Token

theorem Regular.newline_or_string {t : Token} (h : t.Regular) (feed : '\n' ∈ t.spelling) :
    t.kind = .newline ∨ t.kind = .string := by
  unfold Regular at h
  unfold spelling at feed
  generalize t.kind = kind at h feed ⊢
  cases kind with
  | integer =>
    rw [if_neg (by simp)] at feed
    exact absurd (h.2.1 '\n' feed) (by decide)
  | string => exact .inr rfl
  | identifier =>
    obtain ⟨⟨c, rest, text, start, all⟩, -⟩ := h
    rw [if_neg (by simp), text] at feed
    rcases List.mem_cons.mp feed with rfl | inside
    · exact absurd start (by decide)
    · exact absurd (all '\n' inside) (by decide)
  | operator =>
    rw [if_neg (by simp)] at feed
    have all : operatorTexts.all fun sign => '\n' ∉ sign.toList := by decide
    exact absurd feed (by simpa using List.all_eq_true.mp all _ h)
  | newline => exact .inl rfl
  | endOfInput =>
    rw [if_neg (by simp), h] at feed
    simp at feed
  | word tag =>
    rw [if_neg (by simp), h.1] at feed
    have all : Lexeme.reservedWords.all fun word => '\n' ∉ word.toList := by decide
    exact absurd feed (by simpa using List.all_eq_true.mp all _ h.2)

end Token

private theorem eq_nil_or_head?_of_prefix {front text : List Char} (short : front <+: text) :
    front = [] ∨ front.head? = text.head? := by
  obtain ⟨rest, rfl⟩ := short
  cases front with
  | nil => exact .inl rfl
  | cons c front => exact .inr rfl

private theorem Token.Longest.of_prefix {t : Token} {front rest : List Char} (h : t.Longest rest)
    (short : front <+: rest) : t.Longest front := by
  rcases eq_nil_or_head?_of_prefix short with rfl | same
  · unfold Longest
    split <;> simp
  · unfold Longest at h ⊢
    rwa [same]

namespace Segmented

variable {before rest : List Char} {tokens : List Token}

theorem spaces {text : List Char} (all : ∀ d ∈ text, Lexeme.isSpace d)
    (h : Segmented (before ++ text) rest tokens) : Segmented before (text ++ rest) tokens := by
  induction text generalizing before with
  | nil => simpa using h
  | cons c text ih =>
    refine .space (Lexeme.isSpace_iff.mp (all c List.mem_cons_self)) (ih ?_ ?_)
    · exact fun d found => all d (List.mem_cons_of_mem c found)
    · simpa using h

open Lexeme in
/-- The first piece of a text is a segment of it. It stays one if the text is cut short somewhere
behind it, as what comes after a piece can but make it longer. -/
theorem piece {c : Char} {rest more front : List Char} {l : Lexeme}
    (first : Lexeme.first c rest = .ok (l, more)) (short : front <+: more)
    (others : Segmented (before ++ l.spelling) front tokens) :
    Segmented before (l.spelling ++ front) ((l.token? (.following before)).toList ++ tokens) := by
  cases found : l.token? (.following before) with
  | some t =>
    obtain ⟨notEnd, regular⟩ := regular_of_first first found
    obtain ⟨same, longest⟩ := longest_of_first first found
    have place : t.position = .following before := by
      obtain ⟨content, -, rfl⟩ := Option.map_eq_some_iff.mp found
      rfl
    have fits : t.Fits before front :=
      ⟨notEnd, regular, place, regular.newline_or_string, longest.of_prefix short⟩
    rw [← same] at others ⊢
    exact .token fits others
  | none =>
    have none : l.content = none := Option.map_eq_none_iff.mp found
    rcases blank_or_comment_of_first first none with
      ⟨text, rfl, all⟩ | ⟨text, rfl, marker, feed, ends⟩
    · exact others.spaces all
    · refine .comment marker feed ?_ others
      rcases eq_nil_or_head?_of_prefix short with nil | head
      · exact .inl nil
      · rcases ends with rfl | ends
        · exact .inl (List.prefix_nil.mp short)
        · exact .inr (head.trans ends)

end Segmented

open Lexeme in
/-- What the tokenizer finds is a segmentation. -/
theorem segmented_of_tokensFrom {before text : List Char} {tokens : List Token}
    (h : tokensFrom (.following before) text = .ok tokens) : Segmented before text tokens := by
  generalize hp : Position.following before = p at h
  fun_induction tokensFrom p text generalizing before tokens with
  | case1 p =>
    cases h
    subst hp
    exact .finish
  | case2 => cases h
  | case3 p c rest l more first ih =>
    subst hp
    obtain ⟨tail, found, rfl⟩ := exists_tail_of_bind h
    rw [← first_spelling first]
    exact .piece first (List.prefix_refl more)
      (ih (Position.following_append before l.spelling) found)

private theorem exists_character_of_tokensFrom {before text : List Char} {e : LexError}
    (h : tokensFrom (.following before) text = .error (.fault e)) :
    ∃ front c rest, text = front ++ c :: rest ∧ e.position = .following (before ++ front) := by
  generalize hp : Position.following before = p at h
  fun_induction tokensFrom p text generalizing before with
  | case1 => cases h
  | case2 p c rest failure =>
    cases failure with
    | fault cause =>
      cases h
      exact ⟨[], c, rest, rfl, by rw [List.append_nil, hp]⟩
    | tooLong => cases h
  | case3 p c rest l more first ih =>
    subst hp
    obtain ⟨front, d, others, rfl, place⟩ :=
      ih (Position.following_append before l.spelling) (error_of_bind h)
    refine ⟨l.spelling ++ front, d, others, ?_, by rw [place, List.append_assoc]⟩
    rw [← Lexeme.first_spelling first, List.append_assoc]

theorem exists_character_of_tokenize {source : String} {e : LexError}
    (h : tokenize source = .error (.fault e)) :
    ∃ front c rest, source.toList = front ++ c :: rest ∧ e.position = .following front := by
  rw [tokenize, ← Position.following_nil] at h
  exact exists_character_of_tokensFrom h

namespace Token.Fits

variable {t : Token} {before rest : List Char}

private theorem first_operator (h : t.Fits before rest) (kind : t.kind = .operator) :
    ∃ c cs, t.text.toList = c :: cs ∧
      Lexeme.first c (cs ++ rest) = .ok (.operator (c :: cs), rest) := by
  have known := h.regular
  have longest := h.longest
  rw [Regular, kind] at known
  rw [Longest, kind] at longest
  obtain ⟨arrow, equals⟩ := longest
  have all : operatorTexts.all fun sign => sign ∈ ["->", "==", "#\x7b"] ∨
      Lexeme.operatorSigns.any fun c => sign = String.ofList [c] := by
    decide
  rcases of_decide_eq_true (List.all_eq_true.mp all _ known) with double | single
  · simp only [List.mem_cons, List.not_mem_nil, or_false] at double
    rcases double with text | text | text
    · exact ⟨'-', ['>'], by rw [text]; rfl, rfl⟩
    · exact ⟨'=', ['='], by rw [text]; rfl, rfl⟩
    · exact ⟨'#', ['\x7b'], by rw [text]; rfl, rfl⟩
  · obtain ⟨c, sign, same⟩ := List.any_eq_true.mp single
    have text : t.text = String.ofList [c] := of_decide_eq_true same
    refine ⟨c, [], by rw [text, String.toList_ofList], Lexeme.first_sign sign fun d next => ?_⟩
    constructor
    · rintro ⟨rfl, rfl⟩
      exact arrow text next
    · rintro ⟨rfl, rfl⟩
      exact equals text next

theorem first (h : t.Fits before rest) :
    ∃ c cs l, t.spelling = c :: cs ∧ Lexeme.first c (cs ++ rest) = .ok (l, rest) ∧
      l.content = some (t.kind, t.text) ∧ l.spelling = t.spelling := by
  have regular := h.regular
  have longest := h.longest
  have whole {c : Char} {cs : List Char} (text : t.text.toList = c :: cs) :
      String.ofList (c :: cs) = t.text := by
    rw [← text, String.ofList_toList]
  unfold Regular at regular
  unfold Longest at longest
  unfold spelling
  cases kind : t.kind with
  | integer =>
    rw [kind] at regular longest
    obtain ⟨filled, digits, short, small⟩ := regular
    obtain ⟨c, cs, text⟩ := List.exists_cons_of_ne_nil
      (fun empty => filled (String.toList_eq_nil_iff.mp empty))
    rw [text] at digits short small
    rw [if_neg (by simp), text]
    refine ⟨c, cs, _, rfl, Lexeme.first_integer (digits c List.mem_cons_self) ?_ longest short
      small, ?_, rfl⟩
    · exact fun d found => digits d (List.mem_cons_of_mem c found)
    · rw [Lexeme.content, whole text]
  | string =>
    rw [kind] at regular
    rw [if_pos rfl]
    refine ⟨'"', _, .string t.text.toList, rfl, ?_, ?_, rfl⟩
    · rw [List.append_assoc]
      exact Lexeme.first_string regular
    · rw [Lexeme.content, String.ofList_toList]
  | identifier =>
    rw [kind] at regular longest
    obtain ⟨⟨c, cs, text, start, all⟩, free⟩ := regular
    rw [if_neg (by simp), text]
    refine ⟨c, cs, _, rfl, Lexeme.first_word start all longest, ?_, rfl⟩
    rw [Lexeme.content, whole text, if_neg free]
  | operator =>
    obtain ⟨c, cs, text, read⟩ := h.first_operator kind
    rw [if_neg (by simp), text]
    refine ⟨c, cs, _, rfl, read, ?_, rfl⟩
    rw [Lexeme.content, whole text]
  | newline =>
    rw [kind] at regular
    rw [if_neg (by simp), regular]
    exact ⟨'\n', [], .newline, by simp, rfl, rfl, by simp [Lexeme.spelling]⟩
  | endOfInput => exact absurd kind h.more
  | word tag =>
    rw [kind] at regular longest
    obtain ⟨rfl, known⟩ := regular
    obtain ⟨c, cs, text, start, all⟩ := Lexeme.exists_word_of_reserved known
    rw [if_neg (by simp), text]
    refine ⟨c, cs, _, rfl, Lexeme.first_word start all longest, ?_, rfl⟩
    rw [Lexeme.content, whole text, if_pos known]

end Token.Fits

theorem tokensFrom_space {p : Position} {c : Char} {rest : List Char} (space : Lexeme.isSpace c) :
    tokensFrom p (c :: rest) = tokensFrom (p.next c) rest := by
  have read {d : Char} {more : List Char} (blank : Lexeme.isSpace d) : Lexeme.first d more = _ :=
    Lexeme.First.eq (.blank blank)
  have alone (found : Except (LexFailure LexError) (List Token)) :
      (do let tokens ← found; return [] ++ tokens) = found := by
    cases found <;> rfl
  rw [tokensFrom_of_first (read space)]
  cases rest with
  | nil => exact alone _
  | cons d rest =>
    by_cases blank : Lexeme.isSpace d
    · -- The run of spaces is one piece on either side, longer by one on the left.
      rw [tokensFrom_of_first (read blank), List.takeWhile_cons_of_pos blank,
        List.dropWhile_cons_of_pos blank]
      rfl
    · rw [List.takeWhile_cons_of_neg blank, List.dropWhile_cons_of_neg blank]
      exact alone _

theorem Segmented.tokensFrom {before rest : List Char} {tokens : List Token}
    (h : Segmented before rest tokens) :
    ScriptLang.tokensFrom (.following before) rest = .ok tokens := by
  induction h with
  | finish => exact tokensFrom_nil _
  | @space before rest tokens c space _ ih =>
    rw [Position.following_concat] at ih
    rw [tokensFrom_space (Lexeme.isSpace_iff.mpr space), ih]
  | @comment before text rest tokens marker feed ends _ ih =>
    rw [Position.following_append] at ih
    exact tokensFrom_cons (Lexeme.first_comment marker feed ends) rfl ih
  | @token before rest tokens t fits _ ih =>
    obtain ⟨c, cs, l, text, read, content, same⟩ := fits.first
    rw [Position.following_append, ← same] at ih
    rw [text]
    refine tokensFrom_cons read ?_ ih
    rw [Lexeme.token?, content, ← fits.position]
    rfl

/-- The tokens of a source text are its segmentation: a text is cut into tokens exactly if spaces,
comments and these tokens make it up from its beginning to its end, each token at its place and as
long as it can be. -/
theorem tokenize_eq_ok_iff_segmented (source : String) (tokens : List Token) :
    tokenize source = .ok tokens ↔ Segmented [] source.toList tokens := by
  rw [tokenize, ← Position.following_nil]
  exact ⟨segmented_of_tokensFrom, Segmented.tokensFrom⟩

end ScriptLang
