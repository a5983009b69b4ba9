import Mathlib
import ScriptLang.Text.Format
import ScriptLang.Token

/-!
Lines, quoted texts and markers: that a listing can be taken apart again into its lines, that
quoting loses nothing, and where the first marker of a text stands.
-/

set_option autoImplicit false
set_option relaxedAutoImplicit false

namespace ScriptLang

/-! ## Lines

Texts that are put together from parts and taken apart again: at the first or at the last of their
separators, and into lines. A number holds no separator, so a place is known from its spelling.
-/

namespace Text

section Separator

variable {a : Char} {x y s t : List Char}

theorem append_cons_inj_of_first (hx : a ∉ x) (hy : a ∉ y) (h : x ++ a :: s = y ++ a :: t) :
    x = y ∧ s = t := by
  have split := congrArg (List.splitOn a) h
  rw [List.splitOn_append_cons_self_of_not_mem hx, List.splitOn_append_cons_self_of_not_mem hy]
    at split
  obtain ⟨rfl, -⟩ := List.cons.inj split
  exact ⟨rfl, (List.cons.inj (List.append_cancel_left h)).2⟩

/-- A text is taken apart at the last of its separators. -/
theorem append_cons_inj_of_last (hs : a ∉ s) (ht : a ∉ t) (h : x ++ a :: s = y ++ a :: t) :
    x = y ∧ s = t := by
  have reversed := congrArg List.reverse h
  rw [List.reverse_append, List.reverse_append, List.reverse_cons, List.reverse_cons,
    List.append_assoc, List.append_assoc] at reversed
  obtain ⟨back, front⟩ := append_cons_inj_of_first (fun there => hs (List.mem_reverse.mp there))
    (fun there => ht (List.mem_reverse.mp there)) reversed
  exact ⟨List.reverse_injective front, List.reverse_injective back⟩

end Separator

private theorem mem_toList_number {n : Int} {c : Char} (h : c ∈ (toString n).toList) :
    c = '-' ∨ c.isDigit := by
  have digits {k : Nat} (there : c ∈ k.repr.toList) : c.isDigit := by
    rw [Nat.toList_repr] at there
    exact Nat.isDigit_of_mem_toDigits (by decide) (by decide) there
  rw [Int.toString_eq_repr, Int.repr_eq_if] at h
  split at h
  · exact .inr (digits h)
  · rw [String.toList_append] at h
    rcases List.mem_append.mp h with sign | there
    · exact .inl (List.mem_singleton.mp sign)
    · exact .inr (digits there)

theorem not_mem_toList_number {c : Char} (sign : c ≠ '-') (digit : ¬ c.isDigit) (n : Int) :
    c ∉ (toString n).toList := by
  intro there
  rcases mem_toList_number there with same | isDigit
  · exact sign same
  · exact digit isDigit

theorem toList_number_ne_nil (n : Int) : (toString n).toList ≠ [] := by
  rw [Int.toString_eq_repr, Int.repr_eq_if]
  split
  · exact Nat.toList_repr ▸ Nat.toDigits_ne_nil
  · exact String.toList_append ▸ List.cons_ne_nil _ _

private theorem number_injective {m n : Int} (h : toString m = toString n) : m = n := by
  rw [Int.toString_eq_repr, Int.toString_eq_repr] at h
  exact Int.repr_inj.mp h

private theorem intercalate_concat_nil (a : Char) {parts : List (List Char)} (filled : parts ≠ []) :
    [a].intercalate (parts ++ [[]]) = [a].intercalate parts ++ [a] := by
  induction parts with
  | nil => contradiction
  | cons part parts ih =>
    cases parts with
    | nil => simp [List.intercalate]
    | cons next parts =>
      rw [List.cons_append, List.cons_append, List.intercalate_cons_cons, ← List.cons_append,
        ih (List.cons_ne_nil _ _), List.intercalate_cons_cons, List.append_assoc _ _ [a]]

theorem splitOn_lines {lines : List String} (filled : lines ≠ [])
    (plain : ∀ line ∈ lines, '\n' ∉ line.toList) :
    ("\n".intercalate lines ++ "\n").toList.splitOn '\n' = lines.map String.toList ++ [[]] := by
  have parts : lines.map String.toList ≠ [] := mt List.map_eq_nil_iff.mp filled
  have text : ("\n".intercalate lines ++ "\n").toList =
      ['\n'].intercalate (lines.map String.toList ++ [[]]) := by
    rw [intercalate_concat_nil '\n' parts, String.toList_append, String.toList_intercalate]
    rfl
  rw [text]
  refine List.splitOn_intercalate '\n' ?_ (by simp)
  intro part there
  rcases List.mem_append.mp there with inside | last
  · obtain ⟨line, among, rfl⟩ := List.mem_map.mp inside
    exact plain line among
  · rw [List.mem_singleton.mp last]
    exact List.not_mem_nil

theorem lines_injective {lines others : List String} (filled : lines ≠ []) (filled' : others ≠ [])
    (plain : ∀ line ∈ lines, '\n' ∉ line.toList) (plain' : ∀ line ∈ others, '\n' ∉ line.toList)
    (same : "\n".intercalate lines ++ "\n" = "\n".intercalate others ++ "\n") :
    lines = others := by
  have split := splitOn_lines filled plain
  rw [same, splitOn_lines filled' plain'] at split
  have injective : Function.Injective String.toList := fun _ _ => String.toList_injective
  exact (List.map_injective_iff.mpr injective (List.append_cancel_right split)).symm

end Text

namespace Position

theorem not_mem_spelling {c : Char} (sign : c ≠ '-') (digit : ¬ c.isDigit) (colon : c ≠ ':')
    (p : Position) : c ∉ (toString p.line ++ ":" ++ toString p.column).toList := by
  simp only [String.toList_append, List.mem_append, not_or]
  have free := Text.not_mem_toList_number sign digit
  exact ⟨⟨free p.line, fun there => colon (List.mem_singleton.mp there)⟩, free p.column⟩

theorem eq_of_spelling {p q : Position} (h : toString p.line ++ ":" ++ toString p.column =
    toString q.line ++ ":" ++ toString q.column) : p = q := by
  have chars := congrArg String.toList h
  simp only [String.toList_append, List.append_assoc] at chars
  have free := Text.not_mem_toList_number (c := ':') (by decide) (by decide)
  obtain ⟨line, column⟩ := Text.append_cons_inj_of_first (free p.line) (free q.line) chars
  have sameLine : p.line = q.line := Text.number_injective (String.toList_inj.mp line)
  have sameColumn : p.column = q.column := Text.number_injective (String.toList_inj.mp column)
  cases p
  cases q
  exact congrArg₂ Position.mk sameLine sameColumn

end Position

end ScriptLang

namespace ScriptLang.Text

/-! ## Quoted text

Quoted text can be read back. `unescaped?` reads the first character that a quoted text stands for;
it undoes every form of escape, so that no two strings have the same quoted spelling. A quoted
string takes up one line.
-/

def hexDigitValue (c : Char) : Nat :=
  if c.isDigit then c.toNat - '0'.toNat else c.toNat - 'a'.toNat + 10

def hexValue (digits : List Char) : Nat :=
  digits.foldl (fun n c => 16 * n + hexDigitValue c) 0

/-- The character that a quoted text begins with, and the text after its spelling. -/
def unescaped? : List Char → Option (Char × List Char)
  | '\\' :: 'n' :: rest => some ('\n', rest)
  | '\\' :: 'r' :: rest => some ('\r', rest)
  | '\\' :: 't' :: rest => some ('\t', rest)
  | '\\' :: 'x' :: rest => some (Char.ofNat (hexValue (rest.take 2)), rest.drop 2)
  | '\\' :: 'u' :: rest => some (Char.ofNat (hexValue (rest.take 4)), rest.drop 4)
  | '\\' :: 'U' :: rest => some (Char.ofNat (hexValue (rest.take 8)), rest.drop 8)
  | '\\' :: c :: rest => some (c, rest)
  | c :: rest => some (c, rest)
  | [] => none

private theorem length_hexDigits (width n : Nat) : (hexDigits width n).length = width := by
  induction width generalizing n with
  | zero => rfl
  | succ width ih => rw [hexDigits, List.length_append, ih, List.length_singleton]

private theorem hexDigitValue_digitChar {d : Nat} (small : d < 16) :
    hexDigitValue (Nat.digitChar d) = d := by
  have all : ∀ d : Fin 16, hexDigitValue (Nat.digitChar d) = d := by decide
  exact all ⟨d, small⟩

private theorem hexValue_hexDigits (width n : Nat) :
    hexValue (hexDigits width n) = n % 16 ^ width := by
  induction width generalizing n with
  | zero => simp [hexDigits, hexValue, Nat.mod_one]
  | succ width ih =>
    have last : hexDigitValue (Nat.digitChar (n % 16)) = n % 16 :=
      hexDigitValue_digitChar (Nat.mod_lt n (by decide))
    have front := ih (n / 16)
    unfold hexValue at front ⊢
    rw [hexDigits, List.foldl_append, front, List.foldl_cons, List.foldl_nil, last, Nat.pow_succ,
      Nat.mul_comm (16 ^ width) 16, Nat.mod_mul]
    omega

private theorem ofNat_hexValue {c : Char} (width : Nat) (rest : List Char)
    (fits : c.toNat < 16 ^ width) :
    Char.ofNat (hexValue ((hexDigits width c.toNat ++ rest).take width)) = c ∧
      (hexDigits width c.toNat ++ rest).drop width = rest := by
  have size := length_hexDigits width c.toNat
  rw [List.take_left' size, List.drop_left' size, hexValue_hexDigits, Nat.mod_eq_of_lt fits,
    Char.ofNat_toNat]
  exact ⟨rfl, rfl⟩

section Escaped

variable {quote : Char}

private theorem unescaped?_escaped (known : quote = '\'' ∨ quote = '"') (c : Char)
    (rest : List Char) : unescaped? (escaped quote c ++ rest) = some (c, rest) := by
  unfold escaped
  split_ifs with itself feed carriage tab printable byte plane
  · rcases itself with rfl | rfl
    · rcases known with rfl | rfl <;> rfl
    · rfl
  · rw [feed]
    rfl
  · rw [carriage]
    rfl
  · rw [tab]
    rfl
  · have plain : c ≠ '\\' := fun same => itself (.inr same)
    simp [unescaped?, plain]
  · obtain ⟨value, left⟩ := ofNat_hexValue 2 rest byte
    simp only [List.cons_append, unescaped?, value, left]
  · obtain ⟨value, left⟩ := ofNat_hexValue 4 rest plane
    simp only [List.cons_append, unescaped?, value, left]
  · have fits : c.toNat < 16 ^ 8 := c.val.toNat_lt
    obtain ⟨value, left⟩ := ofNat_hexValue 8 rest fits
    simp only [List.cons_append, unescaped?, value, left]

private theorem escaped_ne_nil (quote c : Char) : escaped quote c ≠ [] := by
  unfold escaped
  split_ifs <;> exact List.cons_ne_nil _ _

private theorem flatMap_escaped_injective (known : quote = '\'' ∨ quote = '"') :
    Function.Injective (List.flatMap (escaped quote)) := by
  intro s t same
  induction s generalizing t with
  | nil =>
    cases t with
    | nil => rfl
    | cons d t => simp [escaped_ne_nil] at same
  | cons c s ih =>
    cases t with
    | nil => simp [escaped_ne_nil] at same
    | cons d t =>
      have first := congrArg unescaped? same
      rw [List.flatMap_cons, List.flatMap_cons, unescaped?_escaped known,
        unescaped?_escaped known] at first
      obtain ⟨rfl, rest⟩ := Prod.mk.inj (Option.some.inj first)
      rw [ih rest]

private theorem feed_not_mem_escaped (known : quote = '\'' ∨ quote = '"') (c : Char) :
    '\n' ∉ escaped quote c := by
  have digits (width n : Nat) : '\n' ∉ hexDigits width n := by
    induction width generalizing n with
    | zero => simp [hexDigits]
    | succ width ih =>
      have all : ∀ d : Fin 16, '\n' ≠ Nat.digitChar d := by decide
      have last := all ⟨n % 16, Nat.mod_lt n (by decide)⟩
      simp [hexDigits, ih, last]
  unfold escaped
  split_ifs with itself feed <;> simp [digits]
  · rintro rfl
    rcases itself with same | same
    · rcases known with rfl | rfl <;> cases same
    · cases same
  · exact fun same => feed same.symm

end Escaped

private theorem enclosingQuote_cases (text : List Char) :
    enclosingQuote text = '\'' ∨ enclosingQuote text = '"' := by
  unfold enclosingQuote
  split_ifs <;> simp

theorem head?_quoted (text : String) :
    (quoted text).toList.head? = some '\'' ∨ (quoted text).toList.head? = some '"' := by
  have begun : (quoted text).toList.head? = some (enclosingQuote text.toList) := by
    simp [quoted, quotedChars]
  rw [begun]
  exact (enclosingQuote_cases text.toList).imp (congrArg some) (congrArg some)

theorem quoted_injective : Function.Injective quoted := by
  intro s t same
  have chars := String.ofList_injective same
  unfold quotedChars at chars
  -- The first character tells which quotes the rest was written for.
  obtain ⟨quotes, inside⟩ := List.cons.inj chars
  rw [quotes] at inside
  have spelled := List.append_cancel_right inside
  exact String.toList_inj.mp (flatMap_escaped_injective (enclosingQuote_cases _) spelled)

theorem feed_not_mem_quoted (text : String) : '\n' ∉ (quoted text).toList := by
  have known := enclosingQuote_cases text.toList
  have quote : '\n' ≠ enclosingQuote text.toList := by
    rcases known with same | same <;> rw [same] <;> decide
  have inside : ∀ c, '\n' ∉ escaped (enclosingQuote text.toList) c := feed_not_mem_escaped known
  simp [quoted, quotedChars, quote, inside]

/-! ## Markers

The first marker of a text. It is found exactly where the text opens a marker for the first time,
and its name ends at the first closing brace behind that. So a text is split at its marker in one
way at most.
-/

section Marker

def opening : List Char :=
  ['#', '\x7b']

/-- That a text falls into what stands in front of its first marker, the name in the marker and what
stands behind it. -/
structure Marked (text before name after : List Char) : Prop where
  whole : text = before ++ opening ++ name ++ ['\x7d'] ++ after
  /-- No marker opens earlier, not even with the sign of this one. -/
  first : ¬ opening <:+: before ++ ['#']
  closed : '\x7d' ∉ name

variable {text before name after : List Char}

private theorem not_opening_of_cutAtOpening (h : cutAtOpening text = some (before, after)) :
    ¬ opening <:+: before ++ ['#'] := by
  fun_induction cutAtOpening text generalizing before with
  | case1 rest =>
    cases h
    decide
  | case2 c rest other ih =>
    obtain ⟨⟨front, tail⟩, cut, same⟩ := Option.map_eq_some_iff.mp h
    cases same
    rw [List.cons_append, List.infix_cons_iff]
    rintro (⟨more, begins⟩ | inside)
    · -- A marker that opens with `c` goes on in the rest, which the cut has looked at.
      have rest_eq := eq_of_cutAtOpening cut
      cases front with
      | nil => simp [opening] at begins
      | cons d front =>
        obtain ⟨rfl, rfl, -⟩ : '#' = c ∧ '\x7b' = d ∧ more = front ++ ['#'] := by
          simpa [opening] using begins
        exact other _ rfl rest_eq
    · exact ih cut inside
  | case3 => cases h

private theorem cutAtOpening_of_first (first : ¬ opening <:+: before ++ ['#']) (after : List Char) :
    cutAtOpening (before ++ opening ++ after) = some (before, after) := by
  induction before with
  | nil => rfl
  | cons c before ih =>
    have later : ¬ opening <:+: before ++ ['#'] :=
      fun inside => first (inside.trans (List.suffix_cons c _).isInfix)
    rw [List.cons_append, List.cons_append, cutAtOpening, ih later]
    · rfl
    · rintro rest rfl begins
      cases before with
      | nil => simp [opening] at begins
      | cons d before =>
        obtain ⟨rfl, -⟩ := List.cons.inj begins
        exact first ⟨[], before ++ ['#'], rfl⟩

private theorem cutAtOpening_eq_some_iff :
    cutAtOpening text = some (before, after) ↔
      text = before ++ opening ++ after ∧ ¬ opening <:+: before ++ ['#'] := by
  constructor
  · intro h
    refine ⟨?_, not_opening_of_cutAtOpening h⟩
    rw [eq_of_cutAtOpening h, List.append_assoc]
    rfl
  · rintro ⟨rfl, first⟩
    exact cutAtOpening_of_first first after

theorem hasMarker_iff : hasMarker text ↔ opening <:+: text := by
  rw [hasMarker, Option.isSome_iff_exists]
  constructor
  · rintro ⟨⟨before, after⟩, cut⟩
    obtain ⟨rfl, -⟩ := cutAtOpening_eq_some_iff.mp cut
    exact ⟨before, after, rfl⟩
  · intro inside
    induction text with
    | nil => simp [opening] at inside
    | cons c rest ih =>
      by_cases opens : opening <+: c :: rest
      · obtain ⟨more, begins⟩ := opens
        exact ⟨([], more), begins ▸ rfl⟩
      · have later := (List.infix_cons_iff.mp inside).resolve_left opens
        obtain ⟨⟨before, after⟩, cut⟩ := ih later
        refine ⟨(c :: before, after), ?_⟩
        rw [cutAtOpening, cut]
        · rfl
        · rintro more rfl rfl
          exact opens ⟨more, rfl⟩

/-- The three parts around the first marker are found exactly if there are such parts. -/
theorem splitAtMarker_eq_some_iff :
    splitAtMarker text = some (before, name, after) ↔ Marked text before name after := by
  constructor
  · intro h
    have whole := eq_of_splitAtMarker h
    obtain ⟨⟨front, rest⟩, cut, h⟩ := Option.bind_eq_some_iff.mp h
    dsimp only at h
    split at h
    · cases h
    · cases h
      refine ⟨?_, not_opening_of_cutAtOpening cut, fun inside => ?_⟩
      · simpa [opening] using whole
      · simpa using List.mem_takeWhile_imp inside
  · rintro ⟨rfl, first, closed⟩
    have inside : ∀ c ∈ name, decide (c ≠ '\x7d') = true := by
      intro c there
      exact decide_eq_true fun same => closed (same ▸ there)
    have cut := cutAtOpening_of_first first (name ++ ['\x7d'] ++ after)
    rw [← List.append_assoc, ← List.append_assoc] at cut
    rw [splitAtMarker, cut, Option.bind_eq_bind, Option.bind_some]
    dsimp only
    rw [List.append_assoc name, List.dropWhile_append_of_pos inside,
      List.takeWhile_append_of_pos inside]
    simp

theorem Marked.unique {before' name' after' : List Char} (h : Marked text before name after)
    (h' : Marked text before' name' after') : before = before' ∧ name = name' ∧ after = after' := by
  have found := splitAtMarker_eq_some_iff.mpr h
  rw [splitAtMarker_eq_some_iff.mpr h'] at found
  cases found
  exact ⟨rfl, rfl, rfl⟩

end Marker

end ScriptLang.Text
