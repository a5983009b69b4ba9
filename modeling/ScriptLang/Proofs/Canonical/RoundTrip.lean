import ScriptLang.Proofs.Canonical.Calls
import ScriptLang.Proofs.Grammar.Recognition
import ScriptLang.Proofs.Grammar.Relocation
import ScriptLang.Proofs.Grammar.WellFormed

/-!
When the canonical text of a program reads as the program again, up to places. It does exactly if no
argument captures the next one: then the tokens derive the program, and otherwise they show more
calls than the program has.
-/

set_option autoImplicit false
set_option relaxedAutoImplicit false

namespace ScriptLang

open Grammar

private theorem Token.Regular.relocate {t : Token} (h : t.Regular) (f : Position → Position) :
    (t.relocate f).Regular :=
  h

private theorem Stream.relocate {ts : List Token} (h : Stream ts) (f : Position → Position) :
    Stream (ts.map (Token.relocate f)) := by
  induction h with
  | last kind regular => exact .last kind (regular.relocate f)
  | cons more regular _ ih => exact .cons more (regular.relocate f) ih

/-- Whether the last token of the text of an argument is an identifier; the end mark comes after
it. -/
def Expr.EndsInIdentifier (e : Expr) : Prop :=
  ∃ front t last, tokenize (e.text 0) = .ok (front ++ [t, last]) ∧ t.kind = .identifier

def Expr.StartsWithParenthesis (e : Expr) : Prop :=
  ∃ t rest, tokenize (e.text 0) = .ok (t :: rest) ∧ t.kind = .operator ∧ t.text = "("

section Text

variable {e : Expr}

private theorem Expr.tokenize_text (h : e.WellFormed) :
    ∃ tokens, tokenize (e.text 0) = .ok tokens ∧
      tokens.map Token.unplaced = e.tokens 0 ++ [.final] := by
  have cut : Cut ((e.text 0).toList ++ []) (e.tokens 0 ++ []) := Expr.spells h 0 trivial .done
  rw [List.append_nil, List.append_nil] at cut
  exact cut.tokenize

private theorem Expr.endsInIdentifier_iff (h : e.WellFormed) :
    e.EndsInIdentifier ↔ EndsInName (e.tokens 0) := by
  obtain ⟨tokens, cut, same⟩ := Expr.tokenize_text h
  constructor
  · rintro ⟨front, t, last, cut', kind⟩
    rw [cut] at cut'
    obtain rfl := Except.ok.inj cut'
    rw [List.append_cons, List.map_append, List.map_append, List.map_singleton] at same
    obtain ⟨whole, -⟩ := List.append_inj' same rfl
    exact ⟨front.map Token.unplaced, t.unplaced, whole.symm, kind⟩
  · rintro ⟨front, t, whole, kind⟩
    rw [whole] at same
    obtain ⟨body, ends, rfl, others, final⟩ := List.map_eq_append_iff.mp same
    obtain ⟨last, rfl, -⟩ := List.map_eq_singleton_iff.mp final
    obtain ⟨front', named, rfl, -, single⟩ := List.map_eq_append_iff.mp others
    obtain ⟨t', rfl, rfl⟩ := List.map_eq_singleton_iff.mp single
    rw [← List.append_cons] at cut
    exact ⟨front', t', last, cut, kind⟩

private theorem Expr.startsWithParenthesis_iff (h : e.WellFormed) :
    e.StartsWithParenthesis ↔ Opens (e.tokens 0) := by
  obtain ⟨tokens, cut, same⟩ := Expr.tokenize_text h
  have filled := e.tokens_ne_nil 0
  obtain ⟨first, others, whole⟩ := List.exists_cons_of_ne_nil filled
  rw [whole, List.cons_append] at same
  obtain ⟨t, rest, rfl, rfl, -⟩ := List.map_eq_cons_iff.mp same
  rw [whole]
  constructor
  · rintro ⟨t', rest', cut', kind, text⟩
    rw [cut] at cut'
    obtain ⟨rfl, -⟩ := List.cons.inj (Except.ok.inj cut')
    exact Token.spells_iff.mpr ⟨text, by simp [Token.unplaced, Token.relocate, kind],
      by simp [Token.unplaced, Token.relocate, kind]⟩
  · intro opens
    have spelled : t.spells "(" := opens
    have regular := (stream_of_tokenize cut).regular
    exact ⟨t, rest, cut, regular.kind_of_spells_operator (by decide) spelled,
      (Token.spells_iff.mp spelled).1⟩

private theorem captures_iff {a b : Expr} (ha : a.WellFormed) (hb : b.WellFormed) :
    Captures a b ↔ a.EndsInIdentifier ∧ b.StartsWithParenthesis := by
  rw [Captures, Expr.endsInIdentifier_iff ha, Expr.startsWithParenthesis_iff hb]

private theorem uncaptured_iff {args : List Expr} (h : ArgsWellFormed args) :
    Uncaptured args ↔
      args.IsChain fun a b => ¬ (a.EndsInIdentifier ∧ b.StartsWithParenthesis) := by
  refine List.IsChain.iff_of_mem_imp fun a b ha hb => not_congr ?_
  exact captures_iff (argsWellFormed_iff.mp h a ha) (argsWellFormed_iff.mp h b hb)

end Text

namespace Program

variable {p : Program}

/-- The tokens of a program derive it, up to places, exactly if no argument captures the next. -/
theorem derived_tokens_iff (h : p.WellFormed) (mode : Terminators)
    (stream : Stream (p.tokens ++ [.final])) :
    p.unplaced.Derived mode (p.tokens ++ [.final]) ↔
      ∀ args ∈ p.argumentLists, Uncaptured args := by
  constructor
  · rintro ⟨last, kind, built⟩
    have nothing {t : Token} (kind : t.kind = .endOfInput) : callHeads false [t] = 0 := by
      rw [callHeads_other (by simp [kind])]
      rfl
    have shown := Program.callHeads_tokens h [.final]
    have read : callHeads false (p.tokens ++ [.final]) = callHeads false [last] +
        (p.unplaced.argumentLists.length + p.unplaced.headCount) :=
      built.callHeads_eq stream trivial
    rw [nothing rfl] at shown
    rw [nothing kind, p.length_argumentLists_unplaced, p.headCount_unplaced] at read
    exact shownCalls_eq_length_iff.mp (by omega)
  · exact fun free => derived_tokens h free

theorem ofSource_iff_derived {text : String} {tokens : List Token}
    (cut : tokenize text = .ok tokens) (mode : Terminators) :
    (∃ q, ofSource mode text = .ok q ∧ q.unplaced = p.unplaced) ↔
      p.unplaced.Derived mode (tokens.map Token.unplaced) := by
  have stream : Stream (tokens.map Token.unplaced) :=
    (stream_of_tokenize cut).relocate fun _ => .first
  have moved : ofTokens mode (tokens.map Token.unplaced) = _ :=
    ofTokens_relocate (fun _ => .first) mode tokens
  rw [← ofTokens_eq_ok_iff stream, moved]
  unfold ofSource
  simp only [cut]
  cases ofTokens mode tokens <;> simp [unplaced]

theorem ofSource_text_iff (h : p.WellFormed) (mode : Terminators) :
    (∃ q, ofSource mode p.text = .ok q ∧ q.unplaced = p.unplaced) ↔
      ∀ args ∈ p.argumentLists,
        args.IsChain fun a b => ¬ (a.EndsInIdentifier ∧ b.StartsWithParenthesis) := by
  obtain ⟨tokens, cut, same⟩ := tokenize_text h
  have stream : Stream (tokens.map Token.unplaced) :=
    (stream_of_tokenize cut).relocate fun _ => .first
  rw [same] at stream
  rw [ofSource_iff_derived cut, same, derived_tokens_iff h mode stream]
  exact forall₂_congr fun args found => uncaptured_iff (args_wellFormed h found)

/-- With strict terminators, the canonical text of a well-formed program reads as the program, up to
places, exactly if in no argument list an argument that ends in an identifier stands before one that
begins with a parenthesis. -/
theorem ofSource_strict_canonical_iff (p : Program) (h : p.WellFormed) :
    ∃ text, p.canonical = .ok text ∧
      ((∃ q, ofSource .strict text = .ok q ∧ q.unplaced = p.unplaced) ↔
        ∀ args ∈ p.argumentLists,
          args.IsChain fun a b => ¬ (a.EndsInIdentifier ∧ b.StartsWithParenthesis)) :=
  ⟨p.text, canonical_eq h, ofSource_text_iff h .strict⟩

theorem canonical_misread_of_captured_argument : ∃ p : Program, p.WellFormed ∧
    p.canonical = .ok "f(a (1 + 2).d)\n" ∧
      ¬ ∃ q, ofSource .strict "f(a (1 + 2).d)\n" = .ok q ∧ q.unplaced = p.unplaced := by
  let a : Expr := .identifier .first "a"
  let b : Expr := .fieldAccess .first (.binary .first .add (.integer .first 1) (.integer .first 2))
    "d"
  let p : Program := ⟨[.expression .first (.functionCall .first "f" [a, b])]⟩
  have named (c : Char) (start : Lexeme.isWordStart c)
      (free : String.ofList [c] ∉ Lexeme.reservedWords) : IsName (String.ofList [c]) :=
    ⟨⟨c, [], String.toList_ofList, start, by simp⟩, free⟩
  have known_a : a.WellFormed := named 'a' (by decide) (by decide)
  have known_b : b.WellFormed :=
    ⟨⟨by decide, ⟨by decide, by decide⟩, ⟨by decide, by decide⟩⟩, named 'd' (by decide) (by decide)⟩
  have known : p.WellFormed :=
    ⟨⟨named 'f' (by decide) (by decide), known_a, known_b, trivial⟩, trivial⟩
  obtain ⟨text, shown, reads⟩ := ofSource_strict_canonical_iff p known
  have same : p.canonical = .ok "f(a (1 + 2).d)\n" := rfl
  obtain rfl := Except.ok.inj (shown.symm.trans same)
  refine ⟨p, known, same, fun read => ?_⟩
  have free := reads.mp read [a, b] List.mem_cons_self
  refine (List.isChain_cons_cons.mp free).1 ((captures_iff known_a known_b).mp ⟨?_, ?_⟩)
  · exact ⟨[], .name "a", rfl, rfl⟩
  · exact spells_sign "("

theorem wellFormed_of_ofSource {source : String} {mode : Terminators}
    (h : ofSource mode source = .ok p) : p.WellFormed := by
  unfold ofSource at h
  split at h
  · cases h
  · rename_i tokens cut
    have stream := stream_of_tokenize cut
    split at h
    · cases h
    · rename_i accepted
      cases h
      exact ((ofTokens_eq_ok_iff stream).mp accepted).wellFormed stream

/-- Every program that is read from a text has a canonical text, and that reads as the program
again, up to places and with any terminators, exactly if in no argument list an argument that ends
in an identifier stands before one that begins with a parenthesis. -/
theorem ofSource_canonical_ofSource_iff (source : String) (mode mode' : Terminators) (p : Program)
    (h : ofSource mode source = .ok p) :
    ∃ text, p.canonical = .ok text ∧
      ((∃ q, ofSource mode' text = .ok q ∧ q.unplaced = p.unplaced) ↔
        ∀ args ∈ p.argumentLists,
          args.IsChain fun a b => ¬ (a.EndsInIdentifier ∧ b.StartsWithParenthesis)) :=
  have known := wellFormed_of_ofSource h
  ⟨p.text, canonical_eq known, ofSource_text_iff known mode'⟩

theorem ofSource_misread_of_captured_argument : ∃ p,
    ofSource .strict "f((a) (b + c).d)" = .ok p ∧ p.canonical = .ok "f(a (b + c).d)\n" ∧
      ¬ ∃ q, ofSource .strict "f(a (b + c).d)\n" = .ok q ∧ q.unplaced = p.unplaced := by
  let a : Expr := .identifier ⟨1, 4⟩ "a"
  let b : Expr := .fieldAccess ⟨1, 8⟩
    (.binary ⟨1, 8⟩ .add (.identifier ⟨1, 8⟩ "b") (.identifier ⟨1, 12⟩ "c")) "d"
  let p : Program := ⟨[.expression ⟨1, 1⟩ (.functionCall ⟨1, 1⟩ "f" [a, b])]⟩
  have cut : tokenize "f((a) (b + c).d)" = .ok [⟨.identifier, "f", ⟨1, 1⟩⟩,
      ⟨.operator, "(", ⟨1, 2⟩⟩, ⟨.operator, "(", ⟨1, 3⟩⟩, ⟨.identifier, "a", ⟨1, 4⟩⟩,
      ⟨.operator, ")", ⟨1, 5⟩⟩, ⟨.operator, "(", ⟨1, 7⟩⟩, ⟨.identifier, "b", ⟨1, 8⟩⟩,
      ⟨.operator, "+", ⟨1, 10⟩⟩, ⟨.identifier, "c", ⟨1, 12⟩⟩, ⟨.operator, ")", ⟨1, 13⟩⟩,
      ⟨.operator, ".", ⟨1, 14⟩⟩, ⟨.identifier, "d", ⟨1, 15⟩⟩, ⟨.operator, ")", ⟨1, 16⟩⟩,
      ⟨.endOfInput, "", ⟨1, 17⟩⟩] := by
    show tokensFrom .first ['f', '(', '(', 'a', ')', ' ', '(', 'b', ' ', '+', ' ', 'c', ')', '.',
      'd', ')'] = _
    iterate 16 refine tokensFrom_cons rfl rfl ?_
    exact tokensFrom_nil _
  have accepted : ofSource .strict "f((a) (b + c).d)" = .ok p := by
    unfold ofSource
    rw [cut]
    rfl
  have known : ArgsWellFormed [a, b] :=
    args_wellFormed (wellFormed_of_ofSource accepted) List.mem_cons_self
  obtain ⟨text, shown, reads⟩ := ofSource_canonical_ofSource_iff _ .strict .strict p accepted
  have same : p.canonical = .ok "f(a (b + c).d)\n" := rfl
  obtain rfl := Except.ok.inj (shown.symm.trans same)
  refine ⟨p, accepted, same, fun read => ?_⟩
  have free := (uncaptured_iff known).mpr (reads.mp read [a, b] List.mem_cons_self)
  refine (List.isChain_cons_cons.mp free).1 ⟨?_, ?_⟩
  · exact ⟨[], .name "a", rfl, rfl⟩
  · exact spells_sign "("

end Program

end ScriptLang
