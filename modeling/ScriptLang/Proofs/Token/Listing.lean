import ScriptLang.Proofs.Text
import ScriptLang.Proofs.Token.Regular

/-!
Listings of tokens. Every token of a source text takes up one line of the listing, whatever its text
holds, and the line tells the token: two listings are the same only if the tokens are.
-/

set_option autoImplicit false
set_option relaxedAutoImplicit false

namespace ScriptLang

namespace Token

variable {t u : Token}

private theorem Regular.ofTag_tag (h : t.Regular) : Kind.ofTag t.kind.tag = t.kind := by
  unfold Regular at h
  generalize t.kind = kind at h ⊢
  cases kind with
  | word tag =>
    have all : Lexeme.reservedWords.all fun word => Kind.ofTag word = .word word := by decide
    exact of_decide_eq_true (List.all_eq_true.mp all tag h.2)
  | _ => rfl

private theorem Regular.plain_tag (h : t.Regular) :
    ' ' ∉ t.kind.tag.toList ∧ '\n' ∉ t.kind.tag.toList := by
  unfold Regular at h
  generalize t.kind = kind at h ⊢
  cases kind with
  | word tag =>
    have all : Lexeme.reservedWords.all fun word =>
        ' ' ∉ word.toList ∧ '\n' ∉ word.toList := by
      decide
    exact of_decide_eq_true (List.all_eq_true.mp all tag h.2)
  | _ => decide

private theorem toList_listingLine (index : Nat) (t : Token) : (t.listingLine index).toList =
    (toString index ++ ": ").toList ++ (t.kind.tag.toList ++ ' ' :: ((Text.quoted t.text).toList ++
      ' ' :: (toString t.position.line ++ ":" ++ toString t.position.column).toList)) := by
  simp [listingLine]

private theorem eq_of_listingLine {index : Nat} (ht : t.Regular) (hu : u.Regular)
    (same : t.listingLine index = u.listingLine index) : t = u := by
  have chars := congrArg String.toList same
  rw [toList_listingLine, toList_listingLine] at chars
  have place := Position.not_mem_spelling (c := ' ') (by decide) (by decide) (by decide)
  obtain ⟨tag, rest⟩ := Text.append_cons_inj_of_first ht.plain_tag.1 hu.plain_tag.1
    (List.append_cancel_left chars)
  -- The text may hold spaces, but the place behind it holds none.
  obtain ⟨quoted, position⟩ := Text.append_cons_inj_of_last (place _) (place _) rest
  have sameKind : t.kind = u.kind := by
    rw [← ht.ofTag_tag, ← hu.ofTag_tag, String.toList_inj.mp tag]
  have sameText : t.text = u.text := Text.quoted_injective (String.toList_inj.mp quoted)
  have samePosition : t.position = u.position :=
    Position.eq_of_spelling (String.toList_inj.mp position)
  cases t
  cases u
  cases sameKind
  cases sameText
  cases samePosition
  rfl

private theorem feed_not_mem_listingLine (index : Nat) (h : t.Regular) :
    '\n' ∉ (t.listingLine index).toList := by
  have number : '\n' ∉ (toString index).toList :=
    Text.not_mem_toList_number (by decide) (by decide) (index : Int)
  have start : '\n' ∉ (toString index ++ ": ").toList := by
    simpa [String.toList_append] using number
  have place := Position.not_mem_spelling (c := '\n') (by decide) (by decide) (by decide) t.position
  simp only [toList_listingLine, List.mem_append, List.mem_cons, not_or]
  exact ⟨start, h.plain_tag.2, by decide, Text.feed_not_mem_quoted t.text, by decide, place⟩

private theorem feed_not_mem_lines {ts : List Token} (regular : ∀ t ∈ ts, t.Regular) :
    ∀ line ∈ ts.mapIdx listingLine, '\n' ∉ line.toList := by
  intro line there
  obtain ⟨index, bound, rfl⟩ := List.mem_mapIdx.mp there
  exact feed_not_mem_listingLine index (regular _ (List.getElem_mem bound))

private theorem eq_of_lines {ts us : List Token} (hts : ∀ t ∈ ts, t.Regular)
    (hus : ∀ u ∈ us, u.Regular) (same : ts.mapIdx listingLine = us.mapIdx listingLine) :
    ts = us := by
  refine List.ext_getElem? fun index => ?_
  have line := congrArg (fun lines => lines[index]?) same
  simp only [List.getElem?_mapIdx] at line
  cases ht : ts[index]? with
  | none =>
    rw [ht] at line
    exact (Option.map_eq_none_iff.mp line.symm).symm
  | some t =>
    rw [ht] at line
    obtain ⟨u, hu, equal⟩ := Option.map_eq_some_iff.mp line.symm
    have regularT := hts t (List.mem_of_getElem? ht)
    have regularU := hus u (List.mem_of_getElem? hu)
    rw [hu, eq_of_listingLine regularU regularT equal]

end Token

/-- Two listings of tokens of source texts are the same only if the tokens are the same. The listing
falls into as many lines as there are tokens, each of them the line of one token. -/
theorem listing_inj_of_tokenize {s t : String} {ts us : List Token} (hs : tokenize s = .ok ts)
    (ht : tokenize t = .ok us) :
    (Token.listing ts = Token.listing us ↔ ts = us) ∧
      (Token.listing ts).toList.splitOn '\n' =
        (ts.mapIdx Token.listingLine).map String.toList ++ [[]] := by
  have plain {source : String} {tokens : List Token} (h : tokenize source = .ok tokens) :
      (∀ t ∈ tokens, t.Regular) ∧ tokens.mapIdx Token.listingLine ≠ [] :=
    ⟨(stream_of_tokenize h).forall_regular, by simpa using (stream_of_tokenize h).ne_nil⟩
  obtain ⟨regularS, filledS⟩ := plain hs
  obtain ⟨regularT, filledT⟩ := plain ht
  refine ⟨⟨fun same => ?_, congrArg Token.listing⟩, ?_⟩
  · refine Token.eq_of_lines regularS regularT ?_
    exact Text.lines_injective filledS filledT (Token.feed_not_mem_lines regularS)
      (Token.feed_not_mem_lines regularT) same
  · exact Text.splitOn_lines filledS (Token.feed_not_mem_lines regularS)

/-- A string with a line feed beside one with a backslash and a letter. Both hold a single quote, so
that listings write them between double ones. -/
theorem listing_inj_of_escapes :
    let token (text : String) (p : Position) : List Token :=
      [⟨.string, text, .first⟩, ⟨.endOfInput, "", p⟩]
    let ts := token "'\n" ⟨2, 2⟩
    let us := token "'\\n" ⟨1, 6⟩
    tokenize "\"'\n\"" = .ok ts ∧ tokenize "\"'\\n\"" = .ok us ∧
      (Token.listing ts = Token.listing us ↔ ts = us) ∧
      (Token.listing ts).toList.splitOn '\n' =
        (ts.mapIdx Token.listingLine).map String.toList ++ [[]] := by
  intro token ts us
  have first : tokenize "\"'\n\"" = .ok ts := by
    show tokensFrom .first ['"', '\'', '\n', '"'] = _
    refine tokensFrom_cons rfl rfl ?_
    exact tokensFrom_nil _
  have second : tokenize "\"'\\n\"" = .ok us := by
    show tokensFrom .first ['"', '\'', '\\', 'n', '"'] = _
    refine tokensFrom_cons rfl rfl ?_
    exact tokensFrom_nil _
  exact ⟨first, second, listing_inj_of_tokenize first second⟩

end ScriptLang
