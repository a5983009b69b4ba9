import ScriptLang.Proofs.Grammar.Confinement
import ScriptLang.Proofs.Grammar.Locality
import ScriptLang.Proofs.Grammar.Recognition

/-!
What strict terminators change. Strict readings are a restriction of lenient ones: at any place of
any token list they do the same, or they fail for want of a newline. And all that lenient readings
forgive is newlines: a program that is read leniently is read strictly once newlines are put in
where they are missing.
-/

set_option autoImplicit false
set_option relaxedAutoImplicit false

namespace ScriptLang

open Attempt

namespace Reading

variable {α β : Type}

/-- A strict reading and a lenient one that do the same, or the strict one fails at a token where
it asks for a newline. If the strict one comes to its bound, nothing is asked. -/
def Restricts (r r' : Reading α) : Prop :=
  ∀ ts, r ts = r' ts ∨
    (∃ t more, r ts =
      (.error (.syntaxError ⟨.unexpected .newline t.found, t.position⟩), t :: more)) ∨
    (r ts).1 = .error .unbounded

private theorem Restricts.refl (r : Reading α) : Restricts r r :=
  fun _ => .inl rfl

private theorem Restricts.bind {r r' : Reading α} {next next' : α → Reading β}
    (first : Restricts r r') (second : ∀ a, Restricts (next a) (next' a)) :
    Restricts (r >>= next) (r' >>= next') := by
  intro ts
  obtain same | ⟨t, more, missing⟩ | unbounded := first ts
  · rcases hr : r ts with ⟨e | a, mid⟩
    · exact .inl ((bind_apply_error hr).trans (bind_apply_error (same ▸ hr)).symm)
    · rw [bind_apply_ok hr, bind_apply_ok (same ▸ hr)]
      exact second a mid
  · exact .inr (.inl ⟨t, more, bind_apply_error missing⟩)
  · have failed : r ts = (.error .unbounded, (r ts).2) := Prod.ext unbounded rfl
    exact .inr (.inr (congrArg Prod.fst (bind_apply_error failed)))

end Reading

namespace Grammar

open Reading

variable {α : Type}

private theorem restricts_terminator : Restricts (terminator .strict) (terminator .lenient) := by
  intro ts
  cases ts with
  | nil => exact .inl rfl
  | cons t more =>
    unfold terminator
    rw [current_bind, current_bind]
    cases t.kind with
    | newline => exact .inl rfl
    | endOfInput => exact .inl rfl
    | _ => exact .inr (.inl ⟨t, more, rfl⟩)

private theorem restricts_congruence : Congruence .strict .lenient Restricts where
  value a := .refl _
  seq := Restricts.bind
  failure _ _ := .refl _
  misplaced _ := .refl _
  look := .refl _
  take := .refl _
  skip skipped := .refl _
  lineEnd := restricts_terminator
  unreserved yes no := by
    refine (Restricts.refl seesClassVariable).bind fun declares => ?_
    cases declares with
    | true => exact yes
    | false => exact no
  limit h := fun ts => h (ts.length + 1) (ts.length + 1) (Nat.le_refl _) ts
  exhausted _ := fun _ => .inr (.inr rfl)

end Grammar

/-- The strict reading of a production does what the lenient one does, or it misses a newline. -/
theorem Grammar.Production.strict_eq_lenient {α : Type} (production : Production α)
    {tokens rest : List Token} (unlettered : Reading.Unlettered (· ∈ tokens))
    (part : ∀ t ∈ rest, t ∈ tokens) :
    production.reading .strict rest = production.reading .lenient rest ∨
      ∃ t more, production.reading .strict rest =
        (.error (.syntaxError ⟨.unexpected .newline t.found, t.position⟩), t :: more) := by
  have ends := (production.confined .strict unlettered part).ends
  obtain same | missing | unbounded := restricts_congruence.production production rest
  · exact .inl same
  · exact .inr missing
  · exact absurd unbounded ends

/-- At any place of a token list whose end marks carry no text, every production does the same with
strict terminators as with lenient ones, or it fails because a newline is missing; and a text that
is read strictly is read leniently as the same program. -/
theorem Program.strict_restricts_lenient (tokens : List Token)
    (unlettered : ∀ t ∈ tokens, t.kind = .endOfInput → t.text = "") :
    (∀ {α : Type} (production : Grammar.Production α) (rest : List Token), rest <:+ tokens →
      production.reading .strict rest = production.reading .lenient rest ∨
      ∃ e t more, production.reading .strict rest = (.error (.syntaxError e), t :: more) ∧
        e = ⟨.unexpected .newline t.found, t.position⟩ ∧
        e.cause.message = "expected newline, got " ++ t.found.message) ∧
    (∀ source p, ofSource .strict source = .ok p → ofSource .lenient source = .ok p) := by
  refine ⟨?_, ?_⟩
  · intro α production rest suffix
    obtain same | ⟨t, more, missing⟩ :=
      production.strict_eq_lenient unlettered fun t there => suffix.subset there
    · exact .inl same
    · exact .inr ⟨_, t, more, missing, rfl, rfl⟩
  · intro source p accepted
    obtain ⟨tokens, tokenized, accepted⟩ := ofSource_eq_ok_iff.mp accepted
    refine ofSource_eq_ok_iff.mpr ⟨tokens, tokenized, ?_⟩
    obtain same | ⟨t, more, missing⟩ := Grammar.Production.program.strict_eq_lenient
      (stream_of_tokenize tokenized).unlettered fun t there => there
    · exact (congrArg Prod.fst same).symm.trans accepted
    · cases (congrArg Prod.fst missing).symm.trans accepted

/-- A conditional without a newline after its condition. -/
theorem Program.strict_misses_newline_after_condition :
    let tokens : List Token := [⟨.word "if", "if", ⟨1, 1⟩⟩, ⟨.integer, "1", ⟨1, 4⟩⟩,
      ⟨.integer, "2", ⟨1, 6⟩⟩, ⟨.word "end", "end", ⟨1, 8⟩⟩, ⟨.endOfInput, "", ⟨1, 11⟩⟩]
    (∀ t ∈ tokens, t.kind = .endOfInput → t.text = "") ∧
    ofTokens .lenient tokens = .ok ⟨[.conditional ⟨1, 1⟩ (.integer ⟨1, 4⟩ 1)
      [.expression ⟨1, 6⟩ (.integer ⟨1, 6⟩ 2)] none]⟩ ∧
    ∃ e t more, Grammar.program .strict tokens = (.error (.syntaxError e), t :: more) ∧
      e = ⟨.unexpected .newline t.found, t.position⟩ ∧
      e.cause.message = "expected newline, got " ++ t.found.message := by
  intro tokens
  have unlettered : ∀ t ∈ tokens, t.kind = .endOfInput → t.text = "" := by decide
  refine ⟨unlettered, rfl, ?_⟩
  obtain ⟨restricts, -⟩ := strict_restricts_lenient tokens unlettered
  obtain same | missing := restricts .program tokens List.suffix_rfl
  · have failed : (Grammar.program .strict tokens).1 = .error (.syntaxError
        ⟨.unexpected .newline (.other "2"), ⟨1, 6⟩⟩) := rfl
    cases failed.symm.trans (congrArg Prod.fst same)
  · exact missing

/-- That `ts'` is `ts` with `n` newlines put in front of some of its tokens. The one that `k` others
stand behind is at `place k`. -/
inductive Broken (place : Nat → Position) : Nat → List Token → List Token → Prop where
  | nil : Broken place 0 [] []
  | keep {n : Nat} (t : Token) {ts ts' : List Token} : Broken place n ts ts' →
      Broken place n (t :: ts) (t :: ts')
  | insert {n : Nat} {t : Token} {ts ts' : List Token} : Broken place n (t :: ts) ts' →
      Broken place (n + 1) (t :: ts) (⟨.newline, "\n", place n⟩ :: ts')

namespace Broken

variable {place : Nat → Position} {n : Nat} {ts ts' rest rest' : List Token}

private theorem refl (place : Nat → Position) (ts : List Token) : Broken place 0 ts ts := by
  induction ts with
  | nil => exact .nil
  | cons t ts ih => exact .keep t ih

private theorem stream (h : Broken place n ts ts') (whole : Stream ts) : Stream ts' := by
  induction h with
  | nil => exact whole
  | @keep n t ts ts' broken ih =>
    cases whole with
    | last atEnd regular =>
      cases broken
      exact .last atEnd regular
    | cons notEnd regular others => exact .cons notEnd regular (ih others)
  | insert _ ih => exact .cons (by simp) rfl (ih whole)

private theorem replaces (h : Broken place n rest rest') : Grammar.Replaces rest rest' := by
  cases h with
  | nil => exact ⟨id, fun _ => id⟩
  | keep t _ => exact Grammar.replaces_of_head t _ _
  | insert _ =>
    refine ⟨fun opens => ?_, fun t declares => ?_⟩
    · simp [Grammar.Opens, Token.spells] at opens
    · simp [Grammar.DeclaresObject] at declares

private theorem of_same (h : Broken place n rest rest')
    (same : Grammar.SameUpTo rest rest' ts ts') : Broken place n ts ts' := by
  induction same with
  | here => exact h
  | cons t _ ih => exact .keep t ih

end Broken

namespace Grammar

/-- That a judgement about the front of `ts` that leaves `rest` holds once newlines are put into
`ts`, whatever newlines are put into `rest`. -/
def Mends (place : Nat → Position) (J : List Token → List Token → Prop) (ts rest : List Token) :
    Prop :=
  ∀ {n rest'}, Broken place n rest rest' → ∃ m ts', Broken place m ts ts' ∧ J ts' rest'

variable {place : Nat → Position} {ts rest : List Token}

private theorem mends_of_transfers {J : List Token → List Token → Prop}
    (h : ∀ rest', Replaces rest rest' → Transfers rest rest' J ts rest) :
    Mends place J ts rest := by
  intro n rest' broken
  obtain ⟨ts', same, judged⟩ := h rest' broken.replaces .here
  exact ⟨n, ts', broken.of_same same, judged⟩

private theorem Derives.mends {phrase : Phrase} (h : Derives phrase ts rest) :
    Mends place (Derives phrase) ts rest :=
  mends_of_transfers fun _ replaces => h.transfers replaces

private theorem Newlines.mends (h : Newlines ts rest) : Mends place Newlines ts rest :=
  mends_of_transfers fun _ _ => Run.transfers h

private theorem LineEnd.mends (h : LineEnd .lenient ts rest) :
    Mends place (LineEnd .strict) ts rest := by
  intro n rest' broken
  cases h with
  | newline kind => exact ⟨n, _, .keep _ broken, .newline kind⟩
  | endOfInput => exact ⟨n + 1, _, .insert broken, .newline rfl⟩
  | missing => exact ⟨n + 1, _, .insert broken, .newline rfl⟩

private theorem Heads.mends {s : Signature} (h : Heads .lenient s ts rest) :
    Mends place (Heads .strict s) ts rest := by
  intro n rest' broken
  cases h with
  | head spelled kind opening params operator text found ended =>
    obtain ⟨n, mid', broken, ended⟩ := ended.mends broken
    have between : Mends place (Parameters _) _ _ := mends_of_transfers fun _ _ => params.transfers
    obtain ⟨n, ts', broken, params⟩ := between (.keep _ (.keep _ broken))
    exact ⟨n, _, .keep _ (.keep _ (.keep _ broken)),
      .head spelled kind opening params operator text found ended⟩

private theorem Signatures.mends {ss : List Signature} (h : Signatures .lenient ss ts rest) :
    Mends place (Signatures .strict ss) ts rest := by
  intro n rest' broken
  induction h generalizing n rest' with
  | none blank =>
    obtain ⟨n, ts', broken, blank⟩ := Newlines.mends blank broken
    exact ⟨n, ts', broken, .none blank⟩
  | more blank first _ ih =>
    obtain ⟨n, b', broken, others⟩ := ih broken
    obtain ⟨n, a', broken, first⟩ := first.mends broken
    obtain ⟨n, ts', broken, blank⟩ := Newlines.mends blank broken
    exact ⟨n, ts', broken, .more blank first others⟩

private theorem Fields.mends {f : Field} (h : Fields .lenient f ts rest) :
    Mends place (Fields .strict f) ts rest := by
  intro n rest' broken
  cases h with
  | field found kind ended =>
    obtain ⟨n, ts', broken, ended⟩ := ended.mends broken
    exact ⟨n, _, .keep _ (.keep _ broken), .field found kind ended⟩

/-- From the last line to the first, each construct is built strictly once the newlines that it
misses are put in: none of them stands where an earlier decision looks. -/
private theorem Builds.mends {construct : Construct} (h : Builds .lenient construct ts rest) :
    Mends place (Builds .strict construct) ts rest := by
  intro n rest' broken
  -- `n` counts the newlines put in so far, those behind the construct included.
  induction h generalizing n rest' with
  | declaration found capital kind spelled value ended =>
    obtain ⟨n, mid', broken, ended⟩ := ended.mends broken
    obtain ⟨n, ts', broken, value⟩ := value.mends broken
    exact ⟨n, _, .keep _ (.keep _ (.keep _ broken)),
      .declaration found capital kind spelled value ended⟩
  | function _ ih =>
    obtain ⟨n, ts', broken, built⟩ := ih broken
    exact ⟨n, ts', broken, .function built⟩
  | conditional spelled condition ended _ closed closeEnded ih =>
    obtain ⟨n, c', broken, closeEnded⟩ := closeEnded.mends broken
    obtain ⟨n, b', broken, built⟩ := ih (.keep _ broken)
    obtain ⟨n, a', broken, ended⟩ := ended.mends broken
    obtain ⟨n, ts', broken, condition⟩ := condition.mends broken
    exact ⟨n, _, .keep _ broken, .conditional spelled condition ended built closed closeEnded⟩
  | alternative spelled condition ended _ other otherEnded _ closed closeEnded ihThen ihElse =>
    obtain ⟨n, f', broken, closeEnded⟩ := closeEnded.mends broken
    obtain ⟨n, d', broken, otherBuilt⟩ := ihElse (.keep _ broken)
    obtain ⟨n, c', broken, otherEnded⟩ := otherEnded.mends broken
    obtain ⟨n, b', broken, built⟩ := ihThen (.keep _ broken)
    obtain ⟨n, a', broken, ended⟩ := ended.mends broken
    obtain ⟨n, ts', broken, condition⟩ := condition.mends broken
    exact ⟨n, _, .keep _ broken,
      .alternative spelled condition ended built other otherEnded otherBuilt closed closeEnded⟩
  | classDecl spelled kind face ended _ closed closeEnded ih =>
    obtain ⟨n, d', broken, closeEnded⟩ := closeEnded.mends broken
    obtain ⟨n, b', broken, built⟩ := ih (.keep _ broken)
    obtain ⟨n, a', broken, ended⟩ := ended.mends broken
    have named : Mends place (Implements _) _ _ := mends_of_transfers fun _ _ => face.transfers
    obtain ⟨n, ts', broken, face⟩ := named broken
    exact ⟨n, _, .keep _ (.keep _ broken),
      .classDecl spelled kind face ended built closed closeEnded⟩
  | interfaceDecl spelled kind ended listed closed closeEnded =>
    obtain ⟨n, b', broken, closeEnded⟩ := closeEnded.mends broken
    obtain ⟨n, a', broken, listed⟩ := listed.mends (.keep _ broken)
    obtain ⟨n, ts', broken, ended⟩ := ended.mends broken
    exact ⟨n, _, .keep _ (.keep _ broken),
      .interfaceDecl spelled kind ended listed closed closeEnded⟩
  | @assignment t q _ _ _ _ _ _ free target spelled value ended =>
    obtain ⟨n, a', broken, ended⟩ := ended.mends broken
    obtain ⟨n, mid', broken, value⟩ := value.mends broken
    have broken := Broken.keep q broken
    obtain ⟨ts', same, target⟩ := target.transfers_cons broken.replaces .here
    refine ⟨n, _, .keep _ (broken.of_same same), .assignment ?_ target spelled value ended⟩
    exact fun declares => free (same.declares broken.replaces _ declares)
  | expression free e ended =>
    obtain ⟨n, mid', broken, ended⟩ := ended.mends broken
    obtain ⟨ts', same, e⟩ := e.transfers_cons broken.replaces .here
    refine ⟨n, _, .keep _ (broken.of_same same), .expression ?_ e ended⟩
    exact fun declares => free (same.declares broken.replaces _ declares)
  | routine headed _ closed closeEnded ih =>
    obtain ⟨n, b', broken, closeEnded⟩ := closeEnded.mends broken
    obtain ⟨n, a', broken, built⟩ := ih (.keep _ broken)
    obtain ⟨n, ts', broken, headed⟩ := headed.mends broken
    exact ⟨n, ts', broken, .routine headed built closed closeEnded⟩
  | noStatement blank =>
    obtain ⟨n, ts', broken, blank⟩ := Newlines.mends blank broken
    exact ⟨n, ts', broken, .noStatement blank⟩
  | noMember blank =>
    obtain ⟨n, ts', broken, blank⟩ := Newlines.mends blank broken
    exact ⟨n, ts', broken, .noMember blank⟩
  | statement blank _ _ ihFirst ih =>
    obtain ⟨n, b', broken, others⟩ := ih broken
    obtain ⟨n, a', broken, first⟩ := ihFirst broken
    obtain ⟨n, ts', broken, blank⟩ := Newlines.mends blank broken
    exact ⟨n, ts', broken, .statement blank first others⟩
  | field blank first _ ih =>
    obtain ⟨n, b', broken, others⟩ := ih broken
    obtain ⟨n, a', broken, first⟩ := first.mends broken
    obtain ⟨n, ts', broken, blank⟩ := Newlines.mends blank broken
    exact ⟨n, ts', broken, .field blank first others⟩
  | method blank _ _ ihFirst ih =>
    obtain ⟨n, b', broken, others⟩ := ih broken
    obtain ⟨n, a', broken, first⟩ := ihFirst broken
    obtain ⟨n, ts', broken, blank⟩ := Newlines.mends blank broken
    exact ⟨n, ts', broken, .method blank first others⟩

end Grammar

namespace Program

/-- A program that is read from a text without strict terminators is read with them, places
included, from the same tokens with newlines put in between. The newlines may be at any places. -/
theorem ofTokens_strict_of_broken {source : String} {p : Program}
    (accepted : ofSource .lenient source = .ok p) (place : Nat → Position) :
    ∃ tokens n tokens', tokenize source = .ok tokens ∧ Broken place n tokens tokens' ∧
      ofTokens .strict tokens' = .ok p := by
  obtain ⟨tokens, tokenized, accepted⟩ := ofSource_eq_ok_iff.mp accepted
  have stream := stream_of_tokenize tokenized
  obtain ⟨last, atEnd, built⟩ := (ofTokens_eq_ok_iff stream).mp accepted
  obtain ⟨n, tokens', broken, strict⟩ := built.mends (Broken.refl place [last])
  refine ⟨tokens, n, tokens', tokenized, broken, ?_⟩
  exact (ofTokens_eq_ok_iff (broken.stream stream)).mpr ⟨last, atEnd, strict⟩

/-- A conditional on one line, without any of its newlines. -/
theorem ofTokens_strict_of_broken_line :
    let p : Program := ⟨[
      .conditional ⟨1, 1⟩ (.integer ⟨1, 4⟩ 1) [.expression ⟨1, 6⟩ (.integer ⟨1, 6⟩ 2)]
        (some [.expression ⟨1, 13⟩ (.integer ⟨1, 13⟩ 3)]),
      .expression ⟨1, 19⟩ (.integer ⟨1, 19⟩ 4)]⟩
    ofSource .lenient "if 1 2 else 3 end 4" = .ok p ∧
      ofSource .strict "if 1 2 else 3 end 4" =
        .error (.parse (.syntaxError ⟨.unexpected .newline (.other "2"), ⟨1, 6⟩⟩)) ∧
      ∃ tokens n tokens', tokenize "if 1 2 else 3 end 4" = .ok tokens ∧
        Broken (fun k => ⟨k, 0⟩) n tokens tokens' ∧ ofTokens .strict tokens' = .ok p := by
  intro p
  have tokenized : tokenize "if 1 2 else 3 end 4" = .ok [⟨.word "if", "if", ⟨1, 1⟩⟩,
      ⟨.integer, "1", ⟨1, 4⟩⟩, ⟨.integer, "2", ⟨1, 6⟩⟩, ⟨.word "else", "else", ⟨1, 8⟩⟩,
      ⟨.integer, "3", ⟨1, 13⟩⟩, ⟨.word "end", "end", ⟨1, 15⟩⟩, ⟨.integer, "4", ⟨1, 19⟩⟩,
      ⟨.endOfInput, "", ⟨1, 20⟩⟩] := by
    show tokensFrom .first ['i', 'f', ' ', '1', ' ', '2', ' ', 'e', 'l', 's', 'e', ' ', '3', ' ',
      'e', 'n', 'd', ' ', '4'] = _
    iterate 13 refine tokensFrom_cons rfl rfl ?_
    exact tokensFrom_nil _
  have accepted : ofSource .lenient "if 1 2 else 3 end 4" = .ok p :=
    ofSource_eq_ok_iff.mpr ⟨_, tokenized, rfl⟩
  refine ⟨accepted, ?_, ofTokens_strict_of_broken accepted _⟩
  rw [ofSource, tokenized]
  rfl

end Program

end ScriptLang
