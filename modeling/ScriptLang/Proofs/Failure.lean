import ScriptLang.Proofs.Canonical.RoundTrip
import ScriptLang.Proofs.Evaluation.Reached
import ScriptLang.Proofs.Grammar.Progress
import ScriptLang.Proofs.Grammar.Relocation
import ScriptLang.Proofs.Token.Unreadable

/-!
Failures from end to end. A text that cannot be cut into tokens is at fault at one of its
characters; one that spells no program, or whose program fails, is at fault at one of its tokens.
The only other failure of a text is a number of more digits than are converted.
-/

set_option autoImplicit false
set_option relaxedAutoImplicit false

namespace ScriptLang

open Evaluation

def IsCharacterPlace (source : String) (p : Position) : Prop :=
  ∃ before c rest, source.toList = before ++ c :: rest ∧ p = .following before

/-- Whether `p` is the place of a token of a text; the end of the text is a token as well. -/
def IsTokenPlace (source : String) (p : Position) : Prop :=
  ∃ tokens, tokenize source = .ok tokens ∧ ∃ t ∈ tokens, t.position = p

private theorem Program.exists_token_of_mem_nodes {mode : Terminators} {tokens : List Token}
    {p : Program} (h : ofTokens mode tokens = .ok p) {x : Node} (there : x ∈ p.nodes) :
    ∃ t ∈ tokens, t.position = x.position := by
  let places := tokens.map Token.position
  -- Moving all places but those of the tokens does not change what is read.
  let f (q : Position) : Position := if q ∈ places then q else ⟨q.line, q.column + 1⟩
  have unmoved : tokens.map (Token.relocate f) = tokens := by
    refine (List.map_congr_left fun t ht => ?_).trans (List.map_id tokens)
    have placed : t.position ∈ places := List.mem_map_of_mem ht
    simp [Token.relocate, f, placed]
  have moved := ofTokens_relocate f mode tokens
  rw [unmoved, h] at moved
  have fixed : p.nodes = p.nodes.map (Node.relocate f) := by
    rw [← p.nodes_relocate f, ← Except.ok.inj moved]
  have place : f x.position = x.position := by
    rw [← x.position_relocate f]
    refine congrArg Node.position (List.map_inj_left.mp ?_ x there : x.relocate f = id x)
    rw [List.map_id, ← fixed]
  by_cases placed : x.position ∈ places
  · exact List.mem_map.mp placed
  · have columns := congrArg Position.column place
    simp only [f, placed, if_false] at columns
    omega

namespace Evaluation.Point

variable {a : Point}

private theorem Raises.exists_node {e : EvalError} (h : a.Raises (.error e)) :
    ∃ x ∈ a.task.nodes, x.position = e.position := by
  cases h with
  | @argumentMismatch _ arg =>
    exact ⟨_, List.mem_append_left _ arg.mem_nodes, rfl⟩
  | declarationMismatch | unsupportedTarget => exact ⟨_, Stmt.mem_nodes _, rfl⟩
  | _ => exact ⟨_, Expr.mem_nodes _, rfl⟩

private theorem not_raises_noFrame : ¬ a.Raises .noFrame :=
  nofun

/-- Only an operator that the grammar does not know is unsupported. -/
private theorem Raises.cause_ne_unsupportedOperator {e : EvalError}
    (wellFormed : ∀ x ∈ a.task.nodes, x.WellFormed) (h : a.Raises (.error e)) (sign : String) :
    e.cause ≠ .unsupportedOperator sign := by
  rintro same
  cases h with
  | @operate _ p operator left right _ _ _ _ _ _ _ _ result =>
    obtain ⟨known, -, -⟩ : Expr.WellFormed (.binary p operator left right) :=
      wellFormed (.expression _) (Expr.mem_nodes _)
    obtain ⟨_, _, rfl⟩ | rfl | ⟨sign', rfl, -⟩ := operate_eq_error result
    · cases same
    · cases same
    · exact known rfl
  | _ => cases same

end Evaluation.Point

private theorem Program.ofSource_eq_tooLong_iff {source : String} {mode : Terminators} {n : Nat} :
    ofSource mode source = .error (.lex (.tooLong n)) ↔ tokenize source = .error (.tooLong n) := by
  unfold ofSource
  cases tokenize source with
  | error failure => simp
  | ok tokens => cases read : ofTokens mode tokens <;> simp [read]

/-- How the run of a program that is read from a text may end, if it ends. -/
theorem outcome_of_ofTokens {source : String} {mode : Terminators} {tokens : List Token}
    {p : Program} (cut : tokenize source = .ok tokens) (h : Program.ofTokens mode tokens = .ok p)
    (limit : Nat) :
    (interpret limit p .initial).1 = .ok () ∨ (interpret limit p .initial).1 = .error .tooDeep ∨
      ∃ e, (interpret limit p .initial).1 = .error (.error e) ∧
        (∀ sign, e.cause ≠ .unsupportedOperator sign) ∧ IsTokenPlace source e.position := by
  have stream := stream_of_tokenize cut
  have wellFormed := ((Program.ofTokens_eq_ok_iff stream).mp h).wellFormed stream
  let P (x : Node) : Prop := x.WellFormed ∧ ∃ t ∈ tokens, t.position = x.position
  have code : ∀ x ∈ p.nodes, P x := fun x there =>
    ⟨wellFormed.nodes x there, Program.exists_token_of_mem_nodes h there⟩
  cases ended : (interpret limit p .initial).1 with
  | ok => exact .inl rfl
  | error stop =>
    -- A stop is raised at a point of the run, and the code at all of them is code of the program.
    obtain ⟨a, reached, raised⟩ := exists_raises_of_interpret ended
    have good := reached.good (Point.good_start limit code)
    cases stop with
    | tooDeep => exact .inr (.inl rfl)
    | noFrame => exact absurd raised Point.not_raises_noFrame
    | error e =>
      have known := raised.cause_ne_unsupportedOperator fun x there => (good.code x there).1
      obtain ⟨x, there, place⟩ := raised.exists_node
      obtain ⟨t, among, same⟩ := (good.code x there).2
      exact .inr (.inr ⟨e, rfl, known, tokens, cut, t, among, same.trans place⟩)

/-- What can go wrong with a text, at any stage. If it meets a number of too many digits, it fails
without an error, and it does so for no other reason. Else, if it cannot be cut into tokens, the
fault lies at one of its characters. If its tokens spell no program, there is a fault in the
program, and it lies at a token: the reading does not run out of tokens and meets no number that it
cannot read. A program that is read has a canonical text; an outline it has as every program does.
Under any limit on the nesting of calls, its run ends without an error, or calls are nested deeper
than the limit, or there is an error of the program, which lies at a token: no saved variables are
missing and no operator is unknown. -/
theorem failure_lies_in_source (source : String) (mode : Terminators) :
    (∀ n, Program.ofSource mode source = .error (.lex (.tooLong n)) ↔ MeetsTooLong n source) ∧
    match Program.ofSource mode source with
    | .error (.lex (.fault e)) => IsCharacterPlace source e.position
    | .error (.lex (.tooLong n)) => MeetsTooLong n source
    | .error (.parse failure) =>
      ∃ e, failure = .syntaxError e ∧ IsTokenPlace source e.position
    | .ok p =>
      p.canonical = .ok p.text ∧ ∀ limit,
        (interpret limit p .initial).1 = .ok () ∨
          (interpret limit p .initial).1 = .error .tooDeep ∨
          ∃ e, (interpret limit p .initial).1 = .error (.error e) ∧
            (∀ sign, e.cause ≠ .unsupportedOperator sign) ∧ IsTokenPlace source e.position := by
  refine ⟨fun n => Program.ofSource_eq_tooLong_iff.trans tokenize_eq_tooLong_iff, ?_⟩
  cases cut : tokenize source with
  | error failure =>
    simp only [Program.ofSource, cut]
    cases failure with
    | fault e => exact exists_character_of_tokenize cut
    | tooLong n => exact tokenize_eq_tooLong_iff.mp cut
  | ok tokens =>
    cases read : Program.ofTokens mode tokens with
    | error failure =>
      simp only [Program.ofSource, cut, read]
      obtain ⟨e, fault, place⟩ := Program.exists_fault_of_ofTokens (stream_of_tokenize cut) read
      exact ⟨e, fault, tokens, cut, place⟩
    | ok p =>
      have accepted : Program.ofSource mode source = .ok p := by
        simp only [Program.ofSource, cut, read]
      rw [accepted]
      exact ⟨Program.canonical_eq (Program.wellFormed_of_ofSource accepted),
        outcome_of_ofTokens cut read⟩

/-- A text of 4301 nines is such a number. -/
theorem failure_lies_in_source_of_nines :
    let source := String.ofList (List.replicate 4301 '9')
    MeetsTooLong 4301 source ∧
      ∀ mode, Program.ofSource mode source = .error (.lex (.tooLong 4301)) := by
  intro source
  have nines : ∀ c ∈ List.replicate 4301 '9', c.isDigit := by
    intro c there
    rw [List.eq_of_mem_replicate there]
    rfl
  have met : MeetsTooLong 4301 source := by
    have long : Text.digitLimit < (List.replicate 4301 '9').length := by
      rw [List.length_replicate]
      decide
    have digits := meetsTooLong_of_digits nines long
    rwa [List.length_replicate] at digits
  exact ⟨met, fun mode => ((failure_lies_in_source source mode).1 4301).mpr met⟩

end ScriptLang
