import ScriptLang.Proofs.Grammar.Completeness
import ScriptLang.Proofs.Grammar.Reading

/-!
The readings of the grammar and its rules agree: what is read from the tokens of a source text is
derived from them, and what is derived is read.
-/

set_option autoImplicit false
set_option relaxedAutoImplicit false

namespace ScriptLang

/-! ## Soundness

What the readings of the grammar accept, the rules derive: whenever a reading succeeds on a stream
of regular tokens, its result is spelled by the tokens that it took. The readings nest only inside
brackets and blocks, so soundness of the nested reading is the hypothesis of every lemma and the
bound on the nesting carries the induction.
-/

section Soundness

open Attempt

namespace Grammar

open Reading
open Operator (signsOf primaryPrecedence)

section Expression

variable {nested : Reading Expr}

private theorem sound_arguments (hn : Sound (fun e => Derives (.expression 1 e)) nested) :
    Sound (fun args => Derives (.arguments args)) (arguments nested) := by
  intro ts args rest stream h
  simp only [arguments, bind_eq_ok, discard_eq_ok, pure_eq_ok] at h
  obtain ⟨_, a, ⟨p, hp⟩, items, b, hi, _, c, ⟨q, hq⟩, rfl, rfl⟩ := h
  obtain ⟨⟨rfl, opening⟩, sa⟩ := sound_expect "(" (by decide) stream hp
  obtain ⟨derived, sb⟩ := sound_itemsWhile (S := fun es => Derives (.items es))
    looks_argument hn (fun _ => .noItem) .item sa hi
  obtain ⟨⟨rfl, closing⟩, sc⟩ := sound_expect ")" (by decide) sb hq
  exact ⟨.arguments opening derived closing, sc⟩

private theorem sound_atom (hn : Sound (fun e => Derives (.expression 1 e)) nested) :
    Sound (fun e => Derives (.atom e)) (atom nested) := by
  intro ts e rest stream h
  obtain ⟨t, a, rfl⟩ := stream.exists_cons
  have regular := stream.regular
  rw [atom, current_bind] at h
  cases kind : t.kind with
  | integer =>
    have notEnd : t.kind ≠ .endOfInput := by simp [kind]
    unfold Token.Regular at regular
    rw [kind] at regular
    obtain ⟨filled, digits, short, -⟩ := regular
    have value := Text.integerValue?_of_digits
      (fun empty => filled (String.toList_eq_nil_iff.mp empty)) digits short
    simp only [kind] at h
    rw [advance_bind notEnd, value] at h
    obtain ⟨rfl, rfl⟩ := pure_eq_ok.mp h
    exact ⟨.integer kind, stream.tail notEnd⟩
  | string =>
    have notEnd : t.kind ≠ .endOfInput := by simp [kind]
    simp only [kind] at h
    rw [advance_bind notEnd] at h
    split at h
    · rename_i marked
      obtain ⟨rfl, rfl⟩ := pure_eq_ok.mp h
      exact ⟨.template kind marked, stream.tail notEnd⟩
    · rename_i unmarked
      obtain ⟨rfl, rfl⟩ := pure_eq_ok.mp h
      exact ⟨.string kind unmarked, stream.tail notEnd⟩
  | identifier =>
    have notEnd : t.kind ≠ .endOfInput := by simp [kind]
    have sa := stream.tail notEnd
    obtain ⟨u, b, rfl⟩ := sa.exists_cons
    simp only [kind] at h
    rw [advance_bind notEnd, sees_bind] at h
    split at h
    · simp only [bind_eq_ok, pure_eq_ok] at h
      obtain ⟨args, c, ha, rfl, rfl⟩ := h
      obtain ⟨derived, sc⟩ := sound_arguments hn sa ha
      exact ⟨.functionCall kind derived, sc⟩
    · rename_i closed
      obtain ⟨rfl, rfl⟩ := pure_eq_ok.mp h
      exact ⟨.identifier kind closed, sa⟩
  | _ =>
    simp only [kind, sees_bind] at h
    split at h
    · rename_i opening
      have notEnd := regular.more_of_spells opening
      rw [advance_bind notEnd] at h
      simp only [bind_eq_ok, discard_eq_ok, pure_eq_ok] at h
      obtain ⟨inner, b, hi, _, c, ⟨q, hq⟩, rfl, rfl⟩ := h
      obtain ⟨derived, sb⟩ := hn (stream.tail notEnd) hi
      obtain ⟨⟨rfl, closing⟩, sc⟩ := sound_expect ")" (by decide) sb hq
      exact ⟨.group opening derived closing, sc⟩
    · simp at h

private theorem sound_access (hn : Sound (fun e => Derives (.expression 1 e)) nested)
    (receiver : Expr) :
    Sound (Steps (fun a e => Derives (.accesses a e)) receiver) (access nested receiver) := by
  intro ts b? rest stream h
  obtain ⟨d, a, rfl⟩ := stream.exists_cons
  have regular := stream.regular
  rw [access, sees_bind] at h
  split at h
  · rename_i dot
    have notEnd := regular.more_of_spells dot
    rw [advance_bind notEnd, bind_eq_ok] at h
    obtain ⟨name, b, hname, h⟩ := h
    obtain ⟨⟨rfl, kind⟩, sb⟩ := sound_expectIdentifier _ (stream.tail notEnd) hname
    obtain ⟨u, c, rfl⟩ := sb.exists_cons
    rw [sees_bind] at h
    split at h
    · rw [bind_eq_ok] at h
      obtain ⟨args, c, ha, h⟩ := h
      obtain ⟨derived, sc⟩ := sound_arguments hn sb ha
      split at h
      · rename_i new
        split at h
        · obtain ⟨rfl, rfl⟩ := pure_eq_ok.mp h
          exact ⟨fun _ _ => .creation dot kind new derived, sc⟩
        · simp at h
      · rename_i other
        obtain ⟨rfl, rfl⟩ := pure_eq_ok.mp h
        exact ⟨fun _ _ => .methodCall dot kind other derived, sc⟩
    · rename_i closed
      obtain ⟨rfl, rfl⟩ := pure_eq_ok.mp h
      exact ⟨fun _ _ => .fieldAccess dot kind closed, sb⟩
  · obtain ⟨rfl, rfl⟩ := pure_eq_ok.mp h
    exact ⟨rfl, stream⟩

private theorem sound_operand {n : Nat} {reading : Reading Expr}
    (hr : Sound (fun e => Derives (.expression (n + 1) e)) reading) (left : Expr) :
    Sound (Steps (fun a e => Derives (.operands n a e)) left)
      (operand (signsOf n) reading left) := by
  intro ts b? rest stream h
  obtain ⟨t, a, rfl⟩ := stream.exists_cons
  have regular := stream.regular
  rw [operand, current_bind] at h
  split at h
  · rename_i joins
    obtain ⟨operator, precedence, spelled, positive⟩ := any_spells_iff.mp joins
    have known : operator.precedence ≠ 0 := precedence ▸ positive
    have notEnd := regular.more_of_operator spelled known
    rw [advance_bind notEnd] at h
    simp only [bind_eq_ok, pure_eq_ok] at h
    obtain ⟨right, b, hr', rfl, rfl⟩ := h
    obtain ⟨derived, sb⟩ := hr (stream.tail notEnd) hr'
    rw [(Token.spells_iff.mp spelled).1, Operator.ofSign_sign known]
    exact ⟨fun _ _ => .operand (Nat.pos_of_ne_zero positive) precedence spelled derived, sb⟩
  · obtain ⟨rfl, rfl⟩ := pure_eq_ok.mp h
    exact ⟨rfl, stream⟩

private theorem sound_level (hn : Sound (fun e => Derives (.expression 1 e)) nested) {n : Nat}
    (distance : Nat) (positive : 0 < n) (reached : n + distance = primaryPrecedence) :
    Sound (fun e => Derives (.expression n e)) (level nested n) := by
  intro ts e rest stream h
  induction distance generalizing n ts e rest with
  | zero =>
    obtain rfl : n = primaryPrecedence := reached
    rw [level_primary, bind_eq_ok] at h
    obtain ⟨a, mid, ha, h⟩ := h
    obtain ⟨first, smid⟩ := sound_atom hn stream ha
    obtain ⟨others, srest⟩ := sound_extend (sound_access hn) (fun _ _ => .noAccess) a smid h
    exact ⟨.primary first others, srest⟩
  | succ distance ih =>
    have below : n < primaryPrecedence := by omega
    have next : Sound (fun e => Derives (.expression (n + 1) e)) (level nested (n + 1)) :=
      fun stream h => ih (Nat.succ_pos n) (by omega) stream h
    rw [level_operation nested positive below, bind_eq_ok] at h
    obtain ⟨left, mid, hl, h⟩ := h
    obtain ⟨first, smid⟩ := next stream hl
    obtain ⟨others, srest⟩ := sound_extend (sound_operand next) (fun _ _ => .noOperand) left smid h
    exact ⟨.operation positive below first others, srest⟩

end Expression

private theorem sound_expressionWithin (n : Nat) :
    Sound (fun e => Derives (.expression 1 e)) (expressionWithin n) := by
  induction n with
  | zero =>
    intro ts e rest stream h
    cases h
  | succ n ih => exact fun stream h => sound_level ih 3 Nat.one_pos rfl stream h

private theorem sound_expression : Sound (fun e => Derives (.expression 1 e)) expression :=
  fun stream h => sound_expressionWithin _ stream h

private theorem sound_terminator (mode : Terminators) :
    Sound (fun _ => LineEnd mode) (terminator mode) := by
  intro ts u rest stream h
  obtain ⟨t, a, rfl⟩ := stream.exists_cons
  unfold terminator at h
  rw [current_bind] at h
  cases kind : t.kind with
  | newline =>
    have notEnd : t.kind ≠ .endOfInput := by simp [kind]
    simp only [kind, discard_eq_ok, advance_cons notEnd] at h
    obtain ⟨_, h⟩ := h
    cases h
    exact ⟨.newline kind, stream.tail notEnd⟩
  | endOfInput =>
    simp only [kind, pure_eq_ok] at h
    obtain ⟨-, rfl⟩ := h
    exact ⟨.endOfInput kind, stream⟩
  | _ =>
    cases mode with
    | strict => simp [kind] at h
    | lenient =>
      simp only [kind, pure_eq_ok] at h
      obtain ⟨-, rfl⟩ := h
      exact ⟨.missing rfl (by simp [kind]) (by simp [kind]), stream⟩

private theorem sound_typeRef :
    Sound (fun r ts rest => ∃ t type, ts = t :: rest ∧ typeOf? t = some type ∧
      r = ⟨t.position, type⟩) typeRef := by
  intro ts r rest stream h
  obtain ⟨t, a, rfl⟩ := stream.exists_cons
  rw [typeRef, current_bind] at h
  cases found : typeOf? t with
  | some type =>
    have notEnd := more_of_typeOf? found
    simp only [found] at h
    rw [advance_bind notEnd] at h
    obtain ⟨rfl, rfl⟩ := pure_eq_ok.mp h
    exact ⟨⟨t, type, rfl, found, rfl⟩, stream.tail notEnd⟩
  | none => simp [found] at h

private theorem sound_param :
    Sound (fun p ts rest => ∃ name colon t type, ts = name :: colon :: t :: rest ∧
      name.kind = .identifier ∧ colon.spells ":" ∧ typeOf? t = some type ∧
      p = ⟨name.position, name.text, ⟨t.position, type⟩⟩) param := by
  intro ts p rest stream h
  obtain ⟨first, a, rfl⟩ := stream.exists_cons
  rw [param, here_bind, bind_eq_ok] at h
  obtain ⟨name, b, hname, h⟩ := h
  obtain ⟨⟨same, kind⟩, sb⟩ := sound_expectIdentifier _ stream hname
  obtain ⟨rfl, rfl⟩ := List.cons.inj same
  obtain ⟨colon, c, rfl⟩ := sb.exists_cons
  rw [sees_bind] at h
  split at h
  · rename_i spelled
    have notEnd := sb.regular.more_of_spells spelled
    rw [advance_bind notEnd] at h
    simp only [bind_eq_ok, pure_eq_ok] at h
    obtain ⟨r, d, hr, rfl, rfl⟩ := h
    obtain ⟨⟨t, type, rfl, found, rfl⟩, sd⟩ := sound_typeRef (sb.tail notEnd) hr
    exact ⟨⟨_, colon, t, type, rfl, kind, spelled, found, rfl⟩, sd⟩
  · simp at h

private theorem sound_paramsWithin (n : Nat) :
    Sound (fun ps ts rest => ∀ last, Parameters [] rest last → Parameters ps ts last)
      (paramsWithin n) := by
  induction n with
  | zero =>
    intro ts ps rest stream h
    cases h
  | succ n ih =>
    intro ts ps rest stream h
    simp only [paramsWithin, bind_eq_ok] at h
    obtain ⟨p, a, hp, _, b, hskip, seen, c, hs, h⟩ := h
    obtain ⟨⟨name, colon, t, type, rfl, kind, spelled, found, rfl⟩, sa⟩ := sound_param stream hp
    obtain ⟨strays, sb⟩ := sound_skipWhile (fun _ => more_of_isStray) sa hskip
    obtain rfl := eq_of_sees hs
    split at h
    · obtain ⟨rfl, rfl⟩ := pure_eq_ok.mp h
      exact ⟨fun last => .param kind spelled found strays, sb⟩
    · simp only [bind_eq_ok, pure_eq_ok] at h
      obtain ⟨ps, d, hps, rfl, rfl⟩ := h
      obtain ⟨others, sd⟩ := ih sb hps
      exact ⟨fun last closed => .param kind spelled found strays (others last closed), sd⟩

private theorem sound_params :
    Sound (fun ps ts rest => ∃ p more, ts = p :: more ∧ p.spells "(" ∧ Parameters ps more rest)
      params := by
  intro ts ps rest stream h
  simp only [params, bind_eq_ok, discard_eq_ok] at h
  obtain ⟨_, a, ⟨p, hp⟩, seen, b, hs, h⟩ := h
  obtain ⟨⟨rfl, opening⟩, sa⟩ := sound_expect "(" (by decide) stream hp
  obtain ⟨q, c, rfl⟩ := sa.exists_cons
  cases hs
  split at h
  · rename_i closing
    have notEnd := sa.regular.more_of_spells closing
    simp only [bind_eq_ok, discard_eq_ok, pure_eq_ok, advance_cons notEnd] at h
    obtain ⟨_, _, ⟨_, h⟩, rfl, rfl⟩ := h
    cases h
    exact ⟨⟨p, _, rfl, opening, .none closing⟩, sa.tail notEnd⟩
  · simp only [bind_eq_ok, discard_eq_ok, pure_eq_ok] at h
    obtain ⟨ps, d, hps, _, e, ⟨q, hq⟩, rfl, rfl⟩ := h
    obtain ⟨derived, sd⟩ := sound_paramsWithin _ sa hps
    obtain ⟨⟨rfl, closing⟩, se⟩ := sound_expect ")" (by decide) sd hq
    exact ⟨⟨p, _, rfl, opening, derived _ (.none closing)⟩, se⟩

private theorem sound_returnType :
    Sound (fun r ts rest => ∃ separator t type, ts = separator :: t :: rest ∧
      separator.kind = .operator ∧ (separator.text = "->" ∨ separator.text = ":") ∧
      typeOf? t = some type ∧ r = ⟨t.position, type⟩) returnType := by
  intro ts r rest stream h
  obtain ⟨separator, a, rfl⟩ := stream.exists_cons
  rw [returnType, current_bind] at h
  split at h
  · rename_i separates
    obtain ⟨kind, text⟩ : separator.kind = .operator ∧
        (separator.text = "->" ∨ separator.text = ":") := by simpa using separates
    have notEnd : separator.kind ≠ .endOfInput := by simp [kind]
    rw [advance_bind notEnd] at h
    obtain ⟨⟨t, type, rfl, found, rfl⟩, srest⟩ := sound_typeRef (stream.tail notEnd) h
    exact ⟨⟨separator, t, type, rfl, kind, text, found, rfl⟩, srest⟩
  · simp at h

private theorem sound_signature (mode : Terminators) (what : String) :
    Sound (fun s => Heads mode s) (signature mode what) := by
  intro ts s rest stream h
  obtain ⟨first, a, rfl⟩ := stream.exists_cons
  rw [signature, here_bind] at h
  simp only [bind_eq_ok, discard_eq_ok, pure_eq_ok] at h
  obtain ⟨_, b, ⟨d, hd⟩, name, c, hname, ps, e, hps, r, f, hr, _, g, hend, rfl, rfl⟩ := h
  obtain ⟨⟨same, spelled⟩, sb⟩ := sound_expect "def" (by decide) stream hd
  obtain ⟨rfl, rfl⟩ := List.cons.inj same
  obtain ⟨⟨rfl, kind⟩, sc⟩ := sound_expectIdentifier _ sb hname
  obtain ⟨⟨p, more, rfl, opening, derived⟩, se⟩ := sound_params sc hps
  obtain ⟨⟨separator, t, type, rfl, operator, text, found, rfl⟩, sf⟩ := sound_returnType se hr
  obtain ⟨ended, sg⟩ := sound_terminator mode sf hend
  exact ⟨.head spelled kind opening derived operator text found ended, sg⟩

private theorem sound_field (mode : Terminators) : Sound (fun f => Fields mode f) (field mode) := by
  intro ts f rest stream h
  obtain ⟨first, a, rfl⟩ := stream.exists_cons
  rw [field, here_bind] at h
  simp only [bind_eq_ok, pure_eq_ok] at h
  obtain ⟨r, b, hr, name, c, hname, _, d, hend, rfl, rfl⟩ := h
  obtain ⟨⟨t, type, same, found, rfl⟩, sb⟩ := sound_typeRef stream hr
  obtain ⟨rfl, rfl⟩ := List.cons.inj same
  obtain ⟨⟨rfl, kind⟩, sc⟩ := sound_expectIdentifier _ sb hname
  obtain ⟨ended, sd⟩ := sound_terminator mode sc hend
  exact ⟨.field found kind ended, sd⟩

private theorem sound_separated {α : Type} {R : α → List Token → List Token → Prop}
    {S : List α → List Token → List Token → Prop} {test : Reading Bool} {item : Reading α}
    (looks : Looks test)
    (sound : Sound (fun x ts rest => ∃ a, R x ts a ∧ Newlines a rest) item)
    (none : ∀ {ts rest}, Newlines ts rest → S [] ts rest)
    (more : ∀ {x xs ts a b rest}, Newlines ts a → R x a b → S xs b rest → S (x :: xs) ts rest) :
    Sound S (skipNewlines >>= fun _ => itemsWhile test item) := by
  intro ts xs rest stream h
  rw [bind_eq_ok] at h
  obtain ⟨_, a, hskip, h⟩ := h
  obtain ⟨blank, sa⟩ := sound_skipNewlines stream hskip
  -- Each item takes the newlines after it, so the rule waits for those before the first.
  obtain ⟨items, srest⟩ := sound_itemsWhile
    (S := fun xs ts rest => ∀ start, Newlines start ts → S xs start rest) looks sound
    (fun _ _ blank => none blank)
    (fun ⟨b, first, between⟩ others _ blank => more blank first (others b between)) sa h
  exact ⟨items ts blank, srest⟩

section Nested

variable {mode : Terminators} {nested : Reading Stmt}

private theorem sound_statements {test : Reading Bool} (looks : Looks test)
    (hn : Sound (fun s => Builds mode (.statement s)) nested) :
    Sound (fun body => Builds mode (.block body)) (statements nested test) := by
  refine sound_separated (R := fun s => Builds mode (.statement s))
    (S := fun body => Builds mode (.block body)) looks ?_ .noStatement .statement
  intro ts s rest stream h
  simp only [bind_eq_ok, pure_eq_ok] at h
  obtain ⟨s, a, hs, _, b, hskip, rfl, rfl⟩ := h
  obtain ⟨derived, sa⟩ := hn stream hs
  obtain ⟨blank, sb⟩ := sound_skipNewlines sa hskip
  exact ⟨⟨a, derived, blank⟩, sb⟩

private theorem sound_block (hn : Sound (fun s => Builds mode (.statement s)) nested)
    (stops : List String) :
    Sound (fun body => Builds mode (.block body)) (block nested stops) :=
  fun stream h => sound_statements (looks_seesNone stops) hn stream h

private theorem sound_closing (mode : Terminators) :
    Sound (fun _ ts rest => ∃ e more, ts = e :: more ∧ e.spells "end" ∧ LineEnd mode more rest)
      (closing mode) := by
  intro ts u rest stream h
  simp only [closing, bind_eq_ok, discard_eq_ok] at h
  obtain ⟨_, a, ⟨e, he⟩, h⟩ := h
  obtain ⟨⟨rfl, spelled⟩, sa⟩ := sound_expect "end" (by decide) stream he
  obtain ⟨ended, srest⟩ := sound_terminator mode sa h
  exact ⟨⟨e, a, rfl, spelled, ended⟩, srest⟩

private theorem sound_routine (hn : Sound (fun s => Builds mode (.statement s)) nested)
    (what : String) : Sound (fun r => Builds mode (.routine r)) (routine mode nested what) := by
  intro ts r rest stream h
  simp only [routine, bind_eq_ok, pure_eq_ok] at h
  obtain ⟨head, a, hhead, body, b, hbody, _, c, hend, rfl, rfl⟩ := h
  obtain ⟨headed, sa⟩ := sound_signature mode what stream hhead
  obtain ⟨built, sb⟩ := sound_block hn _ sa hbody
  obtain ⟨⟨e, more, rfl, spelled, ended⟩, sc⟩ := sound_closing mode sb hend
  exact ⟨.routine headed built spelled ended, sc⟩

private theorem sound_conditional (hn : Sound (fun s => Builds mode (.statement s)) nested) :
    Sound (fun s => Builds mode (.statement s)) (conditional mode nested) := by
  intro ts s rest stream h
  obtain ⟨i, a, rfl⟩ := stream.exists_cons
  rw [conditional, here_bind] at h
  simp only [bind_eq_ok, discard_eq_ok] at h
  obtain ⟨_, b, ⟨i, hi⟩, condition, c, hcondition, _, d, hend, thenBody, e, hthen, seen, f,
    hseen, h⟩ := h
  obtain ⟨⟨same, spelled⟩, sb⟩ := sound_expect "if" (by decide) stream hi
  obtain ⟨rfl, rfl⟩ := List.cons.inj same
  obtain ⟨derived, sc⟩ := sound_expression sb hcondition
  obtain ⟨ended, sd⟩ := sound_terminator mode sc hend
  obtain ⟨built, se⟩ := sound_block hn _ sd hthen
  obtain ⟨l, more, rfl⟩ := se.exists_cons
  cases hseen
  split at h
  · rename_i alternative
    have notEnd := se.regular.more_of_spells alternative
    rw [advance_bind notEnd] at h
    simp only [bind_eq_ok, map_eq_ok, pure_eq_ok] at h
    obtain ⟨_, m, helse, _, k, ⟨elseBody, hbody, rfl⟩, _, _, hclose, rfl, rfl⟩ := h
    obtain ⟨elseEnded, sm⟩ := sound_terminator mode (se.tail notEnd) helse
    obtain ⟨elseBuilt, sk⟩ := sound_block hn _ sm hbody
    obtain ⟨⟨close, more, rfl, closed, closeEnded⟩, srest⟩ := sound_closing mode sk hclose
    exact ⟨.alternative spelled derived ended built alternative elseEnded elseBuilt closed
      closeEnded, srest⟩
  · simp only [bind_eq_ok, pure_eq_ok] at h
    obtain ⟨_, _, ⟨rfl, rfl⟩, _, _, hclose, rfl, rfl⟩ := h
    obtain ⟨⟨close, more, same, closed, closeEnded⟩, srest⟩ := sound_closing mode se hclose
    obtain ⟨rfl, rfl⟩ := List.cons.inj same
    exact ⟨.conditional spelled derived ended built closed closeEnded, srest⟩

private theorem sound_member (hn : Sound (fun s => Builds mode (.statement s)) nested) :
    Sound (fun m ts rest => ∃ a, (match m with
      | .field f => Fields mode f ts a
      | .method r => Builds mode (.routine r) ts a) ∧ Newlines a rest) (member mode nested) := by
  intro ts m rest stream h
  obtain ⟨t, a, rfl⟩ := stream.exists_cons
  rw [member, sees_bind] at h
  split at h
  · simp only [bind_eq_ok, map_eq_ok, pure_eq_ok] at h
    obtain ⟨_, b, ⟨r, hr, rfl⟩, _, c, hskip, rfl, rfl⟩ := h
    obtain ⟨built, sb⟩ := sound_routine hn _ stream hr
    obtain ⟨blank, sc⟩ := sound_skipNewlines sb hskip
    exact ⟨⟨b, built, blank⟩, sc⟩
  · simp only [bind_eq_ok, map_eq_ok, pure_eq_ok] at h
    obtain ⟨_, b, ⟨f, hf, rfl⟩, _, c, hskip, rfl, rfl⟩ := h
    obtain ⟨built, sb⟩ := sound_field mode stream hf
    obtain ⟨blank, sc⟩ := sound_skipNewlines sb hskip
    exact ⟨⟨b, built, blank⟩, sc⟩

private theorem sound_members (hn : Sound (fun s => Builds mode (.statement s)) nested) :
    Sound (fun ms => Builds mode
        (.members (ms.filterMap Member.field?) (ms.filterMap Member.method?)))
      (skipNewlines >>= fun _ => itemsWhile (seesNone ["end"]) (member mode nested)) := by
  refine sound_separated
    (R := fun m ts a => match m with
      | .field f => Fields mode f ts a
      | .method r => Builds mode (.routine r) ts a)
    (S := fun ms => Builds mode
      (.members (ms.filterMap Member.field?) (ms.filterMap Member.method?)))
    (looks_seesNone _) (sound_member hn) .noMember ?_
  rintro (f | r) ms ts a b rest blank first others
  · exact .field blank first others
  · exact .method blank first others

private theorem built_classBody (hn : Sound (fun s => Builds mode (.statement s)) nested)
    {ts a b c rest : List Token} {u v w : Unit} {ms : List Member} (stream : Stream ts)
    (hend : terminator mode ts = (.ok u, a)) (hskip : skipNewlines a = (.ok v, b))
    (hms : itemsWhile (seesNone ["end"]) (member mode nested) b = (.ok ms, c))
    (hclose : closing mode c = (.ok w, rest)) :
    ∃ x e y, LineEnd mode ts x ∧
      Builds mode (.members (ms.filterMap Member.field?) (ms.filterMap Member.method?)) x
        (e :: y) ∧
      e.spells "end" ∧ LineEnd mode y rest ∧ Stream rest := by
  obtain ⟨ended, sa⟩ := sound_terminator mode stream hend
  obtain ⟨built, sc⟩ := sound_members hn sa (bind_eq_ok.mpr ⟨v, b, hskip, hms⟩)
  obtain ⟨⟨e, y, rfl, closed, closeEnded⟩, srest⟩ := sound_closing mode sc hclose
  exact ⟨a, e, y, ended, built, closed, closeEnded, srest⟩

private theorem sound_classDeclaration (hn : Sound (fun s => Builds mode (.statement s)) nested) :
    Sound (fun d => Builds mode (.statement (.classDecl d))) (classDeclaration mode nested) := by
  intro ts d rest stream h
  obtain ⟨c, a, rfl⟩ := stream.exists_cons
  rw [classDeclaration, here_bind] at h
  simp only [bind_eq_ok, discard_eq_ok] at h
  obtain ⟨_, b, ⟨c, hc⟩, name, f, hname, seen, g, hseen, h⟩ := h
  obtain ⟨⟨same, spelled⟩, sb⟩ := sound_expect "class" (by decide) stream hc
  obtain ⟨rfl, rfl⟩ := List.cons.inj same
  obtain ⟨⟨rfl, kind⟩, sf⟩ := sound_expectIdentifier _ sb hname
  obtain ⟨i, k, rfl⟩ := sf.exists_cons
  cases hseen
  split at h
  · rename_i implements
    have notEnd := sf.regular.more_of_spells implements
    rw [advance_bind notEnd] at h
    simp only [bind_eq_ok, map_eq_ok, pure_eq_ok] at h
    obtain ⟨_, _, ⟨_, ⟨face, hface, rfl⟩, rfl⟩, _, _, hend, _, _, hskip, ms, _, hms, _, _, hclose,
      rfl, rfl⟩ := h
    obtain ⟨⟨rfl, faceKind⟩, sk⟩ := sound_expectIdentifier _ (sf.tail notEnd) hface
    obtain ⟨x, e, y, ended, built, closed, closeEnded, srest⟩ :=
      built_classBody hn sk hend hskip hms hclose
    exact ⟨.classDecl spelled kind (.some implements faceKind) ended built closed closeEnded,
      srest⟩
  · simp only [bind_eq_ok, pure_eq_ok] at h
    obtain ⟨_, _, ⟨rfl, rfl⟩, _, _, hend, _, _, hskip, ms, _, hms, _, _, hclose, rfl, rfl⟩ := h
    obtain ⟨x, e, y, ended, built, closed, closeEnded, srest⟩ :=
      built_classBody hn sf hend hskip hms hclose
    exact ⟨.classDecl spelled kind .none ended built closed closeEnded, srest⟩

private theorem sound_signatures (mode : Terminators) :
    Sound (fun ms => Signatures mode ms) (skipNewlines >>= fun _ =>
      itemsWhile (seesNone ["end"]) do
        let m ← methodSignature mode
        skipNewlines
        return m) := by
  refine sound_separated (R := fun m => Heads mode m) (S := fun ms => Signatures mode ms)
    (looks_seesNone _) ?_ .none .more
  intro ts m rest stream h
  simp only [bind_eq_ok, pure_eq_ok] at h
  obtain ⟨m, a, hm, _, b, hskip, rfl, rfl⟩ := h
  obtain ⟨headed, sa⟩ := sound_signature mode _ stream hm
  obtain ⟨blank, sb⟩ := sound_skipNewlines sa hskip
  exact ⟨⟨a, headed, blank⟩, sb⟩

private theorem sound_interfaceDeclaration (mode : Terminators) :
    Sound (fun d => Builds mode (.statement (.interfaceDecl d))) (interfaceDeclaration mode) := by
  intro ts d rest stream h
  obtain ⟨c, a, rfl⟩ := stream.exists_cons
  rw [interfaceDeclaration, here_bind] at h
  simp only [bind_eq_ok, discard_eq_ok] at h
  obtain ⟨_, b, ⟨i, hi⟩, name, f, hname, _, g, hend, _, k, hskip, ms, l, hms, _, m, hclose, h⟩ := h
  obtain ⟨⟨same, spelled⟩, sb⟩ := sound_expect "interface" (by decide) stream hi
  obtain ⟨rfl, rfl⟩ := List.cons.inj same
  obtain ⟨⟨rfl, kind⟩, sf⟩ := sound_expectIdentifier _ sb hname
  obtain ⟨ended, sg⟩ := sound_terminator mode sf hend
  obtain ⟨listed, sl⟩ := sound_signatures mode sg (bind_eq_ok.mpr ⟨_, k, hskip, hms⟩)
  obtain ⟨⟨e, y, rfl, closed, closeEnded⟩, srest⟩ := sound_closing mode sl hclose
  obtain ⟨rfl, rfl⟩ := pure_eq_ok.mp h
  exact ⟨.interfaceDecl spelled kind ended listed closed closeEnded, srest⟩

private theorem sound_variableDeclaration (mode : Terminators) {t : Token} {a rest : List Token}
    {s : Stmt} (stream : Stream (t :: a)) (class' : t.kind = .identifier → isCapitalized t)
    (h : variableDeclaration mode (t :: a) = (.ok s, rest)) :
    Builds mode (.statement s) (t :: a) rest ∧ Stream rest := by
  rw [variableDeclaration, here_bind] at h
  simp only [bind_eq_ok, discard_eq_ok] at h
  obtain ⟨r, b, hr, name, c, hname, _, d, ⟨q, hq⟩, value, e, hvalue, _, f, hend, h⟩ := h
  obtain ⟨⟨t, type, same, found, rfl⟩, sb⟩ := sound_typeRef stream hr
  obtain ⟨rfl, rfl⟩ := List.cons.inj same
  obtain ⟨⟨rfl, kind⟩, sc⟩ := sound_expectIdentifier _ sb hname
  obtain ⟨⟨rfl, spelled⟩, sd⟩ := sound_expect "=" (by decide) sc hq
  obtain ⟨derived, se⟩ := sound_expression sd hvalue
  obtain ⟨ended, sf⟩ := sound_terminator mode se hend
  obtain ⟨rfl, rfl⟩ := pure_eq_ok.mp h
  exact ⟨.declaration found class' kind spelled derived ended, sf⟩

private theorem sound_expressionStatement (mode : Terminators) {t : Token} {a rest : List Token}
    {s : Stmt} (stream : Stream (t :: a)) (free : ¬ DeclaresObject (t :: a))
    (h : expressionStatement mode (t :: a) = (.ok s, rest)) :
    Builds mode (.statement s) (t :: a) rest ∧ Stream rest := by
  rw [expressionStatement, here_bind, bind_eq_ok] at h
  obtain ⟨e, b, he, h⟩ := h
  obtain ⟨derived, sb⟩ := sound_expression stream he
  obtain ⟨q, c, rfl⟩ := sb.exists_cons
  rw [sees_bind] at h
  split at h
  · rename_i spelled
    have notEnd := sb.regular.more_of_spells spelled
    rw [advance_bind notEnd] at h
    simp only [bind_eq_ok, pure_eq_ok] at h
    obtain ⟨value, d, hvalue, _, f, hend, rfl, rfl⟩ := h
    obtain ⟨assigned, sd⟩ := sound_expression (sb.tail notEnd) hvalue
    obtain ⟨ended, sf⟩ := sound_terminator mode sd hend
    exact ⟨.assignment free derived spelled assigned ended, sf⟩
  · simp only [bind_eq_ok, pure_eq_ok] at h
    obtain ⟨_, d, hend, rfl, rfl⟩ := h
    obtain ⟨ended, sd⟩ := sound_terminator mode sb hend
    exact ⟨.expression free derived ended, sd⟩

/-- A statement that begins with none of the reserved words is a declaration of a class variable,
an assignment or an expression. -/
private theorem sound_unreserved (mode : Terminators) {t : Token} {a rest : List Token} {s : Stmt}
    (stream : Stream (t :: a))
    (h : (do if ← seesClassVariable then variableDeclaration mode else expressionStatement mode :
      Reading Stmt) (t :: a) = (.ok s, rest)) :
    Builds mode (.statement s) (t :: a) rest ∧ Stream rest := by
  obtain ⟨declares, look, meaning⟩ := seesClassVariable_cons stream
  rw [bind_apply_ok look] at h
  cases declares with
  | true =>
    have object : DeclaresObject (t :: a) := meaning.mp rfl
    obtain ⟨u, b, rfl⟩ := (stream.tail (more_of_declaresObject object)).exists_cons
    exact sound_variableDeclaration mode stream (fun _ => object.2.1) h
  | false =>
    have free : ¬ DeclaresObject (t :: a) := fun object => Bool.noConfusion (meaning.mpr object)
    exact sound_expressionStatement mode stream free h

private theorem sound_statementWith (hn : Sound (fun s => Builds mode (.statement s)) nested) :
    Sound (fun s => Builds mode (.statement s)) (statementWith mode nested) := by
  intro ts s rest stream h
  obtain ⟨t, a, rfl⟩ := stream.exists_cons
  unfold statementWith at h
  rw [current_bind] at h
  -- The reserved word in front decides; every other token leaves it to what comes behind.
  cases kind : t.kind with
  | word tag =>
    have named : t.kind ≠ .identifier := by simp [kind]
    by_cases int : tag = "Int"
    · subst int
      simp only [kind] at h
      exact sound_variableDeclaration mode stream (fun name => absurd name named) h
    by_cases string : tag = "String"
    · subst string
      simp only [kind] at h
      exact sound_variableDeclaration mode stream (fun name => absurd name named) h
    by_cases void : tag = "void"
    · subst void
      simp only [kind] at h
      exact sound_variableDeclaration mode stream (fun name => absurd name named) h
    by_cases definition : tag = "def"
    · subst definition
      simp only [kind] at h
      obtain ⟨r, hr, rfl⟩ := map_eq_ok.mp h
      obtain ⟨built, srest⟩ := sound_routine hn _ stream hr
      exact ⟨.function built, srest⟩
    by_cases condition : tag = "if"
    · subst condition
      simp only [kind] at h
      exact sound_conditional hn stream h
    by_cases declaration : tag = "class"
    · subst declaration
      simp only [kind] at h
      obtain ⟨d, hd, rfl⟩ := map_eq_ok.mp h
      exact sound_classDeclaration hn stream hd
    by_cases interface : tag = "interface"
    · subst interface
      simp only [kind] at h
      obtain ⟨d, hd, rfl⟩ := map_eq_ok.mp h
      exact sound_interfaceDeclaration mode stream hd
    simp only [kind, Kind.word.injEq, int, string, void, definition, condition, declaration,
      interface, imp_self] at h
    exact sound_unreserved mode stream h
  | _ =>
    simp only [kind] at h
    exact sound_unreserved mode stream h

end Nested

private theorem sound_statementWithin (mode : Terminators) (n : Nat) :
    Sound (fun s => Builds mode (.statement s)) (statementWithin mode n) := by
  induction n with
  | zero =>
    intro ts s rest stream h
    cases h
  | succ n ih => exact fun stream h => sound_statementWith ih stream h

private theorem sound_statement (mode : Terminators) :
    Sound (fun s => Builds mode (.statement s)) (statement mode) :=
  fun stream h => sound_statementWithin mode _ stream h

/-- What is accepted as a program is one, up to the end mark. -/
theorem derived_of_program {mode : Terminators} {tokens : List Token} {p : Program}
    (stream : Stream tokens) (h : Program.ofTokens mode tokens = .ok p) :
    p.Derived mode tokens := by
  have run : program mode tokens = (.ok p, (program mode tokens).2) := Prod.ext h rfl
  simp only [program, bind_eq_ok, pure_eq_ok] at run
  obtain ⟨body, rest, hbody, rfl, -⟩ := run
  obtain ⟨built, srest⟩ := sound_statements (looks_seesNone []) (sound_statement mode) stream hbody
  obtain ⟨_, mid, -, hitems⟩ := bind_eq_ok.mp hbody
  have stop := stopped_itemsWhile (looks_seesNone []) hitems
  obtain ⟨last, more, rfl⟩ := srest.exists_cons
  have atEnd : last.kind = .endOfInput := by
    simpa [seesNone, current_bind] using stop
  obtain rfl := srest.eq_nil_of_endOfInput atEnd
  exact ⟨last, atEnd, built⟩

end Grammar

end Soundness

/-! ## Recognition

The readings of the grammar and its rules agree: a program is read from the tokens of a source text
exactly if the rules derive it from them. So each token list has at most one derivation, although
several rules may fit it locally.
-/

namespace Program

variable {mode : Terminators} {source : String} {tokens : List Token} {p q : Program}

theorem ofTokens_eq_ok_iff (stream : Stream tokens) :
    ofTokens mode tokens = .ok p ↔ p.Derived mode tokens :=
  ⟨Grammar.derived_of_program stream, Grammar.program_of_derived stream⟩

theorem ofSource_eq_ok_iff :
    ofSource mode source = .ok p ↔
      ∃ tokens, tokenize source = .ok tokens ∧ ofTokens mode tokens = .ok p := by
  unfold ofSource
  rcases tokenize source with e | tokens
  · simp
  · rcases parsed : ofTokens mode tokens with failure | q <;> simp [parsed]

theorem Derived.unique (stream : Stream tokens) (hp : p.Derived mode tokens)
    (hq : q.Derived mode tokens) : p = q := by
  have accepted := (ofTokens_eq_ok_iff stream).mpr hp
  rw [(ofTokens_eq_ok_iff stream).mpr hq] at accepted
  exact (Except.ok.inj accepted).symm

/-- With strict terminators, the tokens of a source text are accepted as a program exactly if the
grammar derives the program from them. -/
theorem ofTokens_strict_eq_ok_iff_derived (source : String) (tokens : List Token)
    (h : tokenize source = .ok tokens) (p : Program) :
    ofTokens .strict tokens = .ok p ↔ p.Derived .strict tokens :=
  ofTokens_eq_ok_iff (stream_of_tokenize h)

theorem derived_of_left_associative_source :
    ∃ tokens, tokenize "1 == 2 - 3 - 4\n(5)" = .ok tokens ∧
      Derived .strict ⟨[
        .expression ⟨1, 1⟩ (.binary ⟨1, 1⟩ .equal (.integer ⟨1, 1⟩ 1)
          (.binary ⟨1, 6⟩ .subtract
            (.binary ⟨1, 6⟩ .subtract (.integer ⟨1, 6⟩ 2) (.integer ⟨1, 10⟩ 3))
            (.integer ⟨1, 14⟩ 4))),
        .expression ⟨2, 1⟩ (.integer ⟨2, 2⟩ 5)]⟩ tokens := by
  have tokenized : tokenize "1 == 2 - 3 - 4\n(5)" = .ok [
      ⟨.integer, "1", ⟨1, 1⟩⟩, ⟨.operator, "==", ⟨1, 3⟩⟩, ⟨.integer, "2", ⟨1, 6⟩⟩,
      ⟨.operator, "-", ⟨1, 8⟩⟩, ⟨.integer, "3", ⟨1, 10⟩⟩, ⟨.operator, "-", ⟨1, 12⟩⟩,
      ⟨.integer, "4", ⟨1, 14⟩⟩, ⟨.newline, "\n", ⟨1, 15⟩⟩, ⟨.operator, "(", ⟨2, 1⟩⟩,
      ⟨.integer, "5", ⟨2, 2⟩⟩, ⟨.operator, ")", ⟨2, 3⟩⟩, ⟨.endOfInput, "", ⟨2, 4⟩⟩] := by
    show tokensFrom .first ['1', ' ', '=', '=', ' ', '2', ' ', '-', ' ', '3', ' ', '-', ' ', '4',
      '\n', '(', '5', ')'] = _
    iterate 17 refine tokensFrom_cons rfl rfl ?_
    exact tokensFrom_nil _
  exact ⟨_, tokenized, (ofTokens_strict_eq_ok_iff_derived _ _ tokenized _).mp rfl⟩

end Program

end ScriptLang
