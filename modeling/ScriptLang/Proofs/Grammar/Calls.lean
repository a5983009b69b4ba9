import ScriptLang.Proofs.Grammar.Follow
import ScriptLang.Proofs.Program.Arguments

/-!
Calls, counted on the tokens. Wherever an identifier stands right before a parenthesis, the grammar
reads a call or the head of a function or method, unless the identifier names a type; and it reads
them nowhere else. So the tokens alone say how many of them a program has.
-/

set_option autoImplicit false
set_option relaxedAutoImplicit false

namespace ScriptLang

namespace Grammar

instance : DecidablePred Opens
  | [] => inferInstanceAs (Decidable False)
  | t :: _ => inferInstanceAs (Decidable (t.spells "("))

def typeMarks : List String :=
  ["->", ":"]

theorem sign_not_mem_typeMarks {operator : Operator} (known : operator.precedence ≠ 0) :
    operator.sign ∉ typeMarks := by
  have apart : ∀ sign ∈ Operator.signs, sign ∉ typeMarks := by decide
  exact apart _ (Operator.sign_mem_signs known)

def introducesType (t : Token) : Bool :=
  t.kind = .operator && typeMarks.contains t.text

/-- How many identifiers stand right before a parenthesis and do not name a type; `typed` says
whether the first token of the list names one. -/
def callHeads (typed : Bool) : List Token → Nat
  | [] => 0
  | t :: ts => (if t.kind = .identifier ∧ ¬ typed ∧ Opens ts then 1 else 0) +
      callHeads (introducesType t) ts

section Tokens

variable {t : Token} {ts : List Token} {typed : Bool}

theorem introducesType_of_kind (other : t.kind ≠ .operator) : introducesType t = false := by
  simp [introducesType, other]

private theorem introducesType_of_spells {sign : String} (spelled : t.spells sign)
    (plain : sign ∉ typeMarks) : introducesType t = false := by
  simp [introducesType, (Token.spells_iff.mp spelled).1, plain]

theorem callHeads_other (other : t.kind ≠ .identifier) :
    callHeads typed (t :: ts) = callHeads (introducesType t) ts := by
  rw [callHeads, if_neg (fun h => other h.1), Nat.zero_add]

theorem callHeads_sign {sign : String} (spelled : t.spells sign) (plain : sign ∉ typeMarks) :
    callHeads typed (t :: ts) = callHeads false ts := by
  rw [callHeads_other (Token.spells_iff.mp spelled).2.2, introducesType_of_spells spelled plain]

theorem callHeads_name (kind : t.kind = .identifier) (opens : Opens ts) :
    callHeads false (t :: ts) = 1 + callHeads false ts := by
  rw [callHeads, if_pos ⟨kind, Bool.false_ne_true, opens⟩, introducesType_of_kind (by simp [kind])]

theorem callHeads_closed (other : t.kind ≠ .operator) (closed : ¬ Opens ts) :
    callHeads typed (t :: ts) = callHeads false ts := by
  rw [callHeads, if_neg (fun h => closed h.2.2), introducesType_of_kind other, Nat.zero_add]

theorem callHeads_typed : callHeads true (t :: ts) = callHeads (introducesType t) ts := by
  rw [callHeads, if_neg (fun h => h.2.1 rfl), Nat.zero_add]

theorem not_opens_of_identifier (kind : t.kind = .identifier) : ¬ Opens (t :: ts) := by
  simp [Opens, Token.spells, kind]

private theorem not_opens_of_spells {sign : String} (spelled : t.spells sign)
    (other : sign ≠ "(") : ¬ Opens (t :: ts) :=
  fun opens => other (Token.eq_of_spells spelled opens)

private theorem not_opens_of_regular (regular : t.Regular) (other : t.kind ≠ .operator) :
    ¬ Opens (t :: ts) :=
  fun opens => other (regular.kind_of_spells_operator (by decide) opens)

end Tokens

namespace Phrase

def given : Phrase → Nat
  | accesses a _ | operands _ a _ => a.argumentLists.length
  | _ => 0

def made : Phrase → Nat
  | atom e | accesses _ e | operands _ _ e | expression _ e => e.argumentLists.length
  | items args | arguments args => (innerArgumentLists args).length

end Phrase

private theorem Derives.callHeads_eq {phrase : Phrase} {ts rest : List Token}
    (h : Derives phrase ts rest) :
    callHeads false ts + phrase.given = callHeads false rest + phrase.made := by
  induction h with
  | integer kind | string kind | template kind =>
    rw [callHeads_other (by simp [kind]), introducesType_of_kind (by simp [kind])]
    rfl
  | identifier kind closed =>
    rw [callHeads_closed (by simp [kind]) closed]
    rfl
  | functionCall kind called ih =>
    rw [callHeads_name kind called.opens]
    simp only [Phrase.given, Phrase.made, Expr.argumentLists, List.length_cons] at ih ⊢
    omega
  | group opening _ closing ih =>
    rw [callHeads_sign opening (by decide)]
    rw [callHeads_sign closing (by decide)] at ih
    exact ih
  | noAccess | noOperand | noItem => rfl
  | fieldAccess dot kind closed _ ih =>
    rw [callHeads_sign dot (by decide), callHeads_closed (by simp [kind]) closed]
    exact ih
  | methodCall dot kind _ called _ ihArgs ih =>
    rw [callHeads_sign dot (by decide), callHeads_name kind called.opens]
    simp only [Phrase.given, Phrase.made, Expr.argumentLists, List.length_append,
      List.length_cons] at ihArgs ih ⊢
    omega
  | creation dot kind _ called _ ihArgs ih =>
    rw [callHeads_sign dot (by decide), callHeads_name kind called.opens]
    simp only [Phrase.given, Phrase.made, Expr.argumentLists, List.length_nil,
      List.length_cons] at ihArgs ih ⊢
    omega
  | operand positive precedence spelled _ _ ihRight ih =>
    rw [callHeads_sign spelled (sign_not_mem_typeMarks (by omega))]
    simp only [Phrase.given, Phrase.made, Expr.argumentLists, List.length_append] at ihRight ih ⊢
    omega
  | primary _ _ ihFirst ih | operation _ _ _ _ ihFirst ih =>
    simp only [Phrase.given, Phrase.made] at ihFirst ih ⊢
    omega
  | item _ _ ihFirst ih =>
    simp only [Phrase.given, Phrase.made, innerArgumentLists, List.length_append] at ihFirst ih ⊢
    omega
  | arguments opening _ closing ih =>
    rw [callHeads_sign opening (by decide)]
    rw [callHeads_sign closing (by decide)] at ih
    exact ih

private theorem Newlines.callHeads_eq {ts rest : List Token} (h : Newlines ts rest) :
    callHeads false ts = callHeads false rest := by
  induction h with
  | none => rfl
  | more newline _ ih =>
    rw [callHeads_other (by simp [newline]), introducesType_of_kind (by simp [newline]), ih]

private theorem LineEnd.callHeads_eq {mode : Terminators} {ts rest : List Token}
    (h : LineEnd mode ts rest) : callHeads false ts = callHeads false rest := by
  cases h with
  | newline kind => rw [callHeads_other (by simp [kind]), introducesType_of_kind (by simp [kind])]
  | endOfInput | missing => rfl

private theorem LineEnd.not_opens {mode : Terminators} {ts rest : List Token}
    (h : LineEnd mode ts rest) (stream : Stream ts) (follow : ¬ Opens rest) : ¬ Opens ts := by
  cases h with
  | newline kind => exact not_opens_of_regular stream.regular (by simp [kind])
  | endOfInput | missing => exact follow

private theorem kind_of_typeOf? {t : Token} {type : Ty} (h : typeOf? t = some type) :
    t.kind ≠ .operator := by
  rcases cases_of_typeOf? h with ⟨kind, -⟩ | ⟨kind, -⟩ | ⟨kind, -⟩ | ⟨kind, -⟩ <;> simp [kind]

/-- Strays hold no identifier. What they leave before the next token means nothing to it, since no
parenthesis that opens follows the name of a parameter. -/
private theorem callHeads_strays {ts rest : List Token} (h : Run (isStray ·) ts rest)
    (typed : Bool) : ∃ typed', callHeads typed ts = callHeads typed' rest := by
  induction h generalizing typed with
  | none => exact ⟨typed, rfl⟩
  | @more t ts rest stray _ ih =>
    have other : t.kind ≠ .identifier := by
      intro kind
      simp [isStray, kind] at stray
    rw [callHeads_other other]
    exact ih _

private theorem Parameters.callHeads_eq {ps : List Param} {ts rest : List Token}
    (h : Parameters ps ts rest) (stream : Stream ts) (typed : Bool) :
    callHeads typed ts = callHeads false rest := by
  induction h generalizing typed with
  | none closing => exact callHeads_sign closing (by decide)
  | @param name colon t type ts mid rest ps kind spelled found strays others ih =>
    have after := stream.tail (by simp [kind])
    have operator := after.regular.kind_of_spells_operator (by decide) spelled
    have typing : introducesType colon := by
      simp [introducesType, typeMarks, operator, (Token.spells_iff.mp spelled).1]
    have leaves := (leaves_type found).trans (strays.leaves fun _ => more_of_isStray)
    have streamMid := (leaves (after.tail (after.regular.more_of_spells spelled))).1
    obtain ⟨typed', passed⟩ := callHeads_strays strays (introducesType t)
    rw [callHeads_closed (by simp [kind]) (not_opens_of_spells spelled (by decide)),
      callHeads_other (by simp [operator]), typing, callHeads_typed, passed]
    exact ih streamMid typed'

private theorem Heads.callHeads_eq {mode : Terminators} {s : Signature} {ts rest : List Token}
    (h : Heads mode s ts rest) (stream : Stream ts) :
    callHeads false ts = callHeads false rest + 1 := by
  cases h with
  | @head d name p separator t type ts mid rest ps spelled kind opening params operator text found
      ended =>
    have streamParams := (((leaves_sign spelled).trans ((leaves_name kind).trans
      (leaves_sign opening))) stream).1
    have typing : introducesType separator := by
      simpa [introducesType, typeMarks, operator] using text
    have opens : Opens (p :: ts) := opening
    rw [callHeads_sign spelled (by decide), callHeads_name kind opens,
      callHeads_sign opening (by decide), params.callHeads_eq streamParams false,
      callHeads_other (by simp [operator]), typing,
      callHeads_typed, introducesType_of_kind (kind_of_typeOf? found), ended.callHeads_eq,
      Nat.add_comm]

private theorem Signatures.callHeads_eq {mode : Terminators} {ss : List Signature}
    {ts rest : List Token} (h : Signatures mode ss ts rest) (stream : Stream ts) :
    callHeads false ts = callHeads false rest + ss.length := by
  induction h with
  | none blank => exact Newlines.callHeads_eq blank
  | more blank first _ ih =>
    have after := (Newlines.leaves blank stream).1
    rw [Newlines.callHeads_eq blank, first.callHeads_eq after, ih (first.leaves after).1,
      List.length_cons, Nat.add_assoc]

private theorem Newlines.not_opens {ts rest : List Token} (h : Newlines ts rest)
    (stream : Stream ts) (follow : ¬ Opens rest) : ¬ Opens ts := by
  cases h with
  | none => exact follow
  | more newline _ => exact not_opens_of_regular stream.regular (by simp [newline])

private theorem Heads.not_opens {mode : Terminators} {s : Signature} {ts rest : List Token}
    (h : Heads mode s ts rest) : ¬ Opens ts := by
  cases h with
  | head spelled => exact not_opens_of_spells spelled (by decide)

private theorem Signatures.not_opens {mode : Terminators} {ss : List Signature}
    {ts rest : List Token} (h : Signatures mode ss ts rest) (stream : Stream ts)
    (follow : ¬ Opens rest) : ¬ Opens ts := by
  cases h with
  | none blank => exact Newlines.not_opens blank stream follow
  | more blank first _ => exact Newlines.not_opens blank stream first.not_opens

private theorem Builds.not_opens_members {mode : Terminators} {fields : List Field}
    {methods : List Routine} {ts rest : List Token}
    (h : Builds mode (.members fields methods) ts rest) (stream : Stream ts)
    (follow : ¬ Opens rest) : ¬ Opens ts := by
  cases h with
  | noMember blank => exact Newlines.not_opens blank stream follow
  | field blank first _ =>
    have after := (Newlines.leaves blank stream).1
    cases first with
    | field found =>
      exact Newlines.not_opens blank stream
        (not_opens_of_regular after.regular (kind_of_typeOf? found))
  | method blank first _ =>
    cases first with
    | routine head => exact Newlines.not_opens blank stream head.not_opens

private theorem Fields.callHeads_eq {mode : Terminators} {d : Field} {ts rest : List Token}
    (h : Fields mode d ts rest) (stream : Stream ts) (follow : ¬ Opens rest) :
    callHeads false ts = callHeads false rest := by
  cases h with
  | field found kind ended =>
    have streamEnd := (((leaves_type found).trans (leaves_name kind)) stream).1
    have closed := ended.not_opens streamEnd follow
    rw [callHeads_closed (kind_of_typeOf? found) (not_opens_of_identifier kind),
      callHeads_closed (by simp [kind]) closed, ended.callHeads_eq]

def Construct.made : Construct → Nat
  | .statement s => s.argumentLists.length + s.headCount
  | .block body => (blockArgumentLists body).length + blockHeadCount body
  | .routine r => r.argumentLists.length + r.headCount
  | .members _ methods => (methodArgumentLists methods).length + methodHeadCount methods

/-- Whether a construct may stand before a list: no parenthesis opens right after members. -/
def Construct.Precedes : Construct → List Token → Prop
  | .members _ _, rest => ¬ Opens rest
  | _, _ => True

theorem Builds.callHeads_eq {mode : Terminators} {construct : Construct} {ts rest : List Token}
    (h : Builds mode construct ts rest) (stream : Stream ts) (follow : construct.Precedes rest) :
    callHeads false ts = callHeads false rest + construct.made := by
  induction h with
  | declaration found _ kind spelled value ended =>
    have derived := value.callHeads_eq
    rw [callHeads_closed (kind_of_typeOf? found) (not_opens_of_identifier kind),
      callHeads_closed (by simp [kind]) (not_opens_of_spells spelled (by decide)),
      callHeads_sign spelled (by decide)]
    simp only [Phrase.given, Phrase.made, Construct.made, Stmt.argumentLists, Stmt.headCount,
      ended.callHeads_eq] at derived ⊢
    omega
  | function _ ih => exact ih stream trivial
  | conditional spelled first ended built closed closeEnded ih =>
    have derived := first.callHeads_eq
    have streamBody := (((leaves_sign spelled).trans (first.leaves.trans ended.leaves)) stream).1
    have body := ih streamBody trivial
    rw [callHeads_sign closed (by decide), closeEnded.callHeads_eq] at body
    rw [callHeads_sign spelled (by decide)]
    simp only [Phrase.given, Phrase.made, Construct.made, Stmt.argumentLists, Stmt.headCount,
      elseArgumentLists, elseHeadCount, List.length_append, List.length_nil,
      ended.callHeads_eq] at derived body ⊢
    omega
  | alternative spelled first ended built other otherEnded otherBuilt closed closeEnded ihThen
      ihElse =>
    have derived := first.callHeads_eq
    have toThen := (leaves_sign spelled).trans (first.leaves.trans ended.leaves)
    have toElse := built.leaves.trans ((leaves_sign other).trans otherEnded.leaves)
    have thenBody := ihThen (toThen stream).1 trivial
    have elseBody := ihElse (toElse (toThen stream).1).1 trivial
    rw [callHeads_sign other (by decide), otherEnded.callHeads_eq] at thenBody
    rw [callHeads_sign closed (by decide), closeEnded.callHeads_eq] at elseBody
    rw [callHeads_sign spelled (by decide)]
    simp only [Phrase.given, Phrase.made, Construct.made, Stmt.argumentLists, Stmt.headCount,
      elseArgumentLists, elseHeadCount, List.length_append,
      ended.callHeads_eq] at derived thenBody elseBody ⊢
    omega
  | @classDecl c name e ts a b d rest face fields methods spelled kind implements ended built closed
      closeEnded ih =>
    have streamFace := (((leaves_sign spelled).trans (leaves_name kind)) stream).1
    have streamEnd := (implements.leaves streamFace).1
    have streamBody := (ended.leaves streamEnd).1
    have shut : ¬ Opens (e :: d) := not_opens_of_spells closed (by decide)
    have body := ih streamBody shut
    have apart := ended.not_opens streamEnd (built.not_opens_members streamBody shut)
    rw [callHeads_sign closed (by decide), closeEnded.callHeads_eq] at body
    have face : ¬ Opens ts ∧ callHeads false ts = callHeads false a := by
      cases implements with
      | none => exact ⟨apart, rfl⟩
      | some spelled kind =>
        refine ⟨not_opens_of_spells spelled (by decide), ?_⟩
        rw [callHeads_sign spelled (by decide), callHeads_closed (by simp [kind]) apart]
    rw [callHeads_sign spelled (by decide), callHeads_closed (by simp [kind]) face.1, face.2,
      ended.callHeads_eq, body]
    rfl
  | @interfaceDecl i name e ts a b rest methods spelled kind ended listed closed closeEnded =>
    have streamEnd := (((leaves_sign spelled).trans (leaves_name kind)) stream).1
    have streamBody := (ended.leaves streamEnd).1
    have shut : ¬ Opens (e :: b) := not_opens_of_spells closed (by decide)
    have apart := ended.not_opens streamEnd (listed.not_opens streamBody shut)
    have body := listed.callHeads_eq streamBody
    rw [callHeads_sign closed (by decide), closeEnded.callHeads_eq] at body
    rw [callHeads_sign spelled (by decide), callHeads_closed (by simp [kind]) apart,
      ended.callHeads_eq, body]
    simp [Construct.made, Stmt.argumentLists, Stmt.headCount]
  | assignment _ target spelled value ended =>
    have first := target.callHeads_eq
    have second := value.callHeads_eq
    rw [callHeads_sign spelled (by decide)] at first
    simp only [Phrase.given, Phrase.made, Construct.made, Stmt.argumentLists, Stmt.headCount,
      List.length_append, ended.callHeads_eq] at first second ⊢
    omega
  | expression _ e ended =>
    have derived := e.callHeads_eq
    simp only [Phrase.given, Phrase.made, Construct.made, Stmt.argumentLists, Stmt.headCount,
      ended.callHeads_eq] at derived ⊢
    omega
  | routine head built closed closeEnded ih =>
    have body := ih (head.leaves stream).1 trivial
    rw [callHeads_sign closed (by decide), closeEnded.callHeads_eq] at body
    rw [head.callHeads_eq stream, body]
    simp only [Construct.made, Routine.argumentLists, Routine.headCount]
    omega
  | noStatement blank | noMember blank => exact Newlines.callHeads_eq blank
  | statement blank first others ihFirst ih =>
    have after := (Newlines.leaves blank stream).1
    rw [Newlines.callHeads_eq blank, ihFirst after trivial, ih (first.leaves after).1 trivial]
    simp only [Construct.made, blockArgumentLists, blockHeadCount, List.length_append]
    omega
  | field blank first others ih =>
    have after := (Newlines.leaves blank stream).1
    have next := (first.leaves after).1
    have apart := others.not_opens_members next follow
    rw [Newlines.callHeads_eq blank, first.callHeads_eq after apart, ih next follow]
    rfl
  | method blank first others ihFirst ih =>
    have after := (Newlines.leaves blank stream).1
    rw [Newlines.callHeads_eq blank, ihFirst after trivial, ih (first.leaves after).1 follow]
    simp only [Construct.made, methodArgumentLists, methodHeadCount, List.length_append]
    omega

end Grammar

end ScriptLang
