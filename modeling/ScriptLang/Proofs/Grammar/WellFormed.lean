import ScriptLang.Proofs.Grammar.Follow
import ScriptLang.Proofs.Program.WellFormed

/-!
What the grammar derives from the tokens of a source text is well-formed: its names are texts of
identifiers, its numbers and strings are texts of literals.
-/

set_option autoImplicit false
set_option relaxedAutoImplicit false

namespace ScriptLang

namespace Token.Regular

variable {t : Token}

private theorem isName (h : t.Regular) (kind : t.kind = .identifier) : IsName t.text := by
  simpa [Regular, kind] using h

private theorem value_le (h : t.Regular) (kind : t.kind = .integer) :
    Text.naturalValue t.text.toList ≤ Lexeme.greatestInteger := by
  rw [Regular, kind] at h
  exact h.2.2.2

private theorem unquoted (h : t.Regular) (kind : t.kind = .string) : '"' ∉ t.text.toList := by
  simpa [Regular, kind] using h

private theorem type_wellFormed (h : t.Regular) {type : Ty}
    (found : Grammar.typeOf? t = some type) : type.WellFormed := by
  rcases Grammar.cases_of_typeOf? found with ⟨kind, rfl⟩ | ⟨-, rfl⟩ | ⟨-, rfl⟩ | ⟨-, rfl⟩
  · exact h.isName kind
  · trivial
  · trivial
  · trivial

end Token.Regular

namespace Grammar

/-- Whether what a phrase makes has a spelling, if what it is given has one. -/
def Phrase.WellFormed : Phrase → Prop
  | atom e | expression _ e => e.WellFormed
  | accesses a e | operands _ a e => a.WellFormed → e.WellFormed
  | items args | arguments args => ArgsWellFormed args

private theorem Derives.wellFormed {phrase : Phrase} {ts rest : List Token}
    (h : Derives phrase ts rest) (stream : Stream ts) : phrase.WellFormed := by
  induction h with
  | integer kind =>
    have small := stream.regular.value_le kind
    exact ⟨Int.natCast_nonneg _, by exact_mod_cast small⟩
  | string kind marker | template kind marker => exact ⟨stream.regular.unquoted kind, marker⟩
  | identifier kind => exact stream.regular.isName kind
  | functionCall kind _ ih =>
    exact ⟨stream.regular.isName kind, ih (leaves_name kind stream).1⟩
  | group opening _ _ ih | arguments opening _ _ ih => exact ih (leaves_sign opening stream).1
  | noAccess | noOperand => exact id
  | noItem => trivial
  | fieldAccess dot kind _ _ ih =>
    have member := (leaves_sign dot stream).1
    intro receiver
    exact ih (leaves_name kind member).1 ⟨receiver, member.regular.isName kind⟩
  | methodCall dot kind other called _ ihArgs ih =>
    have member := (leaves_sign dot stream).1
    have inner := (leaves_name kind member).1
    intro receiver
    exact ih (called.leaves inner).1
      ⟨receiver, member.regular.isName kind, other, ihArgs inner⟩
  | creation dot kind _ called _ ihArgs ih =>
    have member := (leaves_sign dot stream).1
    have inner := (leaves_name kind member).1
    intro receiver
    exact ih (called.leaves inner).1 ⟨receiver, ihArgs inner⟩
  | operand positive precedence spelled right _ ihRight ih =>
    have next := (leaves_operator spelled (by omega) stream).1
    intro left
    exact ih (right.leaves next).1 ⟨by omega, left, ihRight next⟩
  | primary first _ ihFirst ih | operation _ _ first _ ihFirst ih =>
    exact ih (first.leaves stream).1 (ihFirst stream)
  | item first _ ihFirst ih => exact ⟨ihFirst stream, ih (first.leaves stream).1⟩

private theorem Parameters.wellFormed {ps : List Param} {ts rest : List Token}
    (h : Parameters ps ts rest) (stream : Stream ts) : ∀ p ∈ ps, p.WellFormed := by
  induction h with
  | none => simp
  | param kind colon found strays _ ih =>
    have type := (((leaves_name kind).trans (leaves_sign colon)) stream).1
    have after := ((leaves_type found).trans (strays.leaves fun _ => more_of_isStray) type).1
    rw [List.forall_mem_cons]
    exact ⟨⟨stream.regular.isName kind, type.regular.type_wellFormed found⟩, ih after⟩

private theorem Heads.wellFormed {mode : Terminators} {s : Signature} {ts rest : List Token}
    (h : Heads mode s ts rest) (stream : Stream ts) : s.WellFormed := by
  cases h with
  | head spelled kind opening params operator _ found ended =>
    have name := (leaves_sign spelled stream).1
    have inner := (((leaves_name kind).trans (leaves_sign opening)) name).1
    have type := ((params.leaves.trans (leaves_kind operator (by decide))) inner).1
    exact ⟨name.regular.isName kind, params.wellFormed inner, type.regular.type_wellFormed found⟩

private theorem Signatures.wellFormed {mode : Terminators} {ss : List Signature}
    {ts rest : List Token} (h : Signatures mode ss ts rest) (stream : Stream ts) :
    ∀ s ∈ ss, s.WellFormed := by
  induction h with
  | none => simp
  | more blank first _ ih =>
    have after := (Newlines.leaves blank stream).1
    rw [List.forall_mem_cons]
    exact ⟨first.wellFormed after, ih (first.leaves after).1⟩

private theorem Fields.wellFormed {mode : Terminators} {d : Field} {ts rest : List Token}
    (h : Fields mode d ts rest) (stream : Stream ts) : d.WellFormed := by
  cases h with
  | field found kind _ =>
    have name := (leaves_type found stream).1
    exact ⟨name.regular.isName kind, stream.regular.type_wellFormed found⟩

private theorem Implements.wellFormed {face : Option String} {ts rest : List Token}
    (h : Implements face ts rest) (stream : Stream ts) : ∀ name ∈ face, IsName name := by
  cases h with
  | none => simp
  | some spelled kind =>
    have name := (leaves_sign spelled stream).1
    simpa using name.regular.isName kind

def Construct.WellFormed : Construct → Prop
  | .statement s => s.WellFormed
  | .block body => BlockWellFormed body
  | .routine r => r.WellFormed
  | .members fields methods => (∀ d ∈ fields, d.WellFormed) ∧ MethodsWellFormed methods

private theorem capitalized_of_typeOf? {t : Token} {type : Ty} (found : typeOf? t = some type)
    (capital : t.kind = .identifier → isCapitalized t) : type.Capitalized := by
  rcases cases_of_typeOf? found with ⟨kind, rfl⟩ | ⟨-, rfl⟩ | ⟨-, rfl⟩ | ⟨-, rfl⟩
  · have upper := capital kind
    unfold isCapitalized at upper
    split at upper
    · rename_i c rest text
      exact ⟨c, rest, text, upper⟩
    · cases upper
  · trivial
  · trivial
  · trivial

private theorem Builds.wellFormed {mode : Terminators} {construct : Construct}
    {ts rest : List Token} (h : Builds mode construct ts rest) (stream : Stream ts) :
    construct.WellFormed := by
  induction h with
  | declaration found capital kind spelled value =>
    have name := (leaves_type found stream).1
    have inner := (((leaves_name kind).trans (leaves_sign spelled)) name).1
    exact ⟨stream.regular.type_wellFormed found, capitalized_of_typeOf? found capital,
      name.regular.isName kind, value.wellFormed inner⟩
  | function _ ih => exact ih stream
  | conditional spelled condition ended _ _ _ ih =>
    have first := (leaves_sign spelled stream).1
    exact ⟨condition.wellFormed first, ih (condition.leaves.trans ended.leaves first).1, trivial⟩
  | alternative spelled condition ended built other otherEnded _ _ _ ihThen ihElse =>
    have first := (leaves_sign spelled stream).1
    have thenBody := (condition.leaves.trans ended.leaves first).1
    have elseBody := (built.leaves.trans ((leaves_sign other).trans otherEnded.leaves) thenBody).1
    exact ⟨condition.wellFormed first, ihThen thenBody, ihElse elseBody⟩
  | classDecl spelled kind face ended _ _ _ ih =>
    have name := (leaves_sign spelled stream).1
    have implements := (leaves_name kind name).1
    have body := (face.leaves.trans ended.leaves implements).1
    exact ⟨name.regular.isName kind, face.wellFormed implements, ih body⟩
  | interfaceDecl spelled kind ended listed =>
    have name := (leaves_sign spelled stream).1
    have body := ((leaves_name kind).trans ended.leaves name).1
    exact ⟨name.regular.isName kind, listed.wellFormed body⟩
  | assignment _ target spelled value =>
    have inner := ((target.leaves.trans (leaves_sign spelled)) stream).1
    exact ⟨target.wellFormed stream, value.wellFormed inner⟩
  | expression _ e => exact e.wellFormed stream
  | routine head _ _ _ ih => exact ⟨head.wellFormed stream, ih (head.leaves stream).1⟩
  | noStatement => trivial
  | statement blank first _ ihFirst ih =>
    have after := (Newlines.leaves blank stream).1
    exact ⟨ihFirst after, ih (first.leaves after).1⟩
  | noMember => exact ⟨by simp, trivial⟩
  | field blank first _ ih =>
    have after := (Newlines.leaves blank stream).1
    obtain ⟨fields, methods⟩ := ih (first.leaves after).1
    exact ⟨List.forall_mem_cons.mpr ⟨first.wellFormed after, fields⟩, methods⟩
  | method blank first _ ihFirst ih =>
    have after := (Newlines.leaves blank stream).1
    obtain ⟨fields, methods⟩ := ih (first.leaves after).1
    exact ⟨fields, ihFirst after, methods⟩

end Grammar

theorem Program.Derived.wellFormed {mode : Terminators} {p : Program} {tokens : List Token}
    (h : p.Derived mode tokens) (stream : Stream tokens) : p.WellFormed := by
  obtain ⟨last, -, built⟩ := h
  exact built.wellFormed stream

end ScriptLang
