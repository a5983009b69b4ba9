import ScriptLang.Proofs.Grammar.Follow

/-!
The rules of the grammar are local. Of what stands behind a construct they look at the next token
at most, so a derivation stays one when the tokens further back are exchanged. A phrase of the
grammar of expressions may even be followed by a different token, unless a parenthesis opens there.
-/

set_option autoImplicit false
set_option relaxedAutoImplicit false

namespace ScriptLang

namespace Grammar

/-- That two lists are the same in front of `final` and `final'`, with which they end. -/
inductive SameUpTo (final final' : List Token) : List Token → List Token → Prop where
  | here : SameUpTo final final' final final'
  | cons (t : Token) {ts ts' : List Token} : SameUpTo final final' ts ts' →
      SameUpTo final final' (t :: ts) (t :: ts')

/-- That a construct which may stand in front of `final` may stand in front of `final'` too: no
parenthesis opens there only, nor does an identifier stand there only. -/
structure Replaces (final final' : List Token) : Prop where
  opens : Opens final' → Opens final
  declares : ∀ t, DeclaresObject (t :: final') → DeclaresObject (t :: final)

theorem replaces_of_head (t : Token) (a b : List Token) : Replaces (t :: a) (t :: b) :=
  ⟨id, fun _ => id⟩

namespace SameUpTo

variable {final final' a b ts ts' : List Token}

theorem trans (outer : SameUpTo final final' a b) (inner : SameUpTo a b ts ts') :
    SameUpTo final final' ts ts' := by
  induction inner with
  | here => exact outer
  | cons t _ ih => exact .cons t ih

theorem exists_append (h : SameUpTo final final' ts ts') :
    ∃ front, ts = front ++ final ∧ ts' = front ++ final' := by
  induction h with
  | here => exact ⟨[], rfl, rfl⟩
  | cons t _ ih =>
    obtain ⟨front, rfl, rfl⟩ := ih
    exact ⟨t :: front, rfl, rfl⟩

private theorem opens (h : SameUpTo final final' ts ts') (replaces : Replaces final final') :
    Opens ts' → Opens ts := by
  cases h with
  | here => exact replaces.opens
  | cons t _ => exact id

theorem declares (h : SameUpTo final final' ts ts') (replaces : Replaces final final') (t : Token) :
    DeclaresObject (t :: ts') → DeclaresObject (t :: ts) := by
  cases h with
  | here => exact replaces.declares t
  | cons u _ => exact id

private theorem exists_head {t : Token} (h : SameUpTo (t :: a) (t :: b) ts ts') :
    ∃ u rest rest', ts = u :: rest ∧ ts' = u :: rest' := by
  cases h with
  | here => exact ⟨t, a, b, rfl, rfl⟩
  | cons u _ => exact ⟨u, _, _, rfl, rfl⟩

private theorem length_le (h : SameUpTo final final' ts ts') : final.length ≤ ts.length := by
  induction h with
  | here => exact le_rfl
  | cons t _ ih => exact ih.trans (Nat.le_succ _)

end SameUpTo

/-- That a judgement about the front of `ts` that leaves a list `rest` passes on to a list which is
the same up to the end, and to any list that is the same as `rest` up to the end. -/
def Transfers (final final' : List Token) (J : List Token → List Token → Prop)
    (ts rest : List Token) : Prop :=
  ∀ {rest'}, SameUpTo final final' rest rest' → ∃ ts', SameUpTo final final' ts ts' ∧ J ts' rest'

variable {final final' ts rest : List Token}

theorem Derives.transfers {phrase : Phrase} (replaces : Replaces final final')
    (h : Derives phrase ts rest) : Transfers final final' (Derives phrase) ts rest := by
  intro rest' same
  induction h generalizing rest' with
  | integer kind => exact ⟨_, .cons _ same, .integer kind⟩
  | string kind unmarked => exact ⟨_, .cons _ same, .string kind unmarked⟩
  | template kind marked => exact ⟨_, .cons _ same, .template kind marked⟩
  | identifier kind closed =>
    exact ⟨_, .cons _ same, .identifier kind fun opens => closed (same.opens replaces opens)⟩
  | functionCall kind _ ih =>
    obtain ⟨ts', before, called⟩ := ih same
    exact ⟨_, .cons _ before, .functionCall kind called⟩
  | group opening _ closing ih =>
    obtain ⟨ts', before, inner⟩ := ih (.cons _ same)
    exact ⟨_, .cons _ before, .group opening inner closing⟩
  | noAccess => exact ⟨_, same, .noAccess⟩
  | fieldAccess dot kind closed _ ih =>
    obtain ⟨ts', before, others⟩ := ih same
    refine ⟨_, .cons _ (.cons _ before), .fieldAccess dot kind ?_ others⟩
    exact fun opens => closed (before.opens replaces opens)
  | methodCall dot kind method _ _ ihArgs ih =>
    obtain ⟨mid', between, others⟩ := ih same
    obtain ⟨ts', before, called⟩ := ihArgs between
    exact ⟨_, .cons _ (.cons _ before), .methodCall dot kind method called others⟩
  | creation dot kind new _ _ ihArgs ih =>
    obtain ⟨mid', between, others⟩ := ih same
    obtain ⟨ts', before, called⟩ := ihArgs between
    exact ⟨_, .cons _ (.cons _ before), .creation dot kind new called others⟩
  | noOperand => exact ⟨_, same, .noOperand⟩
  | operand positive precedence spelled _ _ ihRight ih =>
    obtain ⟨mid', between, others⟩ := ih same
    obtain ⟨ts', before, right⟩ := ihRight between
    exact ⟨_, .cons _ before, .operand positive precedence spelled right others⟩
  | primary _ _ ihFirst ih =>
    obtain ⟨mid', between, others⟩ := ih same
    obtain ⟨ts', before, first⟩ := ihFirst between
    exact ⟨_, before, .primary first others⟩
  | operation positive below _ _ ihFirst ih =>
    obtain ⟨mid', between, others⟩ := ih same
    obtain ⟨ts', before, first⟩ := ihFirst between
    exact ⟨_, before, .operation positive below first others⟩
  | noItem => exact ⟨_, same, .noItem⟩
  | item _ _ ihFirst ih =>
    obtain ⟨mid', between, others⟩ := ih same
    obtain ⟨ts', before, first⟩ := ihFirst between
    exact ⟨_, before, .item first others⟩
  | arguments opening _ closing ih =>
    obtain ⟨ts', before, items⟩ := ih (.cons _ same)
    exact ⟨_, .cons _ before, .arguments opening items closing⟩

theorem Derives.transfers_cons {level : Nat} {e : Expr} {t : Token} {rest' : List Token}
    (replaces : Replaces final final') (h : Derives (.expression level e) (t :: ts) rest)
    (same : SameUpTo final final' rest rest') :
    ∃ ts', SameUpTo final final' ts ts' ∧ Derives (.expression level e) (t :: ts') rest' := by
  have shorter := h.length_add_least_le
  have longer := same.length_le
  obtain ⟨whole, before, derived⟩ := h.transfers replaces same
  cases before with
  | here => exact absurd (shorter.trans longer) (Nat.not_succ_le_self _)
  | cons _ inside => exact ⟨_, inside, derived⟩

theorem Run.transfers {test : Token → Prop} (h : Run test ts rest) :
    Transfers final final' (Run test) ts rest := by
  intro rest' same
  induction h with
  | none => exact ⟨_, same, .none⟩
  | more first _ ih =>
    obtain ⟨ts', before, others⟩ := ih same
    exact ⟨_, .cons _ before, .more first others⟩

theorem Implements.transfers {face : Option String} (h : Implements face ts rest) :
    Transfers final final' (Implements face) ts rest := by
  intro rest' same
  cases h with
  | none => exact ⟨_, same, .none⟩
  | some spelled kind => exact ⟨_, .cons _ (.cons _ same), .some spelled kind⟩

theorem Parameters.transfers {ps : List Param} (h : Parameters ps ts rest) :
    Transfers final final' (Parameters ps) ts rest := by
  intro rest' same
  induction h with
  | none closing => exact ⟨_, .cons _ same, .none closing⟩
  | param kind colon found strays _ ih =>
    obtain ⟨mid', between, others⟩ := ih same
    obtain ⟨ts', before, strays⟩ := strays.transfers between
    exact ⟨_, .cons _ (.cons _ (.cons _ before)), .param kind colon found strays others⟩

section Head

variable {mode : Terminators} {t : Token} {a b : List Token}

theorem LineEnd.transfers (h : LineEnd mode ts rest) :
    Transfers (t :: a) (t :: b) (LineEnd mode) ts rest := by
  intro rest' same
  cases h with
  | newline kind => exact ⟨_, .cons _ same, .newline kind⟩
  | endOfInput kind =>
    obtain ⟨u, _, _, left, rfl⟩ := same.exists_head
    obtain ⟨rfl, rfl⟩ := List.cons.inj left
    exact ⟨_, same, .endOfInput kind⟩
  | missing lenient noBreak notEnd =>
    obtain ⟨u, _, _, left, rfl⟩ := same.exists_head
    obtain ⟨rfl, rfl⟩ := List.cons.inj left
    exact ⟨_, same, .missing lenient noBreak notEnd⟩

theorem Heads.transfers {s : Signature} (h : Heads mode s ts rest) :
    Transfers (t :: a) (t :: b) (Heads mode s) ts rest := by
  intro rest' same
  cases h with
  | head spelled kind opening params operator text found ended =>
    obtain ⟨mid', between, ended⟩ := ended.transfers same
    obtain ⟨ts', before, params⟩ := params.transfers (.cons _ (.cons _ between))
    exact ⟨_, .cons _ (.cons _ (.cons _ before)),
      .head spelled kind opening params operator text found ended⟩

theorem Signatures.transfers {ss : List Signature} (h : Signatures mode ss ts rest) :
    Transfers (t :: a) (t :: b) (Signatures mode ss) ts rest := by
  intro rest' same
  induction h with
  | none blank =>
    obtain ⟨ts', before, blank⟩ := Run.transfers blank same
    exact ⟨_, before, .none blank⟩
  | more blank first _ ih =>
    obtain ⟨c', behind, others⟩ := ih same
    obtain ⟨b', between, first⟩ := first.transfers behind
    obtain ⟨ts', before, blank⟩ := Run.transfers blank between
    exact ⟨_, before, .more blank first others⟩

theorem Fields.transfers {f : Field} (h : Fields mode f ts rest) :
    Transfers (t :: a) (t :: b) (Fields mode f) ts rest := by
  intro rest' same
  cases h with
  | field found kind ended =>
    obtain ⟨ts', before, ended⟩ := ended.transfers same
    exact ⟨_, .cons _ (.cons _ before), .field found kind ended⟩

theorem Builds.transfers {construct : Construct} (h : Builds mode construct ts rest) :
    Transfers (t :: a) (t :: b) (Builds mode construct) ts rest := by
  intro rest' same
  have replaces := replaces_of_head t a b
  -- From the last part to the first: each one hands the changed end to the one before it.
  induction h generalizing rest' with
  | declaration found capital kind spelled value ended =>
    obtain ⟨mid', between, ended⟩ := ended.transfers same
    obtain ⟨ts', before, value⟩ := value.transfers replaces between
    exact ⟨_, .cons _ (.cons _ (.cons _ before)),
      .declaration found capital kind spelled value ended⟩
  | function _ ih =>
    obtain ⟨ts', before, built⟩ := ih same
    exact ⟨_, before, .function built⟩
  | conditional spelled condition ended _ closed closeEnded ih =>
    obtain ⟨c', afterEnd, closeEnded⟩ := closeEnded.transfers same
    obtain ⟨b', afterLine, built⟩ := ih (.cons _ afterEnd)
    obtain ⟨a', afterCondition, ended⟩ := ended.transfers afterLine
    obtain ⟨ts', before, condition⟩ := condition.transfers replaces afterCondition
    exact ⟨_, .cons _ before, .conditional spelled condition ended built closed closeEnded⟩
  | alternative spelled condition ended _ other otherEnded _ closed closeEnded ihThen ihElse =>
    obtain ⟨f', afterEnd, closeEnded⟩ := closeEnded.transfers same
    obtain ⟨d', afterOther, otherBuilt⟩ := ihElse (.cons _ afterEnd)
    obtain ⟨c', between, otherEnded⟩ := otherEnded.transfers afterOther
    obtain ⟨b', afterLine, built⟩ := ihThen (.cons _ between)
    obtain ⟨a', afterCondition, ended⟩ := ended.transfers afterLine
    obtain ⟨ts', before, condition⟩ := condition.transfers replaces afterCondition
    exact ⟨_, .cons _ before,
      .alternative spelled condition ended built other otherEnded otherBuilt closed closeEnded⟩
  | classDecl spelled kind face ended _ closed closeEnded ih =>
    obtain ⟨d', afterEnd, closeEnded⟩ := closeEnded.transfers same
    obtain ⟨b', afterLine, built⟩ := ih (.cons _ afterEnd)
    obtain ⟨a', afterFace, ended⟩ := ended.transfers afterLine
    obtain ⟨ts', before, face⟩ := face.transfers afterFace
    exact ⟨_, .cons _ (.cons _ before),
      .classDecl spelled kind face ended built closed closeEnded⟩
  | interfaceDecl spelled kind ended listed closed closeEnded =>
    obtain ⟨b', afterEnd, closeEnded⟩ := closeEnded.transfers same
    obtain ⟨a', afterLine, listed⟩ := listed.transfers (.cons _ afterEnd)
    obtain ⟨ts', before, ended⟩ := ended.transfers afterLine
    exact ⟨_, .cons _ (.cons _ before),
      .interfaceDecl spelled kind ended listed closed closeEnded⟩
  | assignment free target spelled value ended =>
    obtain ⟨c', behind, ended⟩ := ended.transfers same
    obtain ⟨mid', between, value⟩ := value.transfers replaces behind
    obtain ⟨ts', before, target⟩ := target.transfers_cons replaces (.cons _ between)
    refine ⟨_, .cons _ before, .assignment ?_ target spelled value ended⟩
    exact fun declares => free (before.declares replaces _ declares)
  | expression free e ended =>
    obtain ⟨mid', between, ended⟩ := ended.transfers same
    obtain ⟨ts', before, e⟩ := e.transfers_cons replaces between
    refine ⟨_, .cons _ before, .expression ?_ e ended⟩
    exact fun declares => free (before.declares replaces _ declares)
  | routine headed _ closed closeEnded ih =>
    obtain ⟨b', afterEnd, closeEnded⟩ := closeEnded.transfers same
    obtain ⟨a', afterHead, built⟩ := ih (.cons _ afterEnd)
    obtain ⟨ts', before, headed⟩ := headed.transfers afterHead
    exact ⟨_, before, .routine headed built closed closeEnded⟩
  | noStatement blank =>
    obtain ⟨ts', before, blank⟩ := Run.transfers blank same
    exact ⟨_, before, .noStatement blank⟩
  | noMember blank =>
    obtain ⟨ts', before, blank⟩ := Run.transfers blank same
    exact ⟨_, before, .noMember blank⟩
  | statement blank _ _ ihFirst ih =>
    obtain ⟨c', behind, others⟩ := ih same
    obtain ⟨b', between, first⟩ := ihFirst behind
    obtain ⟨ts', before, blank⟩ := Run.transfers blank between
    exact ⟨_, before, .statement blank first others⟩
  | field blank first _ ih =>
    obtain ⟨c', behind, others⟩ := ih same
    obtain ⟨b', between, first⟩ := first.transfers behind
    obtain ⟨ts', before, blank⟩ := Run.transfers blank between
    exact ⟨_, before, .field blank first others⟩
  | method blank _ _ ihFirst ih =>
    obtain ⟨c', behind, others⟩ := ih same
    obtain ⟨b', between, first⟩ := ihFirst behind
    obtain ⟨ts', before, blank⟩ := Run.transfers blank between
    exact ⟨_, before, .method blank first others⟩

end Head

end Grammar

end ScriptLang
