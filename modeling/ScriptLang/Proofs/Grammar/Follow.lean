import ScriptLang.Proofs.Grammar.Reading

/-!
How the constructs of the grammar begin and what may follow them. A repetition of the grammar
stops at the first token that cannot continue it; the lemmas here say that whatever the rules put
after a construct is such a token.
-/

set_option autoImplicit false
set_option relaxedAutoImplicit false

namespace ScriptLang

namespace Grammar

open Operator (primaryPrecedence)

def Phrase.least : Phrase → Nat
  | .atom _ | .expression _ _ | .arguments _ => 1
  | .accesses _ _ | .operands _ _ _ | .items _ => 0

theorem Derives.length_add_least_le {phrase : Phrase} {ts rest : List Token}
    (h : Derives phrase ts rest) : rest.length + phrase.least ≤ ts.length := by
  induction h <;> simp only [Phrase.least, List.length_cons] at * <;> omega

theorem Derives.stream {phrase : Phrase} {ts rest : List Token} (h : Derives phrase ts rest)
    (stream : Stream ts) : Stream rest := by
  induction h with
  | integer kind | string kind | template kind | identifier kind =>
    exact stream.tail (by simp [kind])
  | functionCall kind _ ih => exact ih (stream.tail (by simp [kind]))
  | group opening _ closing ih | arguments opening _ closing ih =>
    have inner := ih (stream.tail (stream.regular.more_of_spells opening))
    exact inner.tail (inner.regular.more_of_spells closing)
  | noAccess | noOperand | noItem => exact stream
  | fieldAccess dot kind _ _ ih =>
    have member := stream.tail (stream.regular.more_of_spells dot)
    exact ih (member.tail (by simp [kind]))
  | methodCall dot kind _ _ _ ihArgs ih | creation dot kind _ _ _ ihArgs ih =>
    have member := stream.tail (stream.regular.more_of_spells dot)
    exact ih (ihArgs (member.tail (by simp [kind])))
  | operand positive precedence spelled _ _ ihRight ih =>
    have more := stream.regular.more_of_operator spelled (by omega)
    exact ih (ihRight (stream.tail more))
  | primary _ _ ihFirst ih | operation _ _ _ _ ihFirst ih | item _ _ ihFirst ih =>
    exact ih (ihFirst stream)

theorem exists_of_opens {ts : List Token} (h : Opens ts) : ∃ t more, ts = t :: more := by
  cases ts with
  | nil => exact h.elim
  | cons t more => exact ⟨t, more, rfl⟩

theorem Derives.opens {args : List Expr} {ts rest : List Token}
    (h : Derives (.arguments args) ts rest) : Opens ts := by
  cases h with
  | arguments opening => exact opening

def Leads (t : Token) : Prop :=
  t.kind = .integer ∨ t.kind = .string ∨ t.kind = .identifier ∨ t.spells "("

theorem Derives.leads {phrase : Phrase} {ts rest : List Token} (h : Derives phrase ts rest)
    (filled : phrase.least = 1) : ∃ t more, ts = t :: more ∧ Leads t := by
  induction h with
  | integer kind => exact ⟨_, _, rfl, .inl kind⟩
  | string kind | template kind => exact ⟨_, _, rfl, .inr (.inl kind)⟩
  | identifier kind | functionCall kind => exact ⟨_, _, rfl, .inr (.inr (.inl kind))⟩
  | group opening | arguments opening => exact ⟨_, _, rfl, .inr (.inr (.inr opening))⟩
  | primary _ _ ih | operation _ _ _ _ ih => exact ih rfl
  | _ => cases filled

theorem Leads.not_spells {t : Token} (h : Leads t) (regular : t.Regular) : ¬ t.spells ")" := by
  intro closing
  have operator := regular.kind_of_spells_operator (by decide) closing
  rcases h with kind | kind | kind | opening
  · simp [operator] at kind
  · simp [operator] at kind
  · simp [operator] at kind
  · exact absurd (Token.eq_of_spells opening closing) (by decide)

/-- Whether what stands here cannot belong to an operation or a chain of member accesses that ends
before it, nor begin the value of an assignment: it is no operator but a parenthesis that opens. -/
def Separates : List Token → Prop
  | [] => True
  | t :: _ => t.kind = .operator → t.spells "("

private theorem Leads.separates {t : Token} {ts : List Token} (h : Leads t) :
    Separates (t :: ts) := by
  intro operator
  rcases h with kind | kind | kind | opening
  · simp [kind] at operator
  · simp [kind] at operator
  · simp [kind] at operator
  · exact opening

/-- Whether an expression of a level can end before what stands here: neither a dot nor an operator
of the level or a tighter one. -/
def Closes (level : Nat) : List Token → Prop
  | [] => True
  | t :: _ => ¬ t.spells "." ∧ ∀ operator : Operator, level ≤ operator.precedence →
      ¬ t.spells operator.sign

private theorem Closes.mono {m n : Nat} {ts : List Token} (h : Closes m ts) (le : m ≤ n) :
    Closes n ts := by
  cases ts with
  | nil => trivial
  | cons t ts => exact ⟨h.1, fun operator tight => h.2 operator (le.trans tight)⟩

theorem closes_of_spells {level : Nat} {t : Token} {ts : List Token} {sign : String}
    (spelled : t.spells sign) (positive : 0 < level)
    (apart : sign ∈ ["(", ")", "="]) : Closes level (t :: ts) := by
  refine ⟨fun dot => ?_, fun operator tight same => ?_⟩
  · have equal := Token.eq_of_spells spelled dot
    subst equal
    exact absurd apart (by decide)
  · have equal := Token.eq_of_spells spelled same
    subst equal
    have signs : ∀ sign ∈ ["(", ")", "="], sign ∉ Operator.signs := by decide
    exact signs _ apart (Operator.sign_mem_signs (by omega))

theorem Separates.closes {level : Nat} {ts : List Token} (h : Separates ts) (stream : Stream ts)
    (positive : 0 < level) : Closes level ts := by
  obtain ⟨t, more, rfl⟩ := stream.exists_cons
  by_cases operator : t.kind = .operator
  · exact closes_of_spells (h operator) positive (by decide)
  · refine ⟨fun dot => ?_, fun sign tight spelled => ?_⟩
    · exact operator (stream.regular.kind_of_spells_operator (by decide) dot)
    · have known : sign.sign ∈ operatorTexts := Operator.sign_mem_operatorTexts (by omega)
      exact operator (stream.regular.kind_of_spells_operator known spelled)

theorem Derives.closes_of_operands {level : Nat} {left e : Expr} {ts rest : List Token}
    (h : Derives (.operands level left e) ts rest) (follow : Closes level rest) :
    Closes (level + 1) ts := by
  cases h with
  | noOperand => exact follow.mono (Nat.le_succ level)
  | @operand _ _ _ _ _ operator _ _ _ positive precedence spelled _ _ =>
    refine ⟨fun dot => ?_, fun tighter tight same => ?_⟩
    · have equal := Token.eq_of_spells spelled dot
      cases operator <;> simp_all [Operator.precedence, Operator.sign]
    · have equal := Token.eq_of_spells spelled same
      have known : operator.precedence ≠ 0 := by omega
      have knownTighter : tighter.precedence ≠ 0 := by omega
      rw [← Operator.ofSign_sign known, equal, Operator.ofSign_sign knownTighter] at precedence
      omega

theorem Derives.closes_of_items {args : List Expr} {ts rest : List Token} {q : Token}
    (h : Derives (.items args) ts (q :: rest)) (closing : q.spells ")") (stream : Stream ts) :
    Closes 1 ts := by
  cases h with
  | noItem => exact closes_of_spells closing Nat.one_pos (by decide)
  | item first _ =>
    obtain ⟨t, more, rfl, leads⟩ := first.leads rfl
    exact leads.separates.closes stream Nat.one_pos

/-- That a stream leaves a stream, shorter by at least `n` tokens. -/
def Leaves (n : Nat) (ts rest : List Token) : Prop :=
  Stream ts → Stream rest ∧ rest.length + n ≤ ts.length

theorem Leaves.trans {m n : Nat} {a b c : List Token} (first : Leaves m a b)
    (second : Leaves n b c) : Leaves (m + n) a c := by
  intro stream
  obtain ⟨streamb, lengthb⟩ := first stream
  obtain ⟨streamc, lengthc⟩ := second streamb
  exact ⟨streamc, by omega⟩

private theorem Leaves.weaken {m n : Nat} {a b : List Token} (h : Leaves n a b) (le : m ≤ n) :
    Leaves m a b := by
  intro stream
  obtain ⟨streamb, lengthb⟩ := h stream
  exact ⟨streamb, by omega⟩

private theorem leaves_self (ts : List Token) : Leaves 0 ts ts :=
  fun stream => ⟨stream, le_rfl⟩

private theorem leaves_cons {t : Token} {ts : List Token}
    (more : t.Regular → t.kind ≠ .endOfInput) : Leaves 1 (t :: ts) ts :=
  fun stream => ⟨stream.tail (more stream.regular), by simp⟩

theorem leaves_kind {t : Token} {ts : List Token} {kind : Kind} (h : t.kind = kind)
    (other : kind ≠ .endOfInput) : Leaves 1 (t :: ts) ts :=
  leaves_cons fun _ => h ▸ other

theorem leaves_name {t : Token} {ts : List Token} (h : t.kind = .identifier) :
    Leaves 1 (t :: ts) ts :=
  leaves_kind h (by decide)

theorem leaves_sign {t : Token} {ts : List Token} {c : Char} {cs : List Char}
    (h : t.spells (String.ofList (c :: cs))) : Leaves 1 (t :: ts) ts :=
  leaves_cons fun regular => regular.more_of_spells h

theorem leaves_operator {t : Token} {ts : List Token} {operator : Operator}
    (h : t.spells operator.sign) (known : operator.precedence ≠ 0) : Leaves 1 (t :: ts) ts :=
  leaves_cons fun regular => regular.more_of_operator h known

theorem leaves_type {t : Token} {ts : List Token} {type : Ty} (h : typeOf? t = some type) :
    Leaves 1 (t :: ts) ts :=
  leaves_cons fun _ => more_of_typeOf? h

theorem Derives.leaves {phrase : Phrase} {ts rest : List Token} (h : Derives phrase ts rest) :
    Leaves phrase.least ts rest :=
  fun stream => ⟨h.stream stream, h.length_add_least_le⟩

theorem Run.leaves {test : Token → Prop} {ts rest : List Token} (h : Run test ts rest)
    (more : ∀ t, test t → t.kind ≠ .endOfInput) : Leaves 0 ts rest := by
  induction h with
  | none => exact leaves_self _
  | more first _ ih => exact ((leaves_cons fun _ => more _ first).trans ih).weaken (by omega)

theorem Newlines.leaves {ts rest : List Token} (h : Newlines ts rest) : Leaves 0 ts rest :=
  Run.leaves h fun t newline => by simp [newline]

theorem LineEnd.leaves {mode : Terminators} {ts rest : List Token} (h : LineEnd mode ts rest) :
    Leaves 0 ts rest := by
  cases h with
  | newline kind => exact (leaves_kind kind (by decide)).weaken (by omega)
  | endOfInput | missing => exact leaves_self _

theorem Parameters.leaves {ps : List Param} {ts rest : List Token} (h : Parameters ps ts rest) :
    Leaves 1 ts rest := by
  induction h with
  | none closing => exact leaves_sign closing
  | param kind colon found strays _ ih =>
    have strays := strays.leaves fun _ => more_of_isStray
    exact ((leaves_name kind).trans ((leaves_sign colon).trans
      ((leaves_type found).trans (strays.trans ih)))).weaken (by omega)

theorem Heads.leaves {mode : Terminators} {s : Signature} {ts rest : List Token}
    (h : Heads mode s ts rest) : Leaves 1 ts rest := by
  cases h with
  | head spelled kind opening params operator _ found ended =>
    exact ((leaves_sign spelled).trans ((leaves_name kind).trans ((leaves_sign opening).trans
      (params.leaves.trans ((leaves_kind operator (by decide)).trans
        ((leaves_type found).trans ended.leaves)))))).weaken (by omega)

theorem Signatures.leaves {mode : Terminators} {ss : List Signature} {ts rest : List Token}
    (h : Signatures mode ss ts rest) : Leaves 0 ts rest := by
  induction h with
  | none blank => exact Newlines.leaves blank
  | more blank first _ ih =>
    exact ((Newlines.leaves blank).trans (first.leaves.trans ih)).weaken (by omega)

theorem Fields.leaves {mode : Terminators} {f : Field} {ts rest : List Token}
    (h : Fields mode f ts rest) : Leaves 1 ts rest := by
  cases h with
  | field found kind ended =>
    exact ((leaves_type found).trans ((leaves_name kind).trans ended.leaves)).weaken (by omega)

theorem Implements.leaves {face : Option String} {ts rest : List Token}
    (h : Implements face ts rest) : Leaves 0 ts rest := by
  cases h with
  | none => exact leaves_self _
  | some spelled kind => exact ((leaves_sign spelled).trans (leaves_name kind)).weaken (by omega)

def Construct.least : Construct → Nat
  | .statement _ | .routine _ => 1
  | .block _ | .members _ _ => 0

theorem Builds.leaves {mode : Terminators} {construct : Construct} {ts rest : List Token}
    (h : Builds mode construct ts rest) : Leaves construct.least ts rest := by
  induction h with
  | declaration found _ kind spelled value ended =>
    exact ((leaves_type found).trans ((leaves_name kind).trans ((leaves_sign spelled).trans
      (value.leaves.trans ended.leaves)))).weaken (by simp [Construct.least])
  | function _ ih => exact ih
  | conditional spelled condition ended _ closed closeEnded ih =>
    exact ((leaves_sign spelled).trans (condition.leaves.trans (ended.leaves.trans
      (ih.trans ((leaves_sign closed).trans closeEnded.leaves))))).weaken
        (by simp [Construct.least])
  | alternative spelled condition ended _ other elseEnded _ closed closeEnded ihThen ihElse =>
    exact ((leaves_sign spelled).trans (condition.leaves.trans (ended.leaves.trans
      (ihThen.trans ((leaves_sign other).trans (elseEnded.leaves.trans (ihElse.trans
        ((leaves_sign closed).trans closeEnded.leaves)))))))).weaken (by simp [Construct.least])
  | classDecl spelled kind face ended _ closed closeEnded ih =>
    exact ((leaves_sign spelled).trans ((leaves_name kind).trans (face.leaves.trans
      (ended.leaves.trans (ih.trans ((leaves_sign closed).trans closeEnded.leaves)))))).weaken
        (by simp [Construct.least])
  | interfaceDecl spelled kind ended listed closed closeEnded =>
    exact ((leaves_sign spelled).trans ((leaves_name kind).trans (ended.leaves.trans
      (listed.leaves.trans ((leaves_sign closed).trans closeEnded.leaves))))).weaken
        (by simp [Construct.least])
  | assignment _ target spelled value ended =>
    exact (target.leaves.trans ((leaves_sign spelled).trans
      (value.leaves.trans ended.leaves))).weaken (by simp [Construct.least, Phrase.least])
  | expression _ e ended => exact e.leaves.trans ended.leaves
  | routine head _ closed closeEnded ih =>
    exact (head.leaves.trans (ih.trans ((leaves_sign closed).trans closeEnded.leaves))).weaken
      (by simp [Construct.least])
  | noStatement blank | noMember blank => exact Newlines.leaves blank
  | statement blank _ _ ihFirst ih | method blank _ _ ihFirst ih =>
    exact ((Newlines.leaves blank).trans (ihFirst.trans ih)).weaken (by simp [Construct.least])
  | field blank first _ ih =>
    exact ((Newlines.leaves blank).trans (first.leaves.trans ih)).weaken
      (by simp [Construct.least])

def openingWords : List String :=
  ["Int", "String", "void", "def", "if", "class", "interface"]

/-- Whether a token may begin a statement or a member of a class. -/
def Starts (t : Token) : Prop :=
  Leads t ∨ ∃ word ∈ openingWords, t.kind = .word word

def Ends (t : Token) : Prop :=
  t.kind = .endOfInput ∨ t.spells "end" ∨ t.spells "else"

/-- Whether statements, members or what ends them may stand right here. -/
def Bounds : List Token → Prop
  | [] => False
  | t :: _ => t.kind = .newline ∨ Starts t ∨ Ends t

theorem starts_of_typeOf? {t : Token} {type : Ty} (h : typeOf? t = some type) : Starts t := by
  rcases cases_of_typeOf? h with ⟨kind, -⟩ | ⟨kind, -⟩ | ⟨kind, -⟩ | ⟨kind, -⟩
  · exact .inl (.inr (.inr (.inl kind)))
  · exact .inr ⟨"Int", by decide, kind⟩
  · exact .inr ⟨"String", by decide, kind⟩
  · exact .inr ⟨"void", by decide, kind⟩

private theorem starts_of_spells {t : Token} {word : String} (regular : t.Regular)
    (h : t.spells word) (opening : word ∈ openingWords) : Starts t := by
  have reserved : openingWords ⊆ Lexeme.reservedWords := by decide
  exact .inr ⟨word, opening, regular.kind_of_spells_word (reserved opening) h⟩

theorem Starts.kind {t : Token} (h : Starts t) (regular : t.Regular) :
    t.kind ≠ .newline ∧ t.kind ≠ .endOfInput ∧ (t.kind = .operator → t.spells "(") ∧
      ∀ word, t.kind = .word word → word ∈ openingWords := by
  rcases h with (kind | kind | kind | opening) | ⟨word, known, kind⟩
  · simp [kind]
  · simp [kind]
  · simp [kind]
  · have kind := regular.kind_of_spells_operator (by decide) opening
    simp [kind, opening]
  · simp [kind, known]

theorem Ends.kind {t : Token} (h : Ends t) (regular : t.Regular) :
    t.kind = .endOfInput ∨ t.kind = .word "end" ∨ t.kind = .word "else" := by
  rcases h with atEnd | spelled | spelled
  · exact .inl atEnd
  · exact .inr (.inl (regular.kind_of_spells_word (by decide) spelled))
  · exact .inr (.inr (regular.kind_of_spells_word (by decide) spelled))

theorem Bounds.separates {ts : List Token} (h : Bounds ts) (stream : Stream ts) :
    Separates ts := by
  obtain ⟨t, more, rfl⟩ := stream.exists_cons
  intro operator
  rcases h with newline | starts | ends
  · simp [operator] at newline
  · exact (starts.kind stream.regular).2.2.1 operator
  · have kind := ends.kind stream.regular
    simp [operator] at kind

theorem Bounds.not_implements {t : Token} {ts : List Token} (h : Bounds (t :: ts))
    (regular : t.Regular) : ¬ t.spells "implements" := by
  intro spelled
  have word := regular.kind_of_spells_word (by decide) spelled
  rcases h with newline | starts | ends
  · simp [word] at newline
  · exact absurd ((starts.kind regular).2.2.2 _ word) (by decide)
  · have kind := ends.kind regular
    simp [word] at kind

private theorem Newlines.bounds {ts rest : List Token} (h : Newlines ts rest)
    (follow : Bounds rest) : Bounds ts := by
  cases h with
  | none => exact follow
  | more newline _ => exact .inl newline

theorem LineEnd.bounds {mode : Terminators} {ts rest : List Token} (h : LineEnd mode ts rest)
    (follow : Bounds rest) : Bounds ts := by
  cases h with
  | newline kind => exact .inl kind
  | endOfInput | missing => exact follow

theorem Heads.starts {mode : Terminators} {s : Signature} {ts rest : List Token}
    (h : Heads mode s ts rest) (stream : Stream ts) :
    ∃ t more, ts = t :: more ∧ Starts t ∧ t.spells "def" := by
  cases h with
  | head spelled => exact ⟨_, _, rfl, starts_of_spells stream.regular spelled (by decide), spelled⟩

theorem Builds.starts_routine {mode : Terminators} {r : Routine} {ts rest : List Token}
    (h : Builds mode (.routine r) ts rest) (stream : Stream ts) :
    ∃ t more, ts = t :: more ∧ Starts t ∧ t.spells "def" := by
  cases h with
  | routine head => exact head.starts stream

theorem Builds.starts {mode : Terminators} {s : Stmt} {ts rest : List Token}
    (h : Builds mode (.statement s) ts rest) (stream : Stream ts) :
    ∃ t more, ts = t :: more ∧ Starts t := by
  cases h with
  | declaration found => exact ⟨_, _, rfl, starts_of_typeOf? found⟩
  | function built =>
    obtain ⟨t, more, rfl, starts, -⟩ := built.starts_routine stream
    exact ⟨t, more, rfl, starts⟩
  | conditional spelled | alternative spelled | classDecl spelled | interfaceDecl spelled =>
    exact ⟨_, _, rfl, starts_of_spells stream.regular spelled (by decide)⟩
  | assignment _ e | expression _ e =>
    obtain ⟨t, more, same, leads⟩ := e.leads rfl
    exact ⟨t, more, same, .inl leads⟩

theorem Builds.bounds_block {mode : Terminators} {body : List Stmt} {ts rest : List Token}
    {q : Token} (h : Builds mode (.block body) ts (q :: rest)) (follow : Ends q)
    (stream : Stream ts) : Bounds ts := by
  cases h with
  | noStatement blank => exact blank.bounds (.inr (.inr follow))
  | statement blank first _ =>
    obtain ⟨t, more, rfl, starts⟩ := first.starts (Newlines.leaves blank stream).1
    exact blank.bounds (.inr (.inl starts))

theorem Builds.bounds_members {mode : Terminators} {fields : List Field} {methods : List Routine}
    {ts rest : List Token} {q : Token} (h : Builds mode (.members fields methods) ts (q :: rest))
    (follow : Ends q) (stream : Stream ts) : Bounds ts := by
  cases h with
  | noMember blank => exact blank.bounds (.inr (.inr follow))
  | field blank first _ =>
    cases first with | field found _ _ => ?_
    exact blank.bounds (.inr (.inl (starts_of_typeOf? found)))
  | method blank first _ =>
    obtain ⟨t, more, rfl, starts, -⟩ := first.starts_routine (Newlines.leaves blank stream).1
    exact blank.bounds (.inr (.inl starts))

end Grammar

end ScriptLang
