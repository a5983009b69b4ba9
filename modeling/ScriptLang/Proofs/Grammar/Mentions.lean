import ScriptLang.Proofs.Grammar.Recognition
import ScriptLang.Proofs.Program.Nodes

/-!
What a program mentions is what its tokens mention: each name, each literal and each operator, as
often as it stands there. The grammar passes over tokens in parameter lists only, and no identifier
even there.
-/

set_option autoImplicit false
set_option relaxedAutoImplicit false

namespace ScriptLang

inductive Mention where
  | name (text : String)
  | integer (position : Position) (value : Int)
  | string (position : Position) (text : String)
  | sign (text : String)
deriving DecidableEq

namespace Mention

def name? : Mention → Option String
  | name text => some text
  | integer _ _ | string _ _ | sign _ => none

def integer? : Mention → Option (Position × Int)
  | integer p value => some (p, value)
  | name _ | string _ _ | sign _ => none

def string? : Mention → Option (Position × String)
  | string p text => some (p, text)
  | name _ | integer _ _ | sign _ => none

def sign? : Mention → Option String
  | sign text => some text
  | name _ | integer _ _ | string _ _ => none

end Mention

/-- What an expression mentions apart from the expressions in it. -/
def Expr.ownMentions : Expr → List Mention
  | .integer p value => [.integer p value]
  | .string p text | .template p text => [.string p text]
  | .identifier _ name | .functionCall _ name _ => [.name name]
  | .binary _ operator _ _ => [.sign operator.sign]
  | .methodCall _ _ method _ => [.name method]
  | .fieldAccess _ _ field => [.name field]
  | .creation _ className _ => [.name className, .name "new"]

def Stmt.ownMentions : Stmt → List Mention
  | .declaration _ _ name _ => [.name name]
  | .function routine => [.name routine.signature.name]
  | .classDecl decl => .name decl.name :: decl.implements.toList.map .name
  | .interfaceDecl decl => [.name decl.name]
  | .conditional _ _ _ _ | .assignment _ _ _ | .expression _ _ => []

def Ty.mentions : Ty → List Mention
  | .named name => [.name name]
  | .int | .string | .void => []

def Part.mentions : Part → List Mention
  | expression e => e.ownMentions
  | statement s => s.ownMentions
  | method m => [.name m.signature.name]
  | signature s => [.name s.name]
  | field d => [.name d.name]
  | param p => [.name p.name]
  | type r => r.type.mentions

namespace Program

def mentions (p : Program) : List Mention :=
  p.parts.flatMap Part.mentions

def names (p : Program) : List String :=
  p.mentions.filterMap Mention.name?

def integers (p : Program) : List (Position × Int) :=
  p.mentions.filterMap Mention.integer?

/-- The strings in a program, with a marker or without, and their places. -/
def strings (p : Program) : List (Position × String) :=
  p.mentions.filterMap Mention.string?

def signs (p : Program) : List String :=
  p.mentions.filterMap Mention.sign?

end Program

/-- Where a token stands: in no head, in a head before its parameters, or among them. -/
inductive Zone where
  | body
  | head
  | parameters
deriving DecidableEq

/-- Where the token after this one stands. A parameter list begins at the first parenthesis that
opens after the word `def` and goes to the first one that closes. -/
def Zone.next : Zone → Token → Zone
  | body, t => if t.kind = .word "def" then head else body
  | head, t => if t.spells "(" then parameters else head
  | parameters, t => if t.spells ")" then body else parameters

/-- The tokens that do not lie between the parentheses of a parameter list. -/
def outsideParameters : Zone → List Token → List Token
  | _, [] => []
  | zone, t :: ts =>
    if zone = .parameters ∧ ¬ t.spells ")" then outsideParameters (zone.next t) ts
    else t :: outsideParameters (zone.next t) ts

def Token.mention? (t : Token) : Option Mention :=
  match t.kind with
  | .identifier => some (.name t.text)
  | .integer => some (.integer t.position (Text.naturalValue t.text.toList))
  | .string => some (.string t.position t.text)
  | .operator => if t.text ∈ Operator.signs then some (.sign t.text) else none
  | _ => none

namespace Token

variable (t : Token)

private theorem name?_mention? :
    t.mention?.bind Mention.name? = if t.kind = .identifier then some t.text else none := by
  cases kind : t.kind
  case operator =>
    by_cases known : t.text ∈ Operator.signs <;> simp [mention?, Mention.name?, kind, known]
  all_goals simp [mention?, Mention.name?, kind]

private theorem integer?_mention? :
    t.mention?.bind Mention.integer? = if t.kind = .integer then
      some (t.position, (Text.naturalValue t.text.toList : Int)) else none := by
  cases kind : t.kind
  case operator =>
    by_cases known : t.text ∈ Operator.signs <;> simp [mention?, Mention.integer?, kind, known]
  all_goals simp [mention?, Mention.integer?, kind]

private theorem string?_mention? :
    t.mention?.bind Mention.string? =
      if t.kind = .string then some (t.position, t.text) else none := by
  cases kind : t.kind
  case operator =>
    by_cases known : t.text ∈ Operator.signs <;> simp [mention?, Mention.string?, kind, known]
  all_goals simp [mention?, Mention.string?, kind]

private theorem sign?_mention? :
    t.mention?.bind Mention.sign? =
      if t.kind = .operator ∧ t.text ∈ Operator.signs then some t.text else none := by
  cases kind : t.kind
  case operator =>
    by_cases known : t.text ∈ Operator.signs <;> simp [mention?, Mention.sign?, kind, known]
  all_goals simp [mention?, Mention.sign?, kind]

end Token

def mentions : Zone → List Token → List Mention
  | _, [] => []
  | zone, t :: ts =>
    (if zone = .parameters ∧ ¬ t.spells ")" then t.mention?.filter (·.name?.isSome)
      else t.mention?).toList ++ mentions (zone.next t) ts

def partMentions (parts : List Part) : List Mention :=
  parts.flatMap Part.mentions

@[simp] theorem partMentions_nil : partMentions [] = [] := rfl

@[simp] theorem partMentions_cons (x : Part) (parts : List Part) :
    partMentions (x :: parts) = x.mentions ++ partMentions parts := rfl

@[simp] theorem partMentions_append (parts parts' : List Part) :
    partMentions (parts ++ parts') = partMentions parts ++ partMentions parts' :=
  List.flatMap_append

def nodeMentions (nodes : List Node) : List Mention :=
  partMentions (nodes.flatMap Node.parts)

@[simp] theorem nodeMentions_nil : nodeMentions [] = [] := rfl

@[simp] theorem nodeMentions_append (nodes nodes' : List Node) :
    nodeMentions (nodes ++ nodes') = nodeMentions nodes ++ nodeMentions nodes' := by
  rw [nodeMentions, List.flatMap_append, partMentions_append]
  rfl

@[simp] theorem nodeMentions_expression (e : Expr) (nodes : List Node) :
    nodeMentions (.expression e :: nodes) = e.ownMentions ++ nodeMentions nodes :=
  rfl

@[simp] theorem nodeMentions_statement (s : Stmt) (nodes : List Node) :
    nodeMentions (.statement s :: nodes) =
      s.ownMentions ++ (partMentions s.declaredParts ++ nodeMentions nodes) := by
  rw [nodeMentions, List.flatMap_cons, partMentions_append, ← List.append_assoc]
  rfl

section Tokens

variable {t : Token} {ts rest : List Token}

private theorem mentions_body (other : t.kind ≠ .word "def") :
    mentions .body (t :: ts) = t.mention?.toList ++ mentions .body ts := by
  simp [mentions, Zone.next, other]

private theorem mentions_name (kind : t.kind = .identifier) :
    mentions .body (t :: ts) = .name t.text :: mentions .body ts := by
  rw [mentions_body (by simp [kind]), Token.mention?, kind]
  rfl

private theorem mentions_silent (other : t.kind ≠ .word "def") (silent : t.mention? = none) :
    mentions .body (t :: ts) = mentions .body ts := by
  rw [mentions_body other, silent]
  rfl

private theorem mentions_operator (kind : t.kind = .operator) (silent : t.text ∉ Operator.signs) :
    mentions .body (t :: ts) = mentions .body ts :=
  mentions_silent (by simp [kind]) (by simp [Token.mention?, kind, silent])

private theorem mentions_sign {sign : String} (regular : t.Regular) (spelled : t.spells sign)
    (known : sign ∈ operatorTexts) (silent : sign ∉ Operator.signs) :
    mentions .body (t :: ts) = mentions .body ts := by
  refine mentions_operator (regular.kind_of_spells_operator known spelled) ?_
  rwa [(Token.spells_iff.mp spelled).1]

private theorem mentions_operation {operator : Operator} (regular : t.Regular)
    (spelled : t.spells operator.sign) (known : operator.precedence ≠ 0) :
    mentions .body (t :: ts) = .sign operator.sign :: mentions .body ts := by
  have kind := regular.kind_of_spells_operator (Operator.sign_mem_operatorTexts known) spelled
  rw [mentions_body (by simp [kind]), Token.mention?, kind]
  simp only [(Token.spells_iff.mp spelled).1, if_pos (Operator.sign_mem_signs known)]
  rfl

private theorem mentions_word {word : String} (kind : t.kind = .word word) (other : word ≠ "def") :
    mentions .body (t :: ts) = mentions .body ts :=
  mentions_silent (by simpa [kind] using other) (by simp [Token.mention?, kind])

private theorem mentions_newline (kind : t.kind = .newline) :
    mentions .body (t :: ts) = mentions .body ts :=
  mentions_silent (by simp [kind]) (by simp [Token.mention?, kind])

private theorem mentions_type {type : Ty} (found : Grammar.typeOf? t = some type) :
    mentions .body (t :: ts) = type.mentions ++ mentions .body ts := by
  obtain ⟨kind, rfl⟩ | ⟨kind, rfl⟩ | ⟨kind, rfl⟩ | ⟨kind, rfl⟩ := Grammar.cases_of_typeOf? found
  · exact mentions_name kind
  · exact mentions_word kind (by decide)
  · exact mentions_word kind (by decide)
  · exact mentions_word kind (by decide)

private theorem mentions_opening (kind : t.kind = .word "def") :
    mentions .body (t :: ts) = mentions .head ts := by
  simp [mentions, Zone.next, Token.mention?, kind]

private theorem mentions_head_name (kind : t.kind = .identifier) :
    mentions .head (t :: ts) = .name t.text :: mentions .head ts := by
  have unopened : ¬ t.spells "(" := fun spelled => (Token.spells_iff.mp spelled).2.2 kind
  simp [mentions, Zone.next, Token.mention?, kind, unopened]

private theorem mentions_head_parenthesis (regular : t.Regular) (opening : t.spells "(") :
    mentions .head (t :: ts) = mentions .parameters ts := by
  have kind := regular.kind_of_spells_operator (by decide) opening
  have silent : "(" ∉ Operator.signs := by decide
  simp [mentions, Zone.next, Token.mention?, kind, opening, (Token.spells_iff.mp opening).1, silent]

private theorem mentions_parameter_name (kind : t.kind = .identifier) :
    mentions .parameters (t :: ts) = .name t.text :: mentions .parameters ts := by
  have unclosed : ¬ t.spells ")" := fun spelled => (Token.spells_iff.mp spelled).2.2 kind
  simp [mentions, Zone.next, Token.mention?, Option.filter, Mention.name?, kind, unclosed]

/-- Among parameters nothing counts but names. -/
private theorem mentions_parameter_silent (kind : t.kind ≠ .identifier)
    (unclosed : ¬ t.spells ")") : mentions .parameters (t :: ts) = mentions .parameters ts := by
  have unnamed : t.mention?.filter (·.name?.isSome) = none := by
    unfold Token.mention?
    split
    · contradiction
    · rfl
    · rfl
    · split <;> rfl
    · rfl
  simp [mentions, Zone.next, unclosed, unnamed]

private theorem mentions_parameter_type {type : Ty} (regular : t.Regular)
    (found : Grammar.typeOf? t = some type) :
    mentions .parameters (t :: ts) = type.mentions ++ mentions .parameters ts := by
  have word {w : String} (kind : t.kind = .word w) :
      mentions .parameters (t :: ts) = mentions .parameters ts := by
    refine mentions_parameter_silent (by simp [kind]) fun closing => ?_
    simp [regular.kind_of_spells_operator (by decide) closing] at kind
  obtain ⟨kind, rfl⟩ | ⟨kind, rfl⟩ | ⟨kind, rfl⟩ | ⟨kind, rfl⟩ := Grammar.cases_of_typeOf? found
  · exact mentions_parameter_name kind
  · exact word kind
  · exact word kind
  · exact word kind

private theorem mentions_parameters_end (regular : t.Regular) (closing : t.spells ")") :
    mentions .parameters (t :: ts) = mentions .body ts := by
  have kind := regular.kind_of_spells_operator (by decide) closing
  have silent : ")" ∉ Operator.signs := by decide
  simp [mentions, Zone.next, Token.mention?, kind, closing, (Token.spells_iff.mp closing).1, silent]

end Tokens

namespace Grammar

variable {ts rest : List Token}

def Phrase.mentionsGiven : Phrase → List Mention
  | accesses a _ | operands _ a _ => nodeMentions a.nodes
  | atom _ | expression _ _ | items _ | arguments _ => []

def Phrase.mentionsMade : Phrase → List Mention
  | atom e | accesses _ e | operands _ _ e | expression _ e => nodeMentions e.nodes
  | items args | arguments args => nodeMentions (argNodes args)

private theorem Derives.mentions_eq {phrase : Phrase} (h : Derives phrase ts rest)
    (stream : Stream ts) (x : Mention) :
    (mentions .body ts).count x + phrase.mentionsGiven.count x =
      (mentions .body rest).count x + phrase.mentionsMade.count x := by
  -- Compared by count: an operation is a node before its operands, and its sign stands after one.
  induction h with
  | integer kind | string kind _ | template kind _ | identifier kind _ =>
    rw [mentions_body (by simp [kind]), Token.mention?, kind]
    simp only [Phrase.mentionsGiven, Phrase.mentionsMade, Expr.nodes, nodeMentions_expression,
      nodeMentions_nil, Expr.ownMentions, Option.toList_some, List.append_nil, List.count_append,
      List.count_nil]
    omega
  | functionCall kind called ih =>
    have inner := ih (leaves_name kind stream).1
    rw [mentions_name kind]
    simp only [Phrase.mentionsGiven, Phrase.mentionsMade, Expr.nodes, nodeMentions_expression,
      Expr.ownMentions, List.count_append, List.count_cons, List.count_nil] at inner ⊢
    omega
  | group opening made closing ih | arguments opening made closing ih =>
    have next := (leaves_sign opening stream).1
    have inner := ih next
    rw [mentions_sign (made.leaves next).1.regular closing (by decide) (by decide)] at inner
    rw [mentions_sign stream.regular opening (by decide) (by decide)]
    exact inner
  | noAccess | noOperand | noItem => rfl
  | fieldAccess dot kind closed _ ih =>
    have member := (leaves_sign dot stream).1
    have inner := ih (leaves_name kind member).1
    rw [mentions_sign stream.regular dot (by decide) (by decide), mentions_name kind]
    simp only [Phrase.mentionsGiven, Phrase.mentionsMade, Expr.nodes, nodeMentions_expression,
      Expr.ownMentions, List.count_append, List.count_cons, List.count_nil] at inner ⊢
    omega
  | methodCall dot kind other called _ ihArgs ih =>
    have member := (leaves_sign dot stream).1
    have opened := (leaves_name kind member).1
    have args := ihArgs opened
    have inner := ih (called.leaves opened).1
    rw [mentions_sign stream.regular dot (by decide) (by decide), mentions_name kind]
    simp only [Phrase.mentionsGiven, Phrase.mentionsMade, Expr.nodes, nodeMentions_expression,
      nodeMentions_append, Expr.ownMentions, List.count_append, List.count_cons, List.count_nil]
      at args inner ⊢
    omega
  | creation dot kind new called _ ihArgs ih =>
    have member := (leaves_sign dot stream).1
    have opened := (leaves_name kind member).1
    have args := ihArgs opened
    have inner := ih (called.leaves opened).1
    rw [mentions_sign stream.regular dot (by decide) (by decide), mentions_name kind, new]
    simp only [Phrase.mentionsGiven, Phrase.mentionsMade, Expr.nodes, nodeMentions_expression,
      nodeMentions_nil, Expr.ownMentions, List.count_append, List.count_cons, List.count_nil]
      at args inner ⊢
    omega
  | operand positive precedence spelled right _ ihRight ih =>
    have known := Nat.ne_of_gt (precedence ▸ positive)
    have next := (leaves_operator spelled known stream).1
    have operand := ihRight next
    have inner := ih (right.leaves next).1
    rw [mentions_operation stream.regular spelled known]
    simp only [Phrase.mentionsGiven, Phrase.mentionsMade, Expr.nodes, nodeMentions_expression,
      nodeMentions_append, Expr.ownMentions, List.count_append, List.count_cons, List.count_nil]
      at operand inner ⊢
    omega
  | primary first _ ihFirst ih | operation _ _ first _ ihFirst ih =>
    have start := ihFirst stream
    have inner := ih (first.leaves stream).1
    simp only [Phrase.mentionsGiven, Phrase.mentionsMade, List.count_nil] at start inner ⊢
    omega
  | item first _ ihFirst ih =>
    have start := ihFirst stream
    have inner := ih (first.leaves stream).1
    simp only [Phrase.mentionsGiven, Phrase.mentionsMade, argNodes, nodeMentions_append,
      List.count_append, List.count_nil] at start inner ⊢
    omega

private theorem Derives.mentions_expression {level : Nat} {e : Expr}
    (h : Derives (.expression level e) ts rest) (stream : Stream ts) (x : Mention) :
    (mentions .body ts).count x =
      (mentions .body rest).count x + (nodeMentions e.nodes).count x := by
  simpa [Phrase.mentionsGiven, Phrase.mentionsMade] using h.mentions_eq stream x

private theorem Newlines.mentions_eq (h : Newlines ts rest) :
    mentions .body ts = mentions .body rest := by
  induction h with
  | none => rfl
  | more newline _ ih => rw [mentions_newline newline, ih]

private theorem LineEnd.mentions_eq {mode : Terminators} (h : LineEnd mode ts rest) :
    mentions .body ts = mentions .body rest := by
  cases h with
  | newline newline => exact mentions_newline newline
  | endOfInput | missing => rfl

private theorem mentions_line {mode : Terminators} {t : Token} {word : String}
    (spelled : t.spells word) (reserved : word ∈ Lexeme.reservedWords) (other : word ≠ "def")
    (ended : LineEnd mode ts rest) (stream : Stream (t :: ts)) :
    mentions .body (t :: ts) = mentions .body rest := by
  rw [mentions_word (stream.regular.kind_of_spells_word reserved spelled) other, ended.mentions_eq]

private theorem mentions_strays (h : Run (isStray ·) ts rest) :
    mentions .parameters ts = mentions .parameters rest := by
  induction h with
  | none => rfl
  | more stray _ ih =>
    simp only [isStray, Bool.and_eq_true, decide_eq_true_eq, Bool.not_eq_true'] at stray
    rw [mentions_parameter_silent stray.1.1 (by simp [stray.1.2]), ih]

private theorem Parameters.mentions_eq {ps : List Param} (h : Parameters ps ts rest)
    (stream : Stream ts) (x : Mention) :
    (mentions .parameters ts).count x =
      (mentions .body rest).count x + (partMentions (ps.flatMap Param.parts)).count x := by
  induction h with
  | none closing => simp [mentions_parameters_end stream.regular closing]
  | @param _ c _ _ _ _ _ _ kind colon found strays _ ih =>
    have afterName := (leaves_name kind stream).1
    have afterColon := (leaves_sign colon afterName).1
    have afterType := (leaves_type found afterColon).1
    have inner := ih (strays.leaves (fun _ => more_of_isStray) afterType).1
    have apart : ¬ c.spells ")" := fun closing =>
      absurd (Token.eq_of_spells colon closing) (by decide)
    have sign := afterName.regular.kind_of_spells_operator (by decide) colon
    rw [mentions_parameter_name kind, mentions_parameter_silent (by simp [sign]) apart,
      mentions_parameter_type afterColon.regular found, mentions_strays strays]
    simp only [List.flatMap_cons, Param.parts, List.cons_append, List.nil_append, partMentions_cons,
      Part.mentions, List.count_append, List.count_cons]
    omega

private theorem Heads.mentions_eq {mode : Terminators} {s : Signature} (h : Heads mode s ts rest)
    (stream : Stream ts) (x : Mention) :
    (mentions .body ts).count x =
      (mentions .body rest).count x + (Mention.name s.name :: partMentions s.parts).count x := by
  cases h with
  | @head _ _ _ separator _ _ _ _ _ _ spelled kind opening params operator spelling found ended =>
    have named := (leaves_sign spelled stream).1
    have opened := (leaves_name kind named).1
    have listed := (leaves_sign opening opened).1
    have separated := (params.leaves listed).1
    have inner := params.mentions_eq listed x
    have silent : separator.text ∉ Operator.signs := by
      rcases spelling with same | same <;> simp [same, Operator.signs]
    rw [mentions_opening (stream.regular.kind_of_spells_word (by decide) spelled),
      mentions_head_name kind, mentions_head_parenthesis opened.regular opening, List.count_cons,
      inner, mentions_operator operator silent, mentions_type found, ended.mentions_eq]
    simp only [Signature.parts, partMentions_append, partMentions_cons, partMentions_nil,
      Part.mentions, List.count_append, List.count_cons, List.count_nil]
    omega

private theorem Signatures.mentions_eq {mode : Terminators} {ss : List Signature}
    (h : Signatures mode ss ts rest) (stream : Stream ts) (x : Mention) :
    (mentions .body ts).count x = (mentions .body rest).count x +
      (partMentions (ss.flatMap fun s => .signature s :: s.parts)).count x := by
  induction h with
  | none blank => simp [Newlines.mentions_eq blank]
  | more blank first _ ih =>
    have start := (Newlines.leaves blank stream).1
    have head := first.mentions_eq start x
    have inner := ih (first.leaves start).1
    rw [Newlines.mentions_eq blank]
    simp only [List.flatMap_cons, List.cons_append, partMentions_cons, partMentions_append,
      Part.mentions, List.nil_append, List.count_cons, List.count_append] at head inner ⊢
    omega

private theorem Fields.mentions_eq {mode : Terminators} {f : Field} (h : Fields mode f ts rest)
    (x : Mention) :
    (mentions .body ts).count x =
      (mentions .body rest).count x + (partMentions f.parts).count x := by
  cases h with
  | field found kind ended =>
    rw [mentions_type found, mentions_name kind, ended.mentions_eq]
    simp only [Field.parts, partMentions_cons, partMentions_nil, Part.mentions, List.count_append,
      List.count_cons, List.count_nil]
    omega

private theorem Implements.mentions_eq {face : Option String} (h : Implements face ts rest)
    (stream : Stream ts) :
    mentions .body ts = face.toList.map .name ++ mentions .body rest := by
  cases h with
  | none => rfl
  | some spelled kind =>
    rw [mentions_word (stream.regular.kind_of_spells_word (by decide) spelled) (by decide),
      mentions_name kind]
    rfl

def Construct.mentions : Construct → List Mention
  | statement s => nodeMentions s.nodes
  | block body => nodeMentions (blockNodes body)
  | routine r => partMentions r.parts ++ nodeMentions (blockNodes r.body)
  | members fields methods =>
    partMentions (fields.flatMap Field.parts ++ methods.flatMap Routine.parts) ++
      nodeMentions (methodNodes methods)

private theorem Builds.mentions_eq {mode : Terminators} {construct : Construct}
    (h : Builds mode construct ts rest) (stream : Stream ts) (x : Mention) :
    (ScriptLang.mentions .body ts).count x =
      (ScriptLang.mentions .body rest).count x + construct.mentions.count x := by
  -- Only the counts agree: the parts of a statement do not come in the order of its tokens.
  induction h with
  | declaration found _ kind spelled value ended =>
    have named := (leaves_type found stream).1
    have assigned := (leaves_name kind named).1
    have start := (leaves_sign spelled assigned).1
    have inner := value.mentions_expression start x
    rw [mentions_type found, mentions_name kind,
      mentions_sign assigned.regular spelled (by decide) (by decide), List.count_append,
      List.count_cons, inner, ended.mentions_eq]
    simp only [Construct.mentions, Stmt.nodes, nodeMentions_statement, Stmt.ownMentions,
      Stmt.declaredParts, partMentions_cons, partMentions_nil, Part.mentions, List.count_append,
      List.count_cons, List.count_nil]
    omega
  | function _ ih =>
    have inner := ih stream
    simp only [Construct.mentions, Stmt.nodes, nodeMentions_statement, Stmt.ownMentions,
      Stmt.declaredParts, Routine.parts, Routine.nodes_eq, partMentions_cons, Part.mentions,
      List.count_append] at inner ⊢
    omega
  | conditional spelled condition ended body closed closeEnded ih =>
    have start := (leaves_sign spelled stream).1
    have line := (condition.leaves start).1
    have opened := (ended.leaves line).1
    have inner := ih opened
    rw [mentions_line closed (by decide) (by decide) closeEnded (body.leaves opened).1] at inner
    rw [mentions_word (stream.regular.kind_of_spells_word (by decide) spelled) (by decide),
      condition.mentions_expression start x, ended.mentions_eq, inner]
    simp only [Construct.mentions, Stmt.nodes, elseNodes, nodeMentions_statement,
      nodeMentions_append, nodeMentions_nil, Stmt.ownMentions, Stmt.declaredParts, partMentions_nil,
      List.count_append, List.count_nil]
    omega
  | alternative spelled condition ended thenBody other elseEnded elseBody closed closeEnded ihThen
      ihElse =>
    have start := (leaves_sign spelled stream).1
    have line := (condition.leaves start).1
    have opened := (ended.leaves line).1
    have turned := (thenBody.leaves opened).1
    have reopened := (elseEnded.leaves (leaves_sign other turned).1).1
    have first := ihThen opened
    have second := ihElse reopened
    rw [mentions_line other (by decide) (by decide) elseEnded turned] at first
    rw [mentions_line closed (by decide) (by decide) closeEnded
      (elseBody.leaves reopened).1] at second
    rw [mentions_word (stream.regular.kind_of_spells_word (by decide) spelled) (by decide),
      condition.mentions_expression start x, ended.mentions_eq, first, second]
    simp only [Construct.mentions, Stmt.nodes, elseNodes, nodeMentions_statement,
      nodeMentions_append, Stmt.ownMentions, Stmt.declaredParts, partMentions_nil,
      List.count_append, List.count_nil]
    omega
  | classDecl spelled kind face ended listed closed closeEnded ih =>
    have named := (leaves_sign spelled stream).1
    have after := (leaves_name kind named).1
    have opened := (ended.leaves (face.leaves after).1).1
    have inner := ih opened
    rw [mentions_line closed (by decide) (by decide) closeEnded (listed.leaves opened).1] at inner
    rw [mentions_word (stream.regular.kind_of_spells_word (by decide) spelled) (by decide),
      mentions_name kind, face.mentions_eq after, ended.mentions_eq, List.count_cons,
      List.count_append, inner]
    simp only [Construct.mentions, Stmt.nodes, ClassDecl.nodes_eq, nodeMentions_statement,
      Stmt.ownMentions, Stmt.declaredParts, List.count_append, List.count_cons]
    omega
  | interfaceDecl spelled kind ended listed closed closeEnded =>
    have named := (leaves_sign spelled stream).1
    have opened := (ended.leaves (leaves_name kind named).1).1
    have inner := listed.mentions_eq opened x
    rw [mentions_line closed (by decide) (by decide) closeEnded (listed.leaves opened).1] at inner
    rw [mentions_word (stream.regular.kind_of_spells_word (by decide) spelled) (by decide),
      mentions_name kind, ended.mentions_eq, List.count_cons, inner]
    simp only [Construct.mentions, Stmt.nodes, nodeMentions_statement, nodeMentions_nil,
      Stmt.ownMentions, Stmt.declaredParts, List.count_append, List.count_cons, List.count_nil]
    omega
  | assignment _ target spelled value ended =>
    have left := target.mentions_expression stream x
    have assigned := (target.leaves stream).1
    have start := (leaves_sign spelled assigned).1
    have right := value.mentions_expression start x
    rw [left, mentions_sign assigned.regular spelled (by decide) (by decide), right,
      ended.mentions_eq]
    simp only [Construct.mentions, Stmt.nodes, nodeMentions_statement, nodeMentions_append,
      Stmt.ownMentions, Stmt.declaredParts, partMentions_nil, List.count_append, List.count_nil]
    omega
  | expression _ e ended =>
    rw [e.mentions_expression stream x, ended.mentions_eq]
    simp only [Construct.mentions, Stmt.nodes, nodeMentions_statement, Stmt.ownMentions,
      Stmt.declaredParts, partMentions_nil, List.nil_append]
  | routine head body closed closeEnded ih =>
    have opened := (head.leaves stream).1
    have inner := ih opened
    rw [mentions_line closed (by decide) (by decide) closeEnded (body.leaves opened).1] at inner
    rw [head.mentions_eq stream x, inner]
    simp only [Construct.mentions, Routine.parts, partMentions_cons, Part.mentions,
      List.cons_append, List.nil_append, List.count_append, List.count_cons]
    omega
  | noStatement blank | noMember blank =>
    rw [Newlines.mentions_eq blank]
    rfl
  | statement blank first _ ihFirst ih =>
    have start := (Newlines.leaves blank stream).1
    have inner := ihFirst start
    have others := ih (first.leaves start).1
    rw [Newlines.mentions_eq blank, inner, others]
    simp only [Construct.mentions, blockNodes, nodeMentions_append, List.count_append]
    omega
  | field blank first _ ih =>
    have start := (Newlines.leaves blank stream).1
    have others := ih (first.leaves start).1
    rw [Newlines.mentions_eq blank, first.mentions_eq x, others]
    simp only [Construct.mentions, List.flatMap_cons, partMentions_append, List.count_append]
    omega
  | method blank first _ ihFirst ih =>
    have start := (Newlines.leaves blank stream).1
    have inner := ihFirst start
    have others := ih (first.leaves start).1
    rw [Newlines.mentions_eq blank, inner, others]
    simp only [Construct.mentions, List.flatMap_cons, methodNodes, Routine.nodes_eq,
      partMentions_append, nodeMentions_append, List.count_append]
    omega

end Grammar

namespace Program

variable {mode : Terminators} {source : String} {tokens : List Token} {p : Program}

theorem Derived.mentions_perm (h : p.Derived mode tokens) (stream : Stream tokens) :
    (ScriptLang.mentions .body tokens).Perm p.mentions := by
  obtain ⟨last, atEnd, built⟩ := h
  have ended : ScriptLang.mentions .body [last] = [] := by
    rw [mentions_silent (by simp [atEnd]) (by simp [Token.mention?, atEnd])]
    rfl
  refine List.perm_iff_count.mpr fun x => ?_
  rw [built.mentions_eq stream x, ended, List.count_nil, Nat.zero_add]
  rfl

end Program

section Sorts

variable {α : Type}

private theorem filterMap_eq_map_filter {f : Token → Option α} {test : Token → Prop}
    [DecidablePred test] {read : Token → α}
    (h : ∀ t, f t = if test t then some (read t) else none) (ts : List Token) :
    ts.filterMap f = (ts.filter (test ·)).map read := by
  simp only [← List.filterMap_eq_map, List.filterMap_filter, decide_eq_true_eq, Function.comp_apply,
    h]

private theorem filterMap_name?_mentions (zone : Zone) (ts : List Token) :
    (mentions zone ts).filterMap Mention.name? =
      ts.filterMap fun t => t.mention?.bind Mention.name? := by
  induction ts generalizing zone with
  | nil => rfl
  | cons t ts ih =>
    rw [mentions, List.filterMap_append, ih, List.filterMap_cons]
    rcases t.mention? with _ | ⟨_⟩ | _ | _ | _ <;> split <;> rfl

private theorem filterMap_mentions {read : Mention → Option α}
    (unnamed : ∀ name, read (.name name) = none) (zone : Zone) (ts : List Token) :
    (mentions zone ts).filterMap read =
      (outsideParameters zone ts).filterMap fun t => t.mention?.bind read := by
  induction ts generalizing zone with
  | nil => rfl
  | cons t ts ih =>
    rw [mentions, List.filterMap_append, ih, outsideParameters]
    split
    · rcases t.mention? with _ | ⟨_⟩ | _ | _ | _ <;> simp [Option.filter, Mention.name?, unnamed]
    · rw [List.filterMap_cons]
      rcases t.mention? with _ | m
      · rfl
      · cases found : read m <;> simp [found]

end Sorts

namespace Program

/-- Nothing that matters is dropped. The identifiers of an accepted source text are, one for one,
the names in its program. The integers, the strings and the signs of operations that do not lie
between the parentheses of a parameter list are, one for one, its literals and its operations. -/
theorem mentions_of_ofSource (mode : Terminators) (source : String) (p : Program)
    (h : ofSource mode source = .ok p) :
    ∃ tokens, tokenize source = .ok tokens ∧
      ((tokens.filter (·.kind = .identifier)).map Token.text).Perm p.names ∧
      (((outsideParameters .body tokens).filter (·.kind = .integer)).map fun t =>
        (t.position, (Text.naturalValue t.text.toList : Int))).Perm p.integers ∧
      (((outsideParameters .body tokens).filter (·.kind = .string)).map fun t =>
        (t.position, t.text)).Perm p.strings ∧
      (((outsideParameters .body tokens).filter fun t =>
        t.kind = .operator ∧ t.text ∈ Operator.signs).map Token.text).Perm p.signs := by
  obtain ⟨tokens, cut, accepted⟩ := ofSource_eq_ok_iff.mp h
  have stream := stream_of_tokenize cut
  have same := ((ofTokens_eq_ok_iff stream).mp accepted).mentions_perm stream
  refine ⟨tokens, cut, ?_, ?_, ?_, ?_⟩
  · rw [← filterMap_eq_map_filter Token.name?_mention?, ← filterMap_name?_mentions]
    exact same.filterMap _
  · rw [← filterMap_eq_map_filter Token.integer?_mention?,
      ← filterMap_mentions fun _ => rfl]
    exact same.filterMap _
  · rw [← filterMap_eq_map_filter Token.string?_mention?, ← filterMap_mentions fun _ => rfl]
    exact same.filterMap _
  · rw [← filterMap_eq_map_filter Token.sign?_mention?, ← filterMap_mentions fun _ => rfl]
    exact same.filterMap _

theorem mentions_of_stray_literals : ∃ p tokens,
    ofSource .lenient "def f(a: Int 7 \"s\" +) -> C\nA.new(\"x\" 1 * a) end" = .ok p ∧
      tokenize "def f(a: Int 7 \"s\" +) -> C\nA.new(\"x\" 1 * a) end" = .ok tokens ∧
      (tokens.filter (·.kind = .integer)).map Token.text = ["7", "1"] ∧
      ["f", "a", "C", "A", "new", "a"].Perm p.names ∧
      [(⟨2, 11⟩, 1)].Perm p.integers ∧ [(⟨2, 7⟩, "x")].Perm p.strings ∧ ["*"].Perm p.signs := by
  let created : Expr := .creation ⟨2, 1⟩ "A" [.string ⟨2, 7⟩ "x",
    .binary ⟨2, 11⟩ .multiply (.integer ⟨2, 11⟩ 1) (.identifier ⟨2, 15⟩ "a")]
  let p : Program := ⟨[.function ⟨⟨⟨1, 1⟩, "f", [⟨⟨1, 7⟩, "a", ⟨⟨1, 10⟩, .int⟩⟩],
    ⟨⟨1, 26⟩, .named "C"⟩⟩, [.expression ⟨2, 1⟩ created]⟩]⟩
  have cut : tokenize "def f(a: Int 7 \"s\" +) -> C\nA.new(\"x\" 1 * a) end" = .ok [
      ⟨.word "def", "def", ⟨1, 1⟩⟩, ⟨.identifier, "f", ⟨1, 5⟩⟩, ⟨.operator, "(", ⟨1, 6⟩⟩,
      ⟨.identifier, "a", ⟨1, 7⟩⟩, ⟨.operator, ":", ⟨1, 8⟩⟩, ⟨.word "Int", "Int", ⟨1, 10⟩⟩,
      ⟨.integer, "7", ⟨1, 14⟩⟩, ⟨.string, "s", ⟨1, 16⟩⟩, ⟨.operator, "+", ⟨1, 20⟩⟩,
      ⟨.operator, ")", ⟨1, 21⟩⟩, ⟨.operator, "->", ⟨1, 23⟩⟩, ⟨.identifier, "C", ⟨1, 26⟩⟩,
      ⟨.newline, "\n", ⟨1, 27⟩⟩, ⟨.identifier, "A", ⟨2, 1⟩⟩, ⟨.operator, ".", ⟨2, 2⟩⟩,
      ⟨.identifier, "new", ⟨2, 3⟩⟩, ⟨.operator, "(", ⟨2, 6⟩⟩, ⟨.string, "x", ⟨2, 7⟩⟩,
      ⟨.integer, "1", ⟨2, 11⟩⟩, ⟨.operator, "*", ⟨2, 13⟩⟩, ⟨.identifier, "a", ⟨2, 15⟩⟩,
      ⟨.operator, ")", ⟨2, 16⟩⟩, ⟨.word "end", "end", ⟨2, 18⟩⟩, ⟨.endOfInput, "", ⟨2, 21⟩⟩] := by
    show tokensFrom .first ['d', 'e', 'f', ' ', 'f', '(', 'a', ':', ' ', 'I', 'n', 't', ' ', '7',
      ' ', '"', 's', '"', ' ', '+', ')', ' ', '-', '>', ' ', 'C', '\n', 'A', '.', 'n', 'e', 'w',
      '(', '"', 'x', '"', ' ', '1', ' ', '*', ' ', 'a', ')', ' ', 'e', 'n', 'd'] = _
    iterate 34 refine tokensFrom_cons rfl rfl ?_
    exact tokensFrom_nil _
  have accepted : ofSource .lenient
      "def f(a: Int 7 \"s\" +) -> C\nA.new(\"x\" 1 * a) end" = .ok p := by
    unfold ofSource
    rw [cut]
    rfl
  obtain ⟨tokens, taken, names, integers, strings, signs⟩ := mentions_of_ofSource _ _ p accepted
  obtain rfl := Except.ok.inj (taken.symm.trans cut)
  exact ⟨p, _, accepted, cut, rfl, names, integers, strings, signs⟩

end Program

end ScriptLang
