import ScriptLang.Proofs.Canonical.Derivation
import ScriptLang.Proofs.Grammar.Locality
import ScriptLang.Proofs.Grammar.Recognition
import ScriptLang.Proofs.Program.Nodes
import ScriptLang.Proofs.Token.Regular

/-!
Where the parts of an accepted program stand. Each is spelled by a stretch of the tokens of the
source and has the place of the first token of that stretch; an expression has the place of the
first token behind the parentheses that open there, which is its leftmost atom. The statements of a
block follow each other in the source, so their places increase.
-/

set_option autoImplicit false
set_option relaxedAutoImplicit false

namespace ScriptLang

namespace Grammar

open Operator (primaryPrecedence)

section Reaches

variable {a b c ts rest : List Token} {t : Token}

private theorem Transfers.suffix {J : List Token → List Token → Prop}
    (h : Transfers rest rest J ts rest) : rest <:+ ts := by
  obtain ⟨_, same, -⟩ := h .here
  obtain ⟨front, same, -⟩ := same.exists_append
  exact ⟨front, same.symm⟩

private theorem Derives.suffix {phrase : Phrase} (h : Derives phrase ts rest) : rest <:+ ts :=
  Transfers.suffix (h.transfers ⟨id, fun _ => id⟩)

def Reaches (ts rest : List Token) : Prop :=
  Stream ts → Stream rest ∧ rest <:+ ts

private theorem Reaches.trans (first : Reaches a b) (second : Reaches b c) : Reaches a c := by
  intro stream
  obtain ⟨streamb, suffixb⟩ := first stream
  obtain ⟨streamc, suffixc⟩ := second streamb
  exact ⟨streamc, suffixc.trans suffixb⟩

private theorem Leaves.reaches_tail {n : Nat} (h : Leaves n (t :: ts) ts) : Reaches (t :: ts) ts :=
  fun stream => ⟨(h stream).1, List.suffix_cons t ts⟩

/-- What may only be exchanged behind the next token is a suffix, since a stream has one. -/
private theorem Leaves.reaches {n : Nat} {J : List Token → List Token → Prop} (h : Leaves n ts rest)
    (transfers : ∀ t a, rest = t :: a → Transfers (t :: a) (t :: a) J ts rest) :
    Reaches ts rest := by
  intro stream
  obtain ⟨streamr, -⟩ := h stream
  obtain ⟨t, a, rfl⟩ := streamr.exists_cons
  exact ⟨streamr, Transfers.suffix (transfers t a rfl)⟩

private theorem Derives.reaches {phrase : Phrase} (h : Derives phrase ts rest) : Reaches ts rest :=
  fun stream => ⟨h.stream stream, h.suffix⟩

private theorem Newlines.reaches (h : Newlines ts rest) : Reaches ts rest :=
  (Newlines.leaves h).reaches fun _ _ _ => Run.transfers h

private theorem Implements.reaches {face : Option String} (h : Implements face ts rest) :
    Reaches ts rest :=
  h.leaves.reaches fun _ _ _ => h.transfers

variable {mode : Terminators}

private theorem LineEnd.reaches (h : LineEnd mode ts rest) : Reaches ts rest :=
  h.leaves.reaches fun _ _ _ => h.transfers

private theorem Heads.reaches {s : Signature} (h : Heads mode s ts rest) : Reaches ts rest :=
  h.leaves.reaches fun _ _ _ => h.transfers

private theorem Fields.reaches {f : Field} (h : Fields mode f ts rest) : Reaches ts rest :=
  h.leaves.reaches fun _ _ _ => h.transfers

private theorem Builds.reaches {construct : Construct} (h : Builds mode construct ts rest) :
    Reaches ts rest :=
  h.leaves.reaches fun _ _ _ => h.transfers

end Reaches

end Grammar

open Grammar
open Operator (primaryPrecedence)

private theorem Token.Begins.not_opens {t : Token} {e : Expr} (h : t.Begins e)
    (regular : t.Regular) : ¬ t.spells "(" := by
  intro opening
  have operator := regular.kind_of_spells_operator (by decide) opening
  obtain kind | kind | kind := h.kind <;> rw [operator] at kind <;> cases kind

namespace Part

/-- That a part is spelled by the front of a token list, and where the rest of the list begins. -/
def Spelled (mode : Terminators) : Part → List Token → List Token → Prop
  | expression e => Derives (.expression 1 e)
  | statement s => Builds mode (.statement s)
  | method m => Builds mode (.routine m)
  | signature s => Heads mode s
  | field f => Fields mode f
  | param p => fun ts rest => ∃ name colon t, ts = name :: colon :: t :: rest ∧
      name.kind = .identifier ∧ name.text = p.name ∧ colon.spells ":" ∧
      typeOf? t = some p.type.type
  | type r => fun ts rest => ∃ t, ts = t :: rest ∧ typeOf? t = some r.type

/-- The token of a stretch that gives its place to the part that is spelled there: the first one,
or for an expression the first one behind the parentheses that open there. -/
def leading : Part → List Token → Option Token
  | expression _, text => (text.dropWhile (·.spells "(")).head?
  | statement _, text | method _, text | signature _, text | field _, text | param _, text
  | type _, text => text.head?

/-- That a part is spelled by a stretch of the tokens and has the place of the leading token there,
which is the leftmost atom of an expression. -/
def StandsIn (mode : Terminators) (tokens : List Token) (part : Part) : Prop :=
  ∃ front text rest, tokens = front ++ (text ++ rest) ∧ part.Spelled mode (text ++ rest) rest ∧
    ∃ t, part.leading text = some t ∧ part.position = t.position ∧
      ∀ e, part = expression e → t.Begins e

variable {mode : Terminators} {part : Part} {t : Token} {ts us rest : List Token}

private theorem StandsIn.of_suffix (h : part.StandsIn mode us) (suffix : us <:+ ts) :
    part.StandsIn mode ts := by
  obtain ⟨front, text, rest, rfl, found⟩ := h
  obtain ⟨before, rfl⟩ := suffix
  exact ⟨before ++ front, text, rest, (List.append_assoc _ _ _).symm, found⟩

private theorem standsIn_cons (other : ∀ e, part ≠ expression e)
    (spelled : part.Spelled mode (t :: ts) rest) (suffix : rest <:+ ts)
    (placed : part.position = t.position) : part.StandsIn mode (t :: ts) := by
  obtain ⟨text, rfl⟩ := suffix
  refine ⟨[], t :: text, rest, rfl, spelled, t, ?_, placed, fun e same => absurd same (other e)⟩
  cases part with
  | expression e => exact absurd rfl (other e)
  | _ => rfl

end Part

def PartsStandIn (mode : Terminators) (tokens : List Token) (parts : List Part) : Prop :=
  ∀ part ∈ parts, part.StandsIn mode tokens

def BlockStandsIn (mode : Terminators) (tokens : List Token) (body : List Stmt) : Prop :=
  ∃ ts rest, ts <:+ tokens ∧ Stream ts ∧ Builds mode (.block body) ts rest

/-- That the parts of a node and the blocks in it stand in the tokens. -/
structure Node.StandsIn (mode : Terminators) (tokens : List Token) (x : Node) : Prop where
  parts : PartsStandIn mode tokens x.parts
  blocks : ∀ body ∈ x.blocks, BlockStandsIn mode tokens body

def NodesStandIn (mode : Terminators) (tokens : List Token) (nodes : List Node) : Prop :=
  ∀ x ∈ nodes, x.StandsIn mode tokens

section Suffix

variable {mode : Terminators} {ts us rest : List Token}

private theorem PartsStandIn.of_suffix {parts : List Part} (h : PartsStandIn mode us parts)
    (suffix : us <:+ ts) : PartsStandIn mode ts parts :=
  fun part there => (h part there).of_suffix suffix

private theorem BlockStandsIn.of_suffix {body : List Stmt} (h : BlockStandsIn mode us body)
    (suffix : us <:+ ts) : BlockStandsIn mode ts body := by
  obtain ⟨us, rest, inside, built⟩ := h
  exact ⟨us, rest, inside.trans suffix, built⟩

private theorem NodesStandIn.of_suffix {nodes : List Node} (h : NodesStandIn mode us nodes)
    (suffix : us <:+ ts) : NodesStandIn mode ts nodes :=
  fun x there => ⟨(h x there).parts.of_suffix suffix,
    fun body inside => ((h x there).blocks body inside).of_suffix suffix⟩

end Suffix

namespace Grammar

variable {mode : Terminators} {ts rest : List Token}

/-- That what a phrase makes begins with its leftmost atom behind parentheses that open only, or
has that of what it is made of. -/
def Phrase.Begun : Phrase → List Token → List Token → Prop
  | atom e, ts, rest | expression _ e, ts, rest => ∃ parens t more,
      ts = parens ++ t :: more ++ rest ∧ (∀ p ∈ parens, p.spells "(") ∧ t.Begins e
  | accesses a e, _, _ | operands _ a e, _, _ => ∀ t : Token, t.Begins a → t.Begins e
  | items _, _, _ | arguments _, _, _ => True

private theorem Derives.begun {phrase : Phrase} (h : Derives phrase ts rest) :
    phrase.Begun ts rest := by
  induction h with
  | integer kind | string kind | template kind | identifier kind =>
    exact ⟨[], _, [], rfl, nofun, kind, rfl, rfl⟩
  | functionCall kind called =>
    obtain ⟨more, rfl⟩ := called.suffix
    exact ⟨[], _, more, rfl, nofun, kind, rfl, rfl⟩
  | @group p q _ _ _ opening _ _ ih =>
    obtain ⟨parens, t, more, rfl, opened, begins⟩ := ih
    refine ⟨p :: parens, t, more ++ [q], by simp, ?_, begins⟩
    exact List.forall_mem_cons.mpr ⟨opening, opened⟩
  | noAccess | noOperand => exact fun _ => id
  | fieldAccess _ _ _ _ ih | methodCall _ _ _ _ _ _ ih | operand _ _ _ _ _ _ ih =>
    exact fun t begins => ih t ⟨begins, begins.position⟩
  | creation _ _ _ _ _ _ ih => exact ih
  | primary _ others ihFirst ih | operation _ _ _ others ihFirst ih =>
    obtain ⟨parens, t, more, rfl, opened, begins⟩ := ihFirst
    obtain ⟨behind, rfl⟩ := others.suffix
    exact ⟨parens, t, more ++ behind, by simp, opened, ih t begins⟩
  | noItem | item | arguments => trivial

private theorem Derives.lowest {level : Nat} {e : Expr}
    (h : Derives (.expression level e) ts rest) : Derives (.expression 1 e) ts rest := by
  cases id h with
  | primary => exact h.loosen (by decide) Nat.one_pos le_rfl
  | operation positive below => exact h.loosen positive Nat.one_pos below.le

private theorem Derives.standsIn {level : Nat} {e : Expr}
    (h : Derives (.expression level e) ts rest) (stream : Stream ts) :
    (Node.expression e).StandsIn mode ts := by
  obtain ⟨parens, t, more, rfl, opened, begins⟩ := h.begun
  rw [List.append_assoc] at stream
  have atom := begins.not_opens stream.of_append.regular
  have leading : (Part.expression e).leading (parens ++ t :: more) = some t := by
    simp [Part.leading, List.dropWhile_append_of_pos opened, atom]
  refine ⟨List.forall_mem_singleton.mpr ?_, nofun⟩
  refine ⟨[], parens ++ t :: more, rest, rfl, h.lowest, t, leading, begins.position, ?_⟩
  rintro _ ⟨⟩
  exact begins

/-- That the nodes of what a phrase makes stand in the tokens. What is made of a receiver or a left
operand stands where that begins. -/
def Phrase.NodesStandIn (mode : Terminators) : Phrase → List Token → Prop
  | atom e, ts | expression _ e, ts => ScriptLang.NodesStandIn mode ts e.nodes
  | accesses a e, ts => ∀ us, Stream us → Derives (.expression primaryPrecedence a) us ts →
      ScriptLang.NodesStandIn mode us a.nodes → ScriptLang.NodesStandIn mode us e.nodes
  | operands level a e, ts => ∀ us, Stream us → Derives (.expression level a) us ts →
      ScriptLang.NodesStandIn mode us a.nodes → ScriptLang.NodesStandIn mode us e.nodes
  | items args, ts | arguments args, ts => ScriptLang.NodesStandIn mode ts (argNodes args)

private theorem Derives.nodesStandIn (mode : Terminators) {phrase : Phrase}
    (h : Derives phrase ts rest) (stream : Stream ts) : phrase.NodesStandIn mode ts := by
  have atom {a : Expr} {us behind : List Token} (first : Derives (.atom a) us behind) :
      Stream us → (Node.expression a).StandsIn mode us :=
    (Derives.primary first .noAccess).standsIn
  -- A receiver or left operand has been read when accesses or operands begin, so these cases are
  -- given the list `us` where it begins and read on from there.
  induction h with
  | integer kind => exact List.forall_mem_singleton.mpr (atom (.integer kind) stream)
  | string kind unmarked =>
    exact List.forall_mem_singleton.mpr (atom (.string kind unmarked) stream)
  | template kind marked =>
    exact List.forall_mem_singleton.mpr (atom (.template kind marked) stream)
  | identifier kind closed =>
    exact List.forall_mem_singleton.mpr (atom (.identifier kind closed) stream)
  | functionCall kind called ih =>
    have args := ih (leaves_name kind stream).1
    exact List.forall_mem_cons.mpr
      ⟨atom (.functionCall kind called) stream, args.of_suffix (List.suffix_cons _ _)⟩
  | group opening _ _ ih | arguments opening _ _ ih =>
    exact (ih (leaves_sign opening stream).1).of_suffix (List.suffix_cons _ _)
  | noAccess | noOperand => exact fun _ _ _ => id
  | fieldAccess dot kind closed _ ih =>
    intro us start first receiver
    have member := (leaves_sign dot stream).1
    have taken := first.append_accesses (.fieldAccess dot kind closed .noAccess)
    exact ih (leaves_name kind member).1 us start taken
      (List.forall_mem_cons.mpr ⟨taken.standsIn start, receiver⟩)
  | methodCall dot kind other called _ ihArgs ih =>
    intro us start first receiver
    have member := (leaves_sign dot stream).1
    have inner := (leaves_name kind member).1
    have taken := first.append_accesses (.methodCall dot kind other called .noAccess)
    have args := ((ihArgs inner).of_suffix ⟨[_, _], rfl⟩).of_suffix first.suffix
    exact ih (called.leaves inner).1 us start taken
      (List.forall_mem_cons.mpr ⟨taken.standsIn start, List.forall_mem_append.mpr ⟨receiver, args⟩⟩)
  | creation dot kind new called _ ihArgs ih =>
    intro us start first _
    have member := (leaves_sign dot stream).1
    have inner := (leaves_name kind member).1
    have taken := first.append_accesses (.creation dot kind new called .noAccess)
    have args := ((ihArgs inner).of_suffix ⟨[_, _], rfl⟩).of_suffix first.suffix
    exact ih (called.leaves inner).1 us start taken
      (List.forall_mem_cons.mpr ⟨taken.standsIn start, args⟩)
  | operand positive precedence spelled right _ ihRight ih =>
    intro us start first left
    subst precedence
    have known := Nat.ne_of_gt positive
    have next := (leaves_operator spelled known stream).1
    have taken := first.append_operand known spelled right
    have operand := ((ihRight next).of_suffix (List.suffix_cons _ _)).of_suffix first.suffix
    exact ih (right.leaves next).1 us start taken
      (List.forall_mem_cons.mpr ⟨taken.standsIn start, List.forall_mem_append.mpr ⟨left, operand⟩⟩)
  | primary first _ ihFirst ih =>
    exact ih (first.leaves stream).1 _ stream (.primary first .noAccess) (ihFirst stream)
  | operation positive below first _ ihFirst ih =>
    exact ih (first.leaves stream).1 _ stream (.operation positive below first .noOperand)
      (ihFirst stream)
  | noItem => exact List.forall_mem_nil _
  | item first _ ihFirst ih =>
    have others := (ih (first.leaves stream).1).of_suffix first.suffix
    exact List.forall_mem_append.mpr ⟨ihFirst stream, others⟩

private theorem Reaches.exists_cons (h : Reaches ts rest) (leaves : Leaves 1 ts rest)
    (stream : Stream ts) : ∃ t more, ts = t :: more ∧ rest <:+ more := by
  obtain ⟨-, shorter⟩ := leaves stream
  obtain ⟨-, front, rfl⟩ := h stream
  cases front with
  | nil => exact absurd shorter (Nat.not_succ_le_self _)
  | cons t front => exact ⟨t, front ++ rest, rfl, front, rfl⟩

section Declaration

private theorem typeRef_standsIn (mode : Terminators) {t : Token} {type : Ty}
    (found : typeOf? t = some type) (ts : List Token) :
    (Part.type ⟨t.position, type⟩).StandsIn mode (t :: ts) :=
  Part.standsIn_cons nofun ⟨t, rfl, found⟩ List.suffix_rfl rfl

private theorem Parameters.partsStandIn (mode : Terminators) {ps : List Param}
    (h : Parameters ps ts rest) : PartsStandIn mode ts (ps.flatMap Param.parts) := by
  induction h with
  | none => exact List.forall_mem_nil _
  | @param name colon t _ ts mid _ _ kind spelled found strays _ ih =>
    have behind := ih.of_suffix (Transfers.suffix strays.transfers)
    have type := (typeRef_standsIn mode found ts).of_suffix ⟨[name, colon], rfl⟩
    rw [List.flatMap_cons]
    refine List.forall_mem_cons.mpr ⟨?_, List.forall_mem_cons.mpr ⟨type, ?_⟩⟩
    · exact Part.standsIn_cons nofun ⟨name, colon, t, rfl, kind, rfl, spelled, found⟩
        ⟨[colon, t], rfl⟩ rfl
    · exact behind.of_suffix ⟨[name, colon, t], rfl⟩

private theorem Heads.partsStandIn {s : Signature} (h : Heads mode s ts rest) :
    PartsStandIn mode ts s.parts := by
  cases h with
  | @head d name p _ _ _ ts mid _ ps _ _ _ params _ _ found _ =>
    have behind := (List.suffix_cons _ _).trans (Transfers.suffix params.transfers)
    have returns := (typeRef_standsIn mode found mid).of_suffix behind
    have all : PartsStandIn mode ts (ps.flatMap Param.parts ++ [_]) :=
      List.forall_mem_append.mpr
        ⟨params.partsStandIn mode, List.forall_mem_singleton.mpr returns⟩
    exact all.of_suffix ⟨[d, name, p], rfl⟩

private theorem Heads.position {s : Signature} {t : Token} (h : Heads mode s (t :: ts) rest) :
    s.position = t.position := by
  cases h
  rfl

private theorem Builds.position_routine {r : Routine} {t : Token}
    (h : Builds mode (.routine r) (t :: ts) rest) : r.signature.position = t.position := by
  cases h with
  | routine head => exact head.position

private theorem Builds.position_statement {s : Stmt} {t : Token}
    (h : Builds mode (.statement s) (t :: ts) rest) : s.position = t.position := by
  cases h with
  | function built => exact built.position_routine
  | _ => rfl

private theorem Signatures.partsStandIn {ss : List Signature} (h : Signatures mode ss ts rest)
    (stream : Stream ts) : PartsStandIn mode ts (ss.flatMap fun s => .signature s :: s.parts) := by
  induction h with
  | none => exact List.forall_mem_nil _
  | @more _ _ _ _ s _ blank first _ ih =>
    obtain ⟨streama, suffixa⟩ := Newlines.reaches blank stream
    obtain ⟨streamb, suffixb⟩ := first.reaches streama
    obtain ⟨t, more, rfl, inside⟩ := first.reaches.exists_cons first.leaves streama
    have own : (Part.signature s).StandsIn mode (t :: more) :=
      Part.standsIn_cons nofun first inside first.position
    have whole : PartsStandIn mode (t :: more) (.signature s :: s.parts) :=
      List.forall_mem_cons.mpr ⟨own, first.partsStandIn⟩
    rw [List.flatMap_cons]
    exact List.forall_mem_append.mpr
      ⟨whole.of_suffix suffixa, (ih streamb).of_suffix (suffixb.trans suffixa)⟩

private theorem Fields.partsStandIn {f : Field} (h : Fields mode f ts rest) (stream : Stream ts) :
    PartsStandIn mode ts f.parts := by
  obtain ⟨t, more, rfl, inside⟩ := h.reaches.exists_cons h.leaves stream
  have own : (Part.field f).StandsIn mode (t :: more) := by
    refine Part.standsIn_cons nofun h inside ?_
    cases h
    rfl
  cases h with
  | field found =>
    exact List.forall_mem_cons.mpr
      ⟨own, List.forall_mem_singleton.mpr (typeRef_standsIn mode found _)⟩

end Declaration

private theorem Builds.standsIn_statement {s : Stmt} (h : Builds mode (.statement s) ts rest)
    (stream : Stream ts) : (Part.statement s).StandsIn mode ts := by
  obtain ⟨t, more, rfl, inside⟩ := h.reaches.exists_cons h.leaves stream
  exact Part.standsIn_cons nofun h inside h.position_statement

private theorem Builds.standsIn_routine {r : Routine} (h : Builds mode (.routine r) ts rest)
    (stream : Stream ts) : (Part.method r).StandsIn mode ts := by
  obtain ⟨t, more, rfl, inside⟩ := h.reaches.exists_cons h.leaves stream
  exact Part.standsIn_cons nofun h inside h.position_routine

/-- That what a construct makes stands in the tokens, with all that is in it. -/
def Construct.StandsIn (mode : Terminators) : Construct → List Token → Prop
  | statement s, ts => NodesStandIn mode ts s.nodes
  | block body, ts => NodesStandIn mode ts (blockNodes body)
  | routine r, ts => NodesStandIn mode ts r.nodes ∧ PartsStandIn mode ts r.parts ∧
      BlockStandsIn mode ts r.body
  | members fields methods, ts => NodesStandIn mode ts (methodNodes methods) ∧
      PartsStandIn mode ts (fields.flatMap Field.parts) ∧
      PartsStandIn mode ts (methods.flatMap Routine.parts) ∧
      ∀ m ∈ methods, BlockStandsIn mode ts m.body

private theorem Builds.standsIn {construct : Construct} (h : Builds mode construct ts rest)
    (stream : Stream ts) : construct.StandsIn mode ts := by
  have node {s : Stmt} {us behind : List Token} (built : Builds mode (.statement s) us behind)
      (start : Stream us) (declared : PartsStandIn mode us s.declaredParts)
      (blocks : ∀ body ∈ s.blocks, BlockStandsIn mode us body) :
      (Node.statement s).StandsIn mode us :=
    ⟨List.forall_mem_cons.mpr ⟨built.standsIn_statement start, declared⟩, blocks⟩
  have empty {α : Type} {q : α → Prop} : ∀ x ∈ ([] : List α), q x := List.forall_mem_nil q
  induction h with
  | @declaration t name q _ ts _ _ _ found capital kind spelled value ended =>
    have inner :=
      ((leaves_type found).trans ((leaves_name kind).trans (leaves_sign spelled)) stream).1
    have type := List.forall_mem_singleton.mpr (typeRef_standsIn mode found (name :: q :: ts))
    have here := node (.declaration found capital kind spelled value ended) stream type empty
    exact List.forall_mem_cons.mpr
      ⟨here, (value.nodesStandIn mode inner).of_suffix ⟨[t, name, q], rfl⟩⟩
  | function built ih =>
    obtain ⟨nodes, parts, body⟩ := ih stream
    have here := node (.function built) stream (List.forall_mem_cons.mp parts).2
      (List.forall_mem_singleton.mpr body)
    exact List.forall_mem_cons.mpr ⟨here, nodes⟩
  | conditional spelled condition ended built closed closeEnded ih =>
    obtain ⟨streama, suffixa⟩ := (leaves_sign spelled).reaches_tail stream
    obtain ⟨streamb, inside⟩ := condition.reaches.trans ended.reaches streama
    have suffixb := inside.trans suffixa
    have tested := (condition.nodesStandIn mode streama).of_suffix suffixa
    have thenNodes := (ih streamb).of_suffix suffixb
    have here := node (.conditional spelled condition ended built closed closeEnded) stream empty
      (List.forall_mem_singleton.mpr ⟨_, _, suffixb, streamb, built⟩)
    exact List.forall_mem_cons.mpr ⟨here, List.forall_mem_append.mpr
      ⟨tested, List.forall_mem_append.mpr ⟨thenNodes, empty⟩⟩⟩
  | alternative spelled condition ended built other otherEnded elseBuilt closed closeEnded ihThen
      ihElse =>
    obtain ⟨streama, suffixa⟩ := (leaves_sign spelled).reaches_tail stream
    obtain ⟨streamb, inside⟩ := condition.reaches.trans ended.reaches streama
    obtain ⟨streamd, behind⟩ := built.reaches.trans
      ((leaves_sign other).reaches_tail.trans otherEnded.reaches) streamb
    have suffixb := inside.trans suffixa
    have suffixd := behind.trans suffixb
    have tested := (condition.nodesStandIn mode streama).of_suffix suffixa
    have thenNodes := (ihThen streamb).of_suffix suffixb
    have elseNodes := (ihElse streamd).of_suffix suffixd
    have here := node (.alternative spelled condition ended built other otherEnded elseBuilt closed
      closeEnded) stream empty (List.forall_mem_cons.mpr ⟨⟨_, _, suffixb, streamb, built⟩,
        List.forall_mem_singleton.mpr ⟨_, _, suffixd, streamd, elseBuilt⟩⟩)
    exact List.forall_mem_cons.mpr ⟨here, List.forall_mem_append.mpr
      ⟨tested, List.forall_mem_append.mpr ⟨thenNodes, elseNodes⟩⟩⟩
  | classDecl spelled kind face ended built closed closeEnded ih =>
    have body := (leaves_sign spelled).reaches_tail.trans
      ((leaves_name kind).reaches_tail.trans (face.reaches.trans ended.reaches))
    obtain ⟨streamb, suffixb⟩ := body stream
    obtain ⟨nodes, fields, methods, bodies⟩ := ih streamb
    have here := node (.classDecl spelled kind face ended built closed closeEnded) stream
      (PartsStandIn.of_suffix (List.forall_mem_append.mpr ⟨fields, methods⟩) suffixb)
      (List.forall_mem_map.mpr fun m among => (bodies m among).of_suffix suffixb)
    exact List.forall_mem_cons.mpr ⟨here, nodes.of_suffix suffixb⟩
  | interfaceDecl spelled kind ended listed closed closeEnded =>
    have body := (leaves_sign spelled).reaches_tail.trans
      ((leaves_name kind).reaches_tail.trans ended.reaches)
    obtain ⟨streama, suffixa⟩ := body stream
    have here := node (.interfaceDecl spelled kind ended listed closed closeEnded) stream
      ((listed.partsStandIn streama).of_suffix suffixa) empty
    exact List.forall_mem_singleton.mpr here
  | assignment free target spelled value ended =>
    have between := target.reaches.trans (leaves_sign spelled).reaches_tail
    obtain ⟨streamb, suffixb⟩ := between stream
    have here := node (.assignment free target spelled value ended) stream empty empty
    exact List.forall_mem_cons.mpr ⟨here, List.forall_mem_append.mpr
      ⟨target.nodesStandIn mode stream, (value.nodesStandIn mode streamb).of_suffix suffixb⟩⟩
  | expression free e ended =>
    have here := node (.expression free e ended) stream empty empty
    exact List.forall_mem_cons.mpr ⟨here, e.nodesStandIn mode stream⟩
  | routine head built closed closeEnded ih =>
    obtain ⟨streama, suffixa⟩ := head.reaches stream
    have here := (Builds.routine head built closed closeEnded).standsIn_routine stream
    exact ⟨(ih streama).of_suffix suffixa, List.forall_mem_cons.mpr ⟨here, head.partsStandIn⟩,
      ⟨_, _, suffixa, streama, built⟩⟩
  | noStatement => exact empty
  | statement blank first _ ihFirst ih =>
    obtain ⟨streama, suffixa⟩ := Newlines.reaches blank stream
    obtain ⟨streamb, suffixb⟩ := first.reaches streama
    exact List.forall_mem_append.mpr
      ⟨(ihFirst streama).of_suffix suffixa, (ih streamb).of_suffix (suffixb.trans suffixa)⟩
  | noMember => exact ⟨empty, empty, empty, empty⟩
  | field blank first _ ih =>
    obtain ⟨streama, suffixa⟩ := Newlines.reaches blank stream
    obtain ⟨streamb, suffixb⟩ := first.reaches streama
    have later := suffixb.trans suffixa
    obtain ⟨nodes, fields, methods, bodies⟩ := ih streamb
    have own := (first.partsStandIn streama).of_suffix suffixa
    refine ⟨nodes.of_suffix later, ?_, methods.of_suffix later,
      fun m among => (bodies m among).of_suffix later⟩
    rw [List.flatMap_cons]
    exact List.forall_mem_append.mpr ⟨own, fields.of_suffix later⟩
  | method blank first _ ihFirst ih =>
    obtain ⟨streama, suffixa⟩ := Newlines.reaches blank stream
    obtain ⟨streamb, suffixb⟩ := first.reaches streama
    have later := suffixb.trans suffixa
    obtain ⟨inside, parts, body⟩ := ihFirst streama
    obtain ⟨nodes, fields, methods, bodies⟩ := ih streamb
    refine ⟨?_, fields.of_suffix later, ?_, ?_⟩
    · exact List.forall_mem_append.mpr ⟨inside.of_suffix suffixa, nodes.of_suffix later⟩
    · rw [List.flatMap_cons]
      exact List.forall_mem_append.mpr ⟨parts.of_suffix suffixa, methods.of_suffix later⟩
    · exact List.forall_mem_cons.mpr
        ⟨body.of_suffix suffixa, fun m among => (bodies m among).of_suffix later⟩

private theorem Builds.increasing {body : List Stmt} (h : Builds mode (.block body) ts rest)
    (stream : Stream ts) (ordered : Ordered ts) :
    (body.Pairwise fun s u => s.position.Before u.position) ∧
      ∀ s ∈ body, ∃ t ∈ ts, s.position = t.position := by
  generalize same : Construct.block body = construct at h
  -- That every place is one of a token is what puts the later statements behind the first one.
  induction h generalizing body with
  | noStatement =>
    cases same
    exact ⟨.nil, nofun⟩
  | statement blank first _ _ ih =>
    cases same
    obtain ⟨streama, suffixa⟩ := Newlines.reaches blank stream
    obtain ⟨streamb, -⟩ := first.reaches streama
    obtain ⟨t, more, rfl, inside⟩ := first.reaches.exists_cons first.leaves streama
    have placed := first.position_statement
    obtain ⟨behind, ordered⟩ := List.pairwise_cons.mp (ordered.sublist suffixa.sublist)
    obtain ⟨others, within⟩ := ih streamb (ordered.sublist inside.sublist) rfl
    refine ⟨List.pairwise_cons.mpr ⟨fun u later => ?_, others⟩,
      List.forall_mem_cons.mpr ⟨⟨t, suffixa.subset List.mem_cons_self, placed⟩, fun u later => ?_⟩⟩
    · obtain ⟨v, there, same⟩ := within u later
      rw [placed, same]
      exact behind v (inside.subset there)
    · obtain ⟨v, there, same⟩ := within u later
      exact ⟨v, suffixa.subset (List.mem_cons_of_mem t (inside.subset there)), same⟩
  | _ => cases same

end Grammar

namespace Program

/-- Every part of an accepted program is spelled by a stretch of the tokens of its source and has
the place of the leading token there, and in each of its blocks the places of the statements
increase. -/
theorem standsIn_of_ofSource {mode : Terminators} {source : String} {p : Program}
    (h : ofSource mode source = .ok p) :
    ∃ tokens, tokenize source = .ok tokens ∧ (∀ part ∈ p.parts, part.StandsIn mode tokens) ∧
      ∀ body ∈ p.blocks, body.Pairwise fun s u => s.position.Before u.position := by
  obtain ⟨tokens, tokenized, parsed⟩ := ofSource_eq_ok_iff.mp h
  have stream := stream_of_tokenize tokenized
  have ordered := ordered_of_tokenize tokenized
  obtain ⟨last, -, built⟩ := (ofTokens_eq_ok_iff stream).mp parsed
  have nodes := built.standsIn stream
  refine ⟨tokens, tokenized, ?_, List.forall_mem_cons.mpr ⟨(built.increasing stream ordered).1, ?_⟩⟩
  · intro part there
    obtain ⟨x, among, inside⟩ := List.mem_flatMap.mp there
    exact (nodes x among).parts part inside
  · intro body there
    obtain ⟨x, among, inside⟩ := List.mem_flatMap.mp there
    obtain ⟨ts, rest, suffix, stream, built⟩ := (nodes x among).blocks body inside
    exact (built.increasing stream (ordered.sublist suffix.sublist)).1

theorem standsIn_of_ofSource_of_leading_group :
    ∃ p, ofSource .strict "(1 + 2) * 3\n(4)" = .ok p ∧
      p.statements.map Stmt.position = [⟨1, 1⟩, ⟨2, 1⟩] ∧
      ∃ tokens, tokenize "(1 + 2) * 3\n(4)" = .ok tokens ∧
        (∀ part ∈ p.parts, part.StandsIn .strict tokens) ∧
        ∀ body ∈ p.blocks, body.Pairwise fun s u => s.position.Before u.position := by
  have tokenized : tokenize "(1 + 2) * 3\n(4)" = .ok [
      ⟨.operator, "(", ⟨1, 1⟩⟩, ⟨.integer, "1", ⟨1, 2⟩⟩, ⟨.operator, "+", ⟨1, 4⟩⟩,
      ⟨.integer, "2", ⟨1, 6⟩⟩, ⟨.operator, ")", ⟨1, 7⟩⟩, ⟨.operator, "*", ⟨1, 9⟩⟩,
      ⟨.integer, "3", ⟨1, 11⟩⟩, ⟨.newline, "\n", ⟨1, 12⟩⟩, ⟨.operator, "(", ⟨2, 1⟩⟩,
      ⟨.integer, "4", ⟨2, 2⟩⟩, ⟨.operator, ")", ⟨2, 3⟩⟩, ⟨.endOfInput, "", ⟨2, 4⟩⟩] := by
    show tokensFrom .first ['(', '1', ' ', '+', ' ', '2', ')', ' ', '*', ' ', '3', '\n', '(', '4',
      ')'] = _
    iterate 15 refine tokensFrom_cons rfl rfl ?_
    exact tokensFrom_nil _
  have parsed : ofSource .strict "(1 + 2) * 3\n(4)" = .ok ⟨[
      .expression ⟨1, 1⟩ (.binary ⟨1, 2⟩ .multiply
        (.binary ⟨1, 2⟩ .add (.integer ⟨1, 2⟩ 1) (.integer ⟨1, 6⟩ 2)) (.integer ⟨1, 11⟩ 3)),
      .expression ⟨2, 1⟩ (.integer ⟨2, 2⟩ 4)]⟩ :=
    ofSource_eq_ok_iff.mpr ⟨_, tokenized, rfl⟩
  exact ⟨_, parsed, rfl, standsIn_of_ofSource parsed⟩

end Program

end ScriptLang
