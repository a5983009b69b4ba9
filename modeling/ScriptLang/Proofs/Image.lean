import ScriptLang.Proofs.Canonical.RoundTrip

/-!
The programs that texts spell are the well-formed ones. The canonical text of a program does not
show that, since it may read as another program where one argument captures the next. Here every
operand and every argument is put between parentheses, so that nothing behind it runs into it.
-/

set_option autoImplicit false
set_option relaxedAutoImplicit false

namespace ScriptLang

open Grammar
open Operator (primaryPrecedence)

/-- That some text is cut into tokens, whatever text comes after it. -/
def Writable (ts : List Token) : Prop :=
  ∃ text : List Char, ∀ ⦃rest : List Char⦄ ⦃us : List Token⦄, Cut rest us →
    Cut (text ++ rest) (ts ++ us)

namespace Writable

variable {ts us : List Token} {t : Token} {text : String} {lines : List String}

private theorem nil : Writable [] :=
  ⟨[], fun _ _ cut => cut⟩

private theorem append (first : Writable ts) (second : Writable us) : Writable (ts ++ us) := by
  obtain ⟨text, cut⟩ := first
  obtain ⟨text', cut'⟩ := second
  refine ⟨text ++ text', fun rest vs behind => ?_⟩
  rw [List.append_assoc, List.append_assoc]
  exact cut (cut' behind)

private theorem cons (first : Writable [t]) (others : Writable ts) : Writable (t :: ts) :=
  first.append others

private theorem of_spells (h : Spells text ts) : Writable ts :=
  ⟨text.toList ++ [' '], fun _ _ cut => by simpa using h breaks_space cut.space⟩

private theorem of_spellsLines (h : SpellsLines lines ts) : Writable ts :=
  ⟨_, fun _ _ cut => h cut⟩

private theorem name {n : String} (known : IsName n) : Writable [.name n] :=
  of_spells fun _ _ breaks cut => cut.name known breaks

private theorem reserved (word : String) (known : word ∈ Lexeme.reservedWords) :
    Writable [.reserved word] :=
  of_spells fun _ _ breaks cut => cut.reserved known breaks

private theorem opening : Writable [.sign "("] :=
  ⟨['('], fun _ _ cut => cut.opening⟩

private theorem closing : Writable [.sign ")"] :=
  ⟨[')'], fun _ _ cut => cut.closing⟩

private theorem dot : Writable [.sign "."] :=
  ⟨['.'], fun _ _ cut => cut.dot⟩

private theorem assignment : Writable [.sign "="] :=
  ⟨['=', ' '], fun _ _ cut => cut.sign_space (c := '=') (by decide)⟩

private theorem operator {operator : Operator} (known : operator.precedence ≠ 0) :
    Writable [.sign operator.sign] :=
  ⟨operator.sign.toList ++ [' '], fun _ _ cut => by simpa using Operator.cut_sign known cut⟩

private theorem feed : Writable [.feed] :=
  ⟨['\n'], fun _ _ cut => cut.newline⟩

private theorem ends : Writable endTokens :=
  (of_spells spells_end).append feed

private theorem exists_tokenize (h : Writable ts) : ∃ text tokens, tokenize text = .ok tokens ∧
    tokens.map Token.unplaced = ts ++ [.final] := by
  obtain ⟨text, cut⟩ := h
  have whole : Cut (String.ofList text).toList ts := by
    simpa [String.toList_ofList] using cut .done
  exact ⟨String.ofList text, whole.tokenize⟩

end Writable

/-- That a judgement holds of writable tokens, whatever stands behind them. -/
def Written (J : List Token → List Token → Prop) : Prop :=
  ∃ ts, Writable ts ∧ ∀ rest, J (ts ++ rest) rest

/-- That an expression is written down between parentheses. -/
def Grouped (e : Expr) : Prop :=
  ∃ ts, Writable (.sign "(" :: ts) ∧ ∀ rest, Derives (.atom e) (.sign "(" :: (ts ++ rest)) rest

section Expr

variable {e : Expr} {args : List Expr}

private theorem grouped_of_derives {ts : List Token} (writable : Writable ts)
    (derived : ∀ rest, Derives (.expression 1 e) (ts ++ .sign ")" :: rest) (.sign ")" :: rest)) :
    Grouped e := by
  refine ⟨ts ++ [.sign ")"], Writable.opening.cons (writable.append .closing), fun rest => ?_⟩
  rw [List.append_assoc]
  exact .group (spells_sign "(") (derived rest) (spells_sign ")")

private theorem grouped_leaf (h : e.WellFormed) (leaf : e.argumentLists = []) :
    Grouped e.unplaced := by
  refine grouped_of_derives (.of_spells (Expr.spells h 0)) fun rest => ?_
  have free : ∀ args ∈ e.argumentLists, Uncaptured args := by simp [leaf]
  exact Expr.derives h free 0 Nat.one_pos (by omega) (by decide)
    fun _ => not_opens_sign (by decide) rest

private theorem derives_group {ts : List Token}
    (derived : ∀ rest, Derives (.atom e) (.sign "(" :: (ts ++ rest)) rest) (rest : List Token) :
    Derives (.expression 1 e) (.sign "(" :: (ts ++ rest)) rest :=
  .of_atom (derived rest) .noAccess Nat.one_pos (by decide)

private theorem written_arguments (each : ∀ a ∈ args, Grouped a.unplaced) :
    Written (Derives (.arguments (relocateArgs (fun _ => .first) args))) := by
  have items : Written (Derives (.items (args.map Expr.unplaced))) := by
    induction args with
    | nil => exact ⟨[], .nil, fun rest => .noItem⟩
    | cons a more ih =>
      obtain ⟨ts, writable, derived⟩ := each a List.mem_cons_self
      obtain ⟨us, writable', others⟩ := ih fun b found => each b (List.mem_cons_of_mem a found)
      refine ⟨_, writable.append writable', fun rest => ?_⟩
      rw [List.append_assoc]
      exact .item (derives_group derived (us ++ rest)) (others rest)
  obtain ⟨ts, writable, derived⟩ := items
  refine ⟨.sign "(" :: (ts ++ [.sign ")"]), Writable.opening.cons (writable.append .closing),
    fun rest => ?_⟩
  rw [relocateArgs_eq_map, List.cons_append, List.append_assoc]
  exact .arguments (spells_sign "(") (derived _) (spells_sign ")")

/-- Every well-formed expression is written down with all its parts between parentheses. -/
private theorem Expr.grouped (h : e.WellFormed) : Grouped e.unplaced := by
  induction e with
  | integer p value => exact grouped_leaf h rfl
  | string p text => exact grouped_leaf h rfl
  | template p text => exact grouped_leaf h rfl
  | identifier p name => exact grouped_leaf h rfl
  | binary p operator left right ihLeft ihRight =>
    obtain ⟨known, left', right'⟩ := h
    obtain ⟨ts, writable, first⟩ := ihLeft left'
    obtain ⟨us, writable', second⟩ := ihRight right'
    have tight : operator.precedence < primaryPrecedence := by
      cases operator <;> simp [Operator.precedence, primaryPrecedence]
    refine grouped_of_derives (writable.append ((Writable.operator known).cons writable'))
      fun rest => ?_
    have operand := Derives.of_atom (n := operator.precedence) (first (.sign operator.sign ::
      (.sign "(" :: (us ++ .sign ")" :: rest)))) .noAccess (by omega) tight.le
    have operand' := Derives.of_atom (n := operator.precedence + 1) (second (.sign ")" :: rest))
      .noAccess (by omega) tight
    have whole := (operand.append_operand known (spells_sign _) operand').loosen (m := 1)
      (by omega) Nat.one_pos tight.le
    rw [Expr.position_unplaced] at whole
    simpa [Expr.relocate] using whole
  | functionCall p name args ih =>
    obtain ⟨ts, writable, called⟩ :=
      written_arguments fun a found => ih a found (argsWellFormed_iff.mp h.2 a found)
    refine grouped_of_derives ((Writable.name h.1).cons writable) fun rest => ?_
    exact .of_atom (.functionCall (t := .name name) rfl (called _)) .noAccess Nat.one_pos
      (by decide)
  | methodCall p receiver method args ihReceiver ih =>
    obtain ⟨receiver', known, other, args'⟩ := h
    obtain ⟨ts, writable, first⟩ := ihReceiver receiver'
    obtain ⟨us, writable', called⟩ :=
      written_arguments fun a found => ih a found (argsWellFormed_iff.mp args' a found)
    refine grouped_of_derives (writable.append (Writable.dot.cons ((Writable.name known).cons
      writable'))) fun rest => ?_
    have whole := Derives.of_atom (n := 1) (first (.sign "." :: .name method ::
      (us ++ .sign ")" :: rest))) (.methodCall (spells_sign ".") rfl other (called _) .noAccess)
      Nat.one_pos (by decide)
    rw [Expr.position_unplaced] at whole
    simpa [Expr.relocate] using whole
  | fieldAccess p receiver field ih =>
    obtain ⟨ts, writable, first⟩ := ih h.1
    refine grouped_of_derives (writable.append (Writable.dot.cons (Writable.name h.2)))
      fun rest => ?_
    have closed : ¬ Opens (.sign ")" :: rest) := not_opens_sign (by decide) rest
    have whole := Derives.of_atom (n := 1) (first (.sign "." :: .name field :: .sign ")" :: rest))
      (.fieldAccess (spells_sign ".") rfl closed .noAccess) Nat.one_pos (by decide)
    rw [Expr.position_unplaced] at whole
    simpa [Expr.relocate] using whole
  | creation p className args ih =>
    obtain ⟨ts, writable, called⟩ :=
      written_arguments fun a found => ih a found (argsWellFormed_iff.mp h.2 a found)
    refine grouped_of_derives ((Writable.name h.1).cons (Writable.dot.cons
      ((Writable.name isName_new).cons writable))) fun rest => ?_
    have closed : ¬ Opens (.sign "." :: .name "new" :: (ts ++ .sign ")" :: rest)) :=
      not_opens_sign (by decide) _
    exact .of_atom (.identifier (t := .name className) rfl closed)
      (.creation (spells_sign ".") rfl rfl (called _) .noAccess) Nat.one_pos (by decide)

end Expr

section Statements

variable (mode : Terminators)

private theorem written_block {body : List Stmt}
    (each : ∀ s ∈ body, Written (Builds mode (.statement s.unplaced))) :
    Written (Builds mode (.block (relocateBlock (fun _ => .first) body))) := by
  induction body with
  | nil => exact ⟨[], .nil, fun rest => .noStatement .none⟩
  | cons s more ih =>
    obtain ⟨ts, writable, first⟩ := each s List.mem_cons_self
    obtain ⟨us, writable', others⟩ := ih fun t found => each t (List.mem_cons_of_mem s found)
    refine ⟨_, writable.append writable', fun rest => ?_⟩
    rw [List.append_assoc]
    exact .statement .none (first _) (others rest)

private theorem written_routine {head : Signature} {body : List Stmt} (known : head.WellFormed)
    (inner : Written (Builds mode (.block (relocateBlock (fun _ => .first) body)))) :
    Written (Builds mode (.routine (Routine.relocate (fun _ => .first) ⟨head, body⟩))) := by
  obtain ⟨ts, writable, built⟩ := inner
  have headed : Writable (head.tokens ":") :=
    .of_spellsLines (Signature.spellsLines known .colon 0)
  refine ⟨_, headed.append (writable.append .ends), fun rest => ?_⟩
  rw [List.append_assoc, List.append_assoc]
  exact builds_routine_of_body (.inr rfl) (built (endTokens ++ rest))

private theorem written_members {fields : List Field} (methods : List Routine)
    (known : ∀ d ∈ fields, d.WellFormed)
    (each : ∀ m ∈ methods, Written (Builds mode (.routine (m.relocate fun _ => .first)))) :
    Written (Builds mode (.members (fields.map (Field.relocate fun _ => .first))
      (relocateMethods (fun _ => .first) methods))) := by
  induction fields with
  | nil =>
    induction methods with
    | nil => exact ⟨[], .nil, fun rest => .noMember .none⟩
    | cons m more ih =>
      obtain ⟨ts, writable, first⟩ := each m List.mem_cons_self
      obtain ⟨us, writable', others⟩ := ih fun n found => each n (List.mem_cons_of_mem m found)
      refine ⟨_, writable.append writable', fun rest => ?_⟩
      rw [List.append_assoc]
      exact .method .none (first _) (others rest)
  | cons d more ih =>
    obtain ⟨us, writable', others⟩ := ih fun b found => known b (List.mem_cons_of_mem d found)
    have writable : Writable d.tokens :=
      .of_spellsLines (Field.spellsLines (known d List.mem_cons_self) 0)
    refine ⟨_, writable.append writable', fun rest => ?_⟩
    rw [List.append_assoc]
    exact .field .none (fields_of_tokens mode d _) (others rest)

private theorem Stmt.written {s : Stmt} (h : s.WellFormed) :
    Written (Builds mode (.statement s.unplaced)) := by
  induction s with
  | declaration p type name value =>
    obtain ⟨typed, capital, known, value'⟩ := h
    obtain ⟨ts, writable, derived⟩ := Expr.grouped value'
    refine ⟨_, (Writable.of_spells (Ty.spells_display typed)).cons ((Writable.name known).cons
      (Writable.assignment.cons (writable.append .feed))), fun rest => ?_⟩
    simpa [Stmt.relocate, TypeRef.relocate] using
      builds_declaration capital (derives_group derived (.feed :: rest))
  | function head body ih =>
    obtain ⟨ts, writable, built⟩ := written_routine mode h.1
      (written_block mode fun s found => ih s found (blockWellFormed_iff.mp h.2 s found))
    exact ⟨ts, writable, fun rest => .function (built rest)⟩
  | conditional p condition thenBody elseBody ihThen ihElse =>
    obtain ⟨condition', then', else'⟩ := h
    obtain ⟨ts, writable, derived⟩ := Expr.grouped condition'
    obtain ⟨us, writable', built⟩ := written_block mode
      fun s found => ihThen s found (blockWellFormed_iff.mp then' s found)
    cases elseBody with
    | none =>
      refine ⟨_, (Writable.reserved "if" (by decide)).cons (writable.append
        (Writable.feed.cons (writable'.append .ends))), fun rest => ?_⟩
      simpa [Stmt.relocate, relocateElse] using
        builds_if (derives_group derived _) (built (endTokens ++ rest))
    | some body =>
      obtain ⟨vs, writable'', other⟩ := written_block mode
        fun s found => ihElse body rfl s found (blockWellFormed_iff.mp else' s found)
      refine ⟨_, (Writable.reserved "if" (by decide)).cons (writable.append
        (Writable.feed.cons (writable'.append ((Writable.reserved "else" (by decide)).cons
          (Writable.feed.cons (writable''.append .ends)))))), fun rest => ?_⟩
      have inner := built (.reserved "else" :: .feed :: (vs ++ (endTokens ++ rest)))
      simpa [Stmt.relocate, relocateElse] using
        builds_ifElse (derives_group derived _) inner (other (endTokens ++ rest))
  | classDecl p name face fields methods ih =>
    obtain ⟨known, knownFace, fields', methods'⟩ := h
    obtain ⟨ts, writable, built⟩ := written_members mode methods fields'
      fun m found => by
        have known := methodsWellFormed_iff.mp methods' m found
        obtain ⟨head, body⟩ := m
        exact written_routine mode known.1 (written_block mode fun s inside =>
          ih ⟨head, body⟩ found s inside (blockWellFormed_iff.mp known.2 s inside))
    refine ⟨_, (Writable.of_spells (spells_classHead known knownFace)).append
      (Writable.feed.cons (writable.append .ends)), fun rest => ?_⟩
    simpa [Stmt.relocate, ClassDecl.relocate] using builds_classDecl (built (endTokens ++ rest))
  | interfaceDecl decl =>
    refine ⟨decl.tokens, .of_spellsLines (InterfaceDecl.spellsLines h 0), fun rest => ?_⟩
    exact Stmt.builds (s := .interfaceDecl decl) h (List.forall_mem_nil _) rest
  | assignment p target value =>
    -- The target begins with a parenthesis, so nothing here looks like a declaration.
    obtain ⟨ts, writable, first⟩ := Expr.grouped h.1
    obtain ⟨us, writable', second⟩ := Expr.grouped h.2
    refine ⟨_, writable.append (Writable.assignment.cons (writable'.append .feed)), fun rest => ?_⟩
    have whole : Builds mode (.statement (.assignment .first _ _)) (.sign "(" :: _) rest :=
      .assignment (not_declaresObject_cons (by simp [Token.sign, Token.plain]) _)
        (derives_group first _) (spells_sign "=") (derives_group second _) (lineEnd_feed mode rest)
    simpa [Stmt.relocate] using whole
  | expression p e =>
    obtain ⟨ts, writable, derived⟩ := Expr.grouped h
    refine ⟨_, writable.append .feed, fun rest => ?_⟩
    have whole : Builds mode (.statement (.expression .first _)) (.sign "(" :: _) rest :=
      .expression (not_declaresObject_cons (by simp [Token.sign, Token.plain]) _)
        (derives_group derived _) (lineEnd_feed mode rest)
    simpa [Stmt.relocate] using whole

end Statements

namespace Program

/-- Every program that a text spells is well-formed, and every well-formed program is spelled, up to
places, by some text, with either kind of terminators. -/
theorem image_ofSource :
    (∀ mode source (p : Program), ofSource mode source = .ok p → p.WellFormed) ∧
    (∀ mode (p : Program), p.WellFormed →
      ∃ source q, ofSource mode source = .ok q ∧ q.unplaced = p.unplaced) := by
  refine ⟨fun mode source p => wellFormed_of_ofSource, fun mode p known => ?_⟩
  have body : Written (Builds mode (.block (relocateBlock (fun _ => .first) p.statements))) :=
    written_block mode fun s found => Stmt.written mode (blockWellFormed_iff.mp known s found)
  obtain ⟨ts, writable, built⟩ := body
  obtain ⟨source, tokens, cut, same⟩ := writable.exists_tokenize
  have derived : p.unplaced.Derived mode (ts ++ [.final]) := by
    have whole := built [.final]
    rw [relocateBlock_eq_map] at whole
    exact ⟨.final, rfl, whole⟩
  rw [← same] at derived
  exact ⟨source, (ofSource_iff_derived cut mode).mpr derived⟩

/-- A name as an argument in front of a sum whose field is taken: no canonical text spells them. -/
theorem image_ofSource_of_captured_argument :
    let p : Program := ⟨[.expression .first (.functionCall .first "f" [.identifier .first "a",
      .fieldAccess .first (.binary .first .add (.integer .first 1) (.integer .first 2)) "d"])]⟩
    p.WellFormed ∧ ∃ source q, ofSource .strict source = .ok q ∧ q.unplaced = p.unplaced := by
  intro p
  have f : IsName "f" := ⟨⟨'f', [], rfl, by decide, nofun⟩, by decide⟩
  have a : IsName "a" := ⟨⟨'a', [], rfl, by decide, nofun⟩, by decide⟩
  have d : IsName "d" := ⟨⟨'d', [], rfl, by decide, nofun⟩, by decide⟩
  have sum : (Expr.binary .first .add (.integer .first 1) (.integer .first 2)).WellFormed :=
    ⟨by decide, ⟨by decide, by decide⟩, by decide, by decide⟩
  have known : p.WellFormed := ⟨⟨f, a, ⟨sum, d⟩, trivial⟩, trivial⟩
  exact ⟨known, image_ofSource.2 .strict p known⟩

end Program

end ScriptLang
