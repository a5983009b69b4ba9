import ScriptLang.Proofs.Canonical.RoundTrip
import ScriptLang.Proofs.Outline.Legible
import ScriptLang.Proofs.Program.Relocation

/-!
What the outline of a program tells. It shows every node, every field and every place but the
places of the types, which it writes as their bare names. Programs that were read from texts have
the same outline exactly if they are the same once all their types are put at one place.
-/

set_option autoImplicit false
set_option relaxedAutoImplicit false

namespace ScriptLang

abbrev TypeRef.unplaced (r : TypeRef) : TypeRef :=
  r.relocate fun _ => .first

def Param.unplaceType (p : Param) : Param :=
  ⟨p.position, p.name, p.type.unplaced⟩

def Field.unplaceType (d : Field) : Field :=
  ⟨d.position, d.name, d.type.unplaced⟩

def Signature.unplaceTypes (s : Signature) : Signature :=
  ⟨s.position, s.name, s.params.map Param.unplaceType, s.returns.unplaced⟩

def InterfaceDecl.unplaceTypes (d : InterfaceDecl) : InterfaceDecl :=
  ⟨d.position, d.name, d.methods.map Signature.unplaceTypes⟩

mutual

def Stmt.unplaceTypes : Stmt → Stmt
  | .declaration p type name value => .declaration p type.unplaced name value
  | .function routine => .function routine.unplaceTypes
  | .conditional p condition thenBody elseBody =>
    .conditional p condition (unplaceTypesBlock thenBody) (unplaceTypesElse elseBody)
  | .classDecl decl => .classDecl decl.unplaceTypes
  | .interfaceDecl decl => .interfaceDecl decl.unplaceTypes
  | .assignment p target value => .assignment p target value
  | .expression p expr => .expression p expr

def Routine.unplaceTypes : Routine → Routine
  | ⟨head, body⟩ => ⟨head.unplaceTypes, unplaceTypesBlock body⟩

def ClassDecl.unplaceTypes : ClassDecl → ClassDecl
  | ⟨p, name, implements, fields, methods⟩ =>
    ⟨p, name, implements, fields.map Field.unplaceType, unplaceTypesMethods methods⟩

def unplaceTypesMethods : List Routine → List Routine
  | [] => []
  | m :: more => m.unplaceTypes :: unplaceTypesMethods more

def unplaceTypesBlock : List Stmt → List Stmt
  | [] => []
  | s :: more => s.unplaceTypes :: unplaceTypesBlock more

def unplaceTypesElse : Option (List Stmt) → Option (List Stmt)
  | none => none
  | some body => some (unplaceTypesBlock body)

end

/-- The program with all types put at one place, all else left where it is. -/
def Program.unplaceTypes (p : Program) : Program :=
  ⟨unplaceTypesBlock p.statements⟩

namespace Outline

@[simp] theorem header_inj {name name' : String} {p p' : Position} :
    header name p = header name' p' ↔ name = name' ∧ p = p' := by
  refine ⟨fun same => ?_, fun ⟨names, places⟩ => by rw [names, places]⟩
  have shown (name : String) (p : Position) : (header name p).toList =
      name.toList ++ ' ' :: '@' :: (toString p.line ++ ":" ++ toString p.column).toList := by
    simp [header]
  have free (p : Position) :
      ' ' ∉ '@' :: (toString p.line ++ ":" ++ toString p.column).toList :=
    List.not_mem_cons_of_ne_of_not_mem (by decide)
      (Position.not_mem_spelling (by decide) (by decide) (by decide) p)
  have chars := congrArg String.toList same
  rw [shown, shown] at chars
  -- A name may hold spaces, a place holds none.
  obtain ⟨names, places⟩ := Text.append_cons_inj_of_last (free p) (free p') chars
  exact ⟨String.toList_inj.mp names,
    Position.eq_of_spelling (String.toList_inj.mp (List.cons.inj places).2)⟩

@[simp] theorem ofText_inj {s t : String} : ofText s = ofText t ↔ s = t := by
  simp [ofText, Text.quoted_injective.eq_iff]

end Outline

open Outline

private theorem Operator.sign_inj {o o' : Operator} (h : o.precedence ≠ 0)
    (h' : o'.precedence ≠ 0) : o.sign = o'.sign ↔ o = o' := by
  cases o <;> cases o' <;> simp_all [sign, precedence]

private theorem Ty.display_inj {t t' : Ty} (h : t.WellFormed) (h' : t'.WellFormed) :
    t.display = t'.display ↔ t = t' := by
  have free {name : String} (h : IsName name) : name ≠ "Int" ∧ name ≠ "String" ∧ name ≠ "void" := by
    refine ⟨?_, ?_, ?_⟩ <;> rintro rfl <;> exact h.2 (by decide)
  cases t <;> cases t' <;> simp_all [display, WellFormed, eq_comm]

private theorem unplaceTypesBlock_eq_map (body : List Stmt) :
    unplaceTypesBlock body = body.map Stmt.unplaceTypes := by
  induction body with
  | nil => rfl
  | cons s more ih => rw [unplaceTypesBlock, ih, List.map_cons]

private theorem unplaceTypesMethods_eq_map (methods : List Routine) :
    unplaceTypesMethods methods = methods.map Routine.unplaceTypes := by
  induction methods with
  | nil => rfl
  | cons m more ih => rw [unplaceTypesMethods, ih, List.map_cons]

private theorem map_eq_map_iff_of {α β γ : Type} {f : α → β} {g : α → γ} {xs ys : List α}
    (h : ∀ x ∈ xs, ∀ y ∈ ys, f x = f y ↔ g x = g y) :
    xs.map f = ys.map f ↔ xs.map g = ys.map g := by
  induction xs generalizing ys with
  | nil => simp
  | cons x xs ih =>
    cases ys with
    | nil => simp
    | cons y ys =>
      have others : xs.map f = ys.map f ↔ xs.map g = ys.map g := ih fun x hx y hy =>
        h x (List.mem_cons_of_mem _ hx) y (List.mem_cons_of_mem _ hy)
      have first := h x List.mem_cons_self y List.mem_cons_self
      simp only [List.map_cons, List.cons.injEq, first, others]

private theorem Expr.outline_inj {e e' : Expr} (h : e.WellFormed) (h' : e'.WellFormed) :
    e.outline = e'.outline ↔ e = e' := by
  have lists {args args' : List Expr} (h : ArgsWellFormed args) (h' : ArgsWellFormed args')
      (ih : ∀ a ∈ args, ∀ {a' : Expr}, a.WellFormed → a'.WellFormed →
        (a.outline = a'.outline ↔ a = a')) :
      outlines args = outlines args' ↔ args = args' := by
    rw [outlines_eq_map, outlines_eq_map, map_eq_map_iff_of (g := id), List.map_id, List.map_id]
    exact fun a ha a' ha' =>
      ih a ha (argsWellFormed_iff.mp h a ha) (argsWellFormed_iff.mp h' a' ha')
  induction e generalizing e' with
  | integer p value | string p text | template p text | identifier p name =>
    cases e' <;> simp [outline]
  | binary p operator left right ihLeft ihRight =>
    obtain ⟨known, hLeft, hRight⟩ := h
    cases e' with
    | binary p' operator' left' right' =>
      obtain ⟨known', hLeft', hRight'⟩ := h'
      simp [outline, Operator.sign_inj known known', ihLeft hLeft hLeft', ihRight hRight hRight']
    | _ => simp [outline]
  | functionCall p name args ih =>
    cases e' with
    | functionCall p' name' args' => simp [outline, lists h.2 h'.2 ih]
    | _ => simp [outline]
  | methodCall p receiver method args ih ihArgs =>
    obtain ⟨hReceiver, -, -, hArgs⟩ := h
    cases e' with
    | methodCall p' receiver' method' args' =>
      obtain ⟨hReceiver', -, -, hArgs'⟩ := h'
      simp [outline, ih hReceiver hReceiver', lists hArgs hArgs' ihArgs]
    | _ => simp [outline]
  | fieldAccess p receiver field ih =>
    cases e' with
    | fieldAccess p' receiver' field' => simp [outline, ih h.1 h'.1]
    | _ => simp [outline]
  | creation p className args ih =>
    cases e' with
    | creation p' className' args' => simp [outline, lists h.2 h'.2 ih]
    | _ => simp [outline]

private theorem TypeRef.outline_inj {r r' : TypeRef} (h : r.type.WellFormed)
    (h' : r'.type.WellFormed) : ofType r = ofType r' ↔ r.unplaced = r'.unplaced := by
  simp [ofType, relocate, Ty.display_inj h h']

private theorem Param.outline_inj {a b : Param} (h : a.WellFormed) (h' : b.WellFormed) :
    a.outline = b.outline ↔ a.unplaceType = b.unplaceType := by
  simp [outline, unplaceType, TypeRef.outline_inj h.2 h'.2]

private theorem Field.outline_inj {a b : Field} (h : a.WellFormed) (h' : b.WellFormed) :
    a.outline = b.outline ↔ a.unplaceType = b.unplaceType := by
  simp [outline, unplaceType, TypeRef.outline_inj h.2 h'.2]

private theorem Signature.outlineParts_inj {s s' : Signature} (h : s.WellFormed)
    (h' : s'.WellFormed) : s.position = s'.position ∧ s.outlineParts = s'.outlineParts ↔
      s.unplaceTypes = s'.unplaceTypes := by
  have params : s.params.map Param.outline = s'.params.map Param.outline ↔
      s.params.map Param.unplaceType = s'.params.map Param.unplaceType :=
    map_eq_map_iff_of fun a ha b hb => Param.outline_inj (h.2.1 a ha) (h'.2.1 b hb)
  simp [outlineParts, unplaceTypes, params, TypeRef.outline_inj h.2.2 h'.2.2]

private theorem Signature.outline_inj {s s' : Signature} (h : s.WellFormed) (h' : s'.WellFormed) :
    s.outline = s'.outline ↔ s.unplaceTypes = s'.unplaceTypes := by
  simp [outline, ← outlineParts_inj h h']

private theorem InterfaceDecl.outline_inj {d d' : InterfaceDecl} (h : d.WellFormed)
    (h' : d'.WellFormed) : d.outline = d'.outline ↔ d.unplaceTypes = d'.unplaceTypes := by
  have methods : d.methods.map Signature.outline = d'.methods.map Signature.outline ↔
      d.methods.map Signature.unplaceTypes = d'.methods.map Signature.unplaceTypes :=
    map_eq_map_iff_of fun a ha b hb => Signature.outline_inj (h.2 a ha) (h'.2 b hb)
  simp [outline, unplaceTypes, methods]

/-- That the outline of a statement tells it, as far as outlines do. -/
def Stmt.Told (s : Stmt) : Prop :=
  ∀ ⦃s' : Stmt⦄, s.WellFormed → s'.WellFormed →
    (s.outline = s'.outline ↔ s.unplaceTypes = s'.unplaceTypes)

private theorem stmtOutlines_inj {body body' : List Stmt} (told : ∀ s ∈ body, s.Told)
    (h : BlockWellFormed body) (h' : BlockWellFormed body') :
    stmtOutlines body = stmtOutlines body' ↔ unplaceTypesBlock body = unplaceTypesBlock body' := by
  rw [stmtOutlines_eq_map, stmtOutlines_eq_map, unplaceTypesBlock_eq_map, unplaceTypesBlock_eq_map]
  exact map_eq_map_iff_of fun a ha b hb =>
    told a ha (blockWellFormed_iff.mp h a ha) (blockWellFormed_iff.mp h' b hb)

private theorem elseOutline_inj {branch branch' : Option (List Stmt)}
    (told : ∀ body, branch = some body → ∀ s ∈ body, s.Told)
    (h : ElseWellFormed branch) (h' : ElseWellFormed branch') :
    elseOutline branch = elseOutline branch' ↔
      unplaceTypesElse branch = unplaceTypesElse branch' := by
  cases branch with
  | none => cases branch' <;> simp [elseOutline, unplaceTypesElse]
  | some body =>
    cases branch' with
    | none => simp [elseOutline, unplaceTypesElse]
    | some body' => simp [elseOutline, unplaceTypesElse, stmtOutlines_inj (told body rfl) h h']

private theorem Routine.outline_inj {name : String} {r r' : Routine} (told : ∀ s ∈ r.body, s.Told)
    (h : r.WellFormed) (h' : r'.WellFormed) :
    r.outline name = r'.outline name ↔ r.unplaceTypes = r'.unplaceTypes := by
  cases r
  cases r'
  simp [outline, unplaceTypes, ← Signature.outlineParts_inj h.1 h'.1,
    stmtOutlines_inj told h.2 h'.2, and_assoc]

private theorem methodOutlines_inj {methods methods' : List Routine}
    (told : ∀ m ∈ methods, ∀ s ∈ m.body, s.Told) (h : MethodsWellFormed methods)
    (h' : MethodsWellFormed methods') :
    methodOutlines methods = methodOutlines methods' ↔
      unplaceTypesMethods methods = unplaceTypesMethods methods' := by
  rw [methodOutlines_eq_map, methodOutlines_eq_map, unplaceTypesMethods_eq_map,
    unplaceTypesMethods_eq_map]
  exact map_eq_map_iff_of fun a ha b hb => Routine.outline_inj (told a ha)
    (methodsWellFormed_iff.mp h a ha) (methodsWellFormed_iff.mp h' b hb)

private theorem implements_inj {face face' : Option String} :
    (face.map ofText).getD (word "None") = (face'.map ofText).getD (word "None") ↔
      face = face' := by
  have unlike (text : String) : ofText text ≠ word "None" := by
    intro same
    have first := Text.head?_quoted text
    rw [Outline.word.inj same] at first
    simp at first
  cases face with
  | none =>
    cases face' with
    | none => simp
    | some text => simpa using (unlike text).symm
  | some text =>
    cases face' with
    | none => simpa using unlike text
    | some text' => simp

private theorem ClassDecl.outline_inj {d d' : ClassDecl}
    (told : ∀ m ∈ d.methods, ∀ s ∈ m.body, s.Told) (h : d.WellFormed) (h' : d'.WellFormed) :
    d.outline = d'.outline ↔ d.unplaceTypes = d'.unplaceTypes := by
  obtain ⟨p, name, implements, fields, methods⟩ := d
  obtain ⟨p', name', implements', fields', methods'⟩ := d'
  obtain ⟨-, -, hFields, hMethods⟩ := h
  obtain ⟨-, -, hFields', hMethods'⟩ := h'
  have members : fields.map Field.outline = fields'.map Field.outline ↔
      fields.map Field.unplaceType = fields'.map Field.unplaceType :=
    map_eq_map_iff_of fun a ha b hb => Field.outline_inj (hFields a ha) (hFields' b hb)
  simp [outline, unplaceTypes, implements_inj, members, methodOutlines_inj told hMethods hMethods']

def Stmt.nodeName : Stmt → String
  | .declaration .. => "VariableDeclaration"
  | .function _ => "FunctionDefinition"
  | .conditional .. => "If"
  | .classDecl _ => "ClassDefinition"
  | .interfaceDecl _ => "InterfaceDefinition"
  | .assignment .. => "Assignment"
  | .expression .. => "ExpressionStatement"

private theorem Stmt.outline_eq_node (s : Stmt) :
    ∃ parts, s.outline = node (header s.nodeName s.position) parts := by
  rcases s with _ | ⟨⟨_, _⟩⟩ | _ | ⟨⟨_, _, _, _, _⟩⟩ | _ | _ | _ <;> exact ⟨_, rfl⟩

private theorem Stmt.nodeName_unplaceTypes (s : Stmt) : s.unplaceTypes.nodeName = s.nodeName := by
  cases s <;> rfl

private theorem Stmt.outline_inj_of_nodeName_ne {s s' : Stmt} (unlike : s.nodeName ≠ s'.nodeName) :
    s.outline = s'.outline ↔ s.unplaceTypes = s'.unplaceTypes := by
  refine iff_of_false (fun same => unlike ?_) fun same => unlike ?_
  · obtain ⟨parts, shown⟩ := s.outline_eq_node
    obtain ⟨parts', shown'⟩ := s'.outline_eq_node
    rw [shown, shown', node.injEq, header_inj] at same
    exact same.1.1
  · rw [← s.nodeName_unplaceTypes, same, s'.nodeName_unplaceTypes]

private theorem Stmt.told (s : Stmt) : s.Told := by
  -- Statements of two kinds differ in the name of the node, those of one kind in the parts.
  induction s with
  | declaration p type name value =>
    intro s' h h'
    cases s' with
    | declaration p' type' name' value' =>
      obtain ⟨hType, -, -, hValue⟩ := h
      obtain ⟨hType', -, -, hValue'⟩ := h'
      simp [outline, unplaceTypes, TypeRef.outline_inj hType hType',
        Expr.outline_inj hValue hValue', and_left_comm]
    | _ => exact outline_inj_of_nodeName_ne (by simp [nodeName])
  | function head body ih =>
    intro s' h h'
    cases s' with
    | function routine =>
      simp only [outline, unplaceTypes, function.injEq]
      exact Routine.outline_inj ih h h'
    | _ => exact outline_inj_of_nodeName_ne (by simp [nodeName])
  | conditional p condition thenBody elseBody ihThen ihElse =>
    intro s' h h'
    cases s' with
    | conditional p' condition' thenBody' elseBody' =>
      simp [outline, unplaceTypes, Expr.outline_inj h.1 h'.1,
        stmtOutlines_inj ihThen h.2.1 h'.2.1, elseOutline_inj ihElse h.2.2 h'.2.2]
    | _ => exact outline_inj_of_nodeName_ne (by simp [nodeName])
  | classDecl p name implements fields methods ih =>
    intro s' h h'
    cases s' with
    | classDecl decl =>
      simp only [outline, unplaceTypes, classDecl.injEq]
      exact ClassDecl.outline_inj ih h h'
    | _ => exact outline_inj_of_nodeName_ne (by simp [nodeName])
  | interfaceDecl decl =>
    intro s' h h'
    cases s' with
    | interfaceDecl decl' =>
      simp only [outline, unplaceTypes, interfaceDecl.injEq]
      exact InterfaceDecl.outline_inj h h'
    | _ => exact outline_inj_of_nodeName_ne (by simp [nodeName])
  | assignment p target value =>
    intro s' h h'
    cases s' with
    | assignment p' target' value' =>
      simp [outline, unplaceTypes, Expr.outline_inj h.1 h'.1, Expr.outline_inj h.2 h'.2]
    | _ => exact outline_inj_of_nodeName_ne (by simp [nodeName])
  | expression p e =>
    intro s' h h'
    cases s' with
    | expression p' e' => simp [outline, unplaceTypes, Expr.outline_inj h h']
    | _ => exact outline_inj_of_nodeName_ne (by simp [nodeName])

namespace Program

variable {p q : Program}

private theorem outline_inj (h : p.WellFormed) (h' : q.WellFormed) :
    p.outline = q.outline ↔ p.unplaceTypes = q.unplaceTypes := by
  simp [outline, unplaceTypes, stmtOutlines_inj (fun s _ => s.told) h h']

/-- Laid out, the outline of a program is still known. -/
theorem outlineText_inj (h : p.WellFormed) (h' : q.WellFormed) :
    p.outlineText = q.outlineText ↔ p.outline = q.outline := by
  refine ⟨fun same => ?_, fun same => by rw [outlineText, outlineText, same]⟩
  have plain {r : Program} (h : r.WellFormed) : ∀ line ∈ r.outline.lines 0 "", '\n' ∉ line.toList :=
    fun _ there => feed_not_mem_lines (legible h) (by simp) there
  exact eq_of_lines (legible h) (legible h')
    (Text.lines_injective (List.cons_ne_nil _ _) (List.cons_ne_nil _ _) (plain h) (plain h') same)

/-- The outline of a program that was read from a text, with any terminators, tells the program up
to the places of its types, and nothing of these. -/
theorem outlineText_inj_of_ofSource (source source' : String) (mode mode' : Terminators)
    (p q : Program) (h : ofSource mode source = .ok p) (h' : ofSource mode' source' = .ok q) :
    p.outlineText = q.outlineText ↔ p.unplaceTypes = q.unplaceTypes := by
  have known := wellFormed_of_ofSource h
  have known' := wellFormed_of_ofSource h'
  rw [outlineText_inj known known', outline_inj known known']

/-- How many spaces stand in front of a type is not seen in the outline. -/
theorem outlineText_inj_of_moved_type :
    let program (column : Int) : Program :=
      ⟨[.function ⟨⟨⟨1, 1⟩, "f", [], ⟨⟨1, column⟩, .int⟩⟩, []⟩]⟩
    ofSource .strict "def f() -> Int\nend" = .ok (program 12) ∧
      ofSource .lenient "def f() ->  Int\nend" = .ok (program 13) ∧ program 12 ≠ program 13 ∧
        (program 12).outlineText = (program 13).outlineText := by
  intro program
  let tokens (column after : Int) : List Token := [⟨.word "def", "def", ⟨1, 1⟩⟩,
    ⟨.identifier, "f", ⟨1, 5⟩⟩, ⟨.operator, "(", ⟨1, 6⟩⟩, ⟨.operator, ")", ⟨1, 7⟩⟩,
    ⟨.operator, "->", ⟨1, 9⟩⟩, ⟨.word "Int", "Int", ⟨1, column⟩⟩, ⟨.newline, "\n", ⟨1, after⟩⟩,
    ⟨.word "end", "end", ⟨2, 1⟩⟩, ⟨.endOfInput, "", ⟨2, 4⟩⟩]
  have cut : tokenize "def f() -> Int\nend" = .ok (tokens 12 15) := by
    show tokensFrom .first ['d', 'e', 'f', ' ', 'f', '(', ')', ' ', '-', '>', ' ', 'I', 'n', 't',
      '\n', 'e', 'n', 'd'] = _
    iterate 11 refine tokensFrom_cons rfl rfl ?_
    exact tokensFrom_nil _
  have cut' : tokenize "def f() ->  Int\nend" = .ok (tokens 13 16) := by
    show tokensFrom .first ['d', 'e', 'f', ' ', 'f', '(', ')', ' ', '-', '>', ' ', ' ', 'I', 'n',
      't', '\n', 'e', 'n', 'd'] = _
    iterate 11 refine tokensFrom_cons rfl rfl ?_
    exact tokensFrom_nil _
  have accepted : ofSource .strict "def f() -> Int\nend" = .ok (program 12) :=
    ofSource_eq_ok_iff.mpr ⟨_, cut, rfl⟩
  have accepted' : ofSource .lenient "def f() ->  Int\nend" = .ok (program 13) :=
    ofSource_eq_ok_iff.mpr ⟨_, cut', rfl⟩
  refine ⟨accepted, accepted', ?_, ?_⟩
  · simp [program]
  · exact (outlineText_inj_of_ofSource _ _ _ _ _ _ accepted accepted').mpr rfl

end Program

end ScriptLang
