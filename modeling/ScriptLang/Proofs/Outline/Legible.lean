import ScriptLang.Proofs.Outline.Indentation
import ScriptLang.Proofs.Program.WellFormed
import ScriptLang.Proofs.Text

/-!
The outlines of programs that have a spelling can be read back: nodes and parts are named with
letters, strings stand in quotes, and a number or a type begins like no margin and no bracket.
-/

set_option autoImplicit false
set_option relaxedAutoImplicit false

namespace ScriptLang

open Outline

theorem outlines_eq_map (args : List Expr) : outlines args = args.map Expr.outline := by
  induction args with
  | nil => rfl
  | cons e more ih => rw [outlines, ih, List.map_cons]

theorem stmtOutlines_eq_map (body : List Stmt) : stmtOutlines body = body.map Stmt.outline := by
  induction body with
  | nil => rfl
  | cons s more ih => rw [stmtOutlines, ih, List.map_cons]

theorem methodOutlines_eq_map (methods : List Routine) :
    methodOutlines methods = methods.map (Routine.outline "Method") := by
  induction methods with
  | nil => rfl
  | cons m more ih => rw [methodOutlines, ih, List.map_cons]

section Legible

variable {text rest name label : String} {p : Position}

namespace Outline

/-- That a text consists of letters and underscores, as the names of nodes and parts do. -/
abbrev IsWord (text : String) : Prop :=
  text.toList ≠ [] ∧ text.toList.all fun c => c.isAlpha || c = '_'

private theorem IsWord.not_mem {c : Char} (h : IsWord text) (other : ¬ (c.isAlpha || c = '_')) :
    c ∉ text.toList :=
  fun there => other (List.all_eq_true.mp h.2 c there)

private theorem IsWord.isLabel (h : IsWord label) : IsLabel label := by
  obtain ⟨c, rest, same⟩ := List.exists_cons_of_ne_nil h.1
  refine ⟨⟨c, rest, same, ?_⟩, h.not_mem (by decide), h.not_mem (by decide)⟩
  rintro rfl
  exact h.not_mem (c := ' ') (by decide) (same ▸ List.mem_cons_self)

private theorem IsCaption.of_not_mem (filled : text.toList ≠ []) (space : ' ' ∉ text.toList)
    (bracket : '[' ∉ text.toList) (plain : '\n' ∉ text.toList) : IsCaption text := by
  obtain ⟨c, rest, same⟩ := List.exists_cons_of_ne_nil filled
  rw [same] at space bracket
  exact ⟨⟨c, rest, same, fun first => space (first ▸ List.mem_cons_self),
    fun first => bracket (first ▸ List.mem_cons_self)⟩, plain⟩

private theorem IsWord.isCaption (h : IsWord text) : IsCaption text :=
  .of_not_mem h.1 (h.not_mem (by decide)) (h.not_mem (by decide)) (h.not_mem (by decide))

private theorem IsCaption.append (h : IsCaption text) (plain : '\n' ∉ rest.toList) :
    IsCaption (text ++ rest) := by
  obtain ⟨c, more, same, unlike⟩ := h.begins
  refine ⟨⟨c, more ++ rest.toList, by rw [String.toList_append, same, List.cons_append], unlike⟩,
    ?_⟩
  rw [String.toList_append]
  exact List.not_mem_append h.plain plain

private theorem IsCaption.header (h : IsCaption name) (p : Position) :
    IsCaption (header name p) := by
  have place := Position.not_mem_spelling (c := '\n') (by decide) (by decide) (by decide) p
  rw [Outline.header, String.append_assoc, String.append_assoc, String.append_assoc]
  refine h.append ?_
  rw [String.toList_append, ← String.append_assoc]
  exact List.not_mem_append (by decide) place

private theorem isCaption_name (h : IsName name) : IsCaption name := by
  obtain ⟨⟨c, rest, same, start, parts⟩, -⟩ := h
  have other {d : Char} (unlike : ¬ Lexeme.isWordStart d ∧ ¬ Lexeme.isWordPart d) :
      d ∉ name.toList := by
    rw [same]
    refine List.not_mem_cons_of_ne_of_not_mem ?_ fun there => unlike.2 (parts d there)
    rintro rfl
    exact unlike.1 start
  refine .of_not_mem ?_ (other (by decide)) (other (by decide)) (other (by decide))
  exact same ▸ List.cons_ne_nil c rest

private theorem legible_number (n : Int) : (word (toString n)).Legible :=
  .of_not_mem (Text.toList_number_ne_nil n) (Text.not_mem_toList_number (by decide) (by decide) n)
    (Text.not_mem_toList_number (by decide) (by decide) n)
    (Text.not_mem_toList_number (by decide) (by decide) n)

@[simp] theorem legible_ofText (text : String) : (ofText text).Legible := by
  refine IsCaption.mk ?_ (Text.feed_not_mem_quoted text)
  rcases Text.head?_quoted text with begun | begun <;>
  · obtain ⟨rest, same⟩ := List.head?_eq_some_iff.mp begun
    exact ⟨_, rest, same, by decide, by decide⟩

private theorem isCaption_display {t : Ty} (h : t.WellFormed) : IsCaption t.display := by
  cases t with
  | named name => exact isCaption_name h
  | int | string | void => exact IsWord.isCaption (by decide)

private theorem legible_ofType {type : TypeRef} (h : type.type.WellFormed) :
    (ofType type).Legible :=
  isCaption_display h

@[simp] theorem legible_list {items : List Outline} :
    (list items).Legible ↔ ∀ item ∈ items, item.Legible :=
  itemsLegible_iff

@[simp] theorem legible_node {parts : List (String × Outline)} (named : IsWord name) :
    (node (header name p) parts).Legible ↔ parts ≠ [] ∧ PartsLegible parts :=
  and_iff_right (named.isCaption.header p)

@[simp] theorem partsLegible_nil : PartsLegible [] :=
  trivial

@[simp] theorem partsLegible_cons {part : Outline} {more : List (String × Outline)}
    (named : IsWord label) :
    PartsLegible ((label, part) :: more) ↔ part.Legible ∧ PartsLegible more :=
  and_iff_right named.isLabel

private theorem partsLegible_append {parts more : List (String × Outline)} :
    PartsLegible (parts ++ more) ↔ PartsLegible parts ∧ PartsLegible more := by
  simp only [partsLegible_iff, List.forall_mem_append]

end Outline

private theorem Expr.legible (e : Expr) : e.outline.Legible := by
  induction e with
  | integer p value =>
    simpa (disch := decide) [outline] using legible_number value
  | string p text | template p text | identifier p name => simp (disch := decide) [outline]
  | binary p operator left right ihLeft ihRight =>
    simp (disch := decide) [outline, ihLeft, ihRight]
  | functionCall p name args ih | creation p name args ih =>
    simpa (disch := decide) [outline, outlines_eq_map] using ih
  | methodCall p receiver method args ih ihArgs =>
    simpa (disch := decide) [outline, outlines_eq_map, ih] using ihArgs
  | fieldAccess p receiver field ih => simp (disch := decide) [outline, ih]

private theorem Param.legible {a : Param} (h : a.WellFormed) : a.outline.Legible := by
  simp (disch := decide) [outline, legible_ofType h.2]

private theorem Field.legible {d : Field} (h : d.WellFormed) : d.outline.Legible := by
  simp (disch := decide) [outline, legible_ofType h.2]

private theorem Signature.partsLegible {s : Signature} (h : s.WellFormed) :
    PartsLegible s.outlineParts := by
  have params : ∀ a ∈ s.params, a.outline.Legible := fun a ha => Param.legible (h.2.1 a ha)
  simpa (disch := decide) [outlineParts, legible_ofType h.2.2] using params

private theorem Signature.legible {s : Signature} (h : s.WellFormed) : s.outline.Legible :=
  (legible_node (by decide)).mpr ⟨List.cons_ne_nil _ _, partsLegible h⟩

private theorem InterfaceDecl.legible {d : InterfaceDecl} (h : d.WellFormed) :
    d.outline.Legible := by
  have methods : ∀ s ∈ d.methods, s.outline.Legible := fun s hs => Signature.legible (h.2 s hs)
  simpa (disch := decide) [outline] using methods

private theorem legible_stmtOutlines {body : List Stmt}
    (legible : ∀ s ∈ body, s.WellFormed → s.outline.Legible) (h : BlockWellFormed body) :
    (list (stmtOutlines body)).Legible := by
  rw [stmtOutlines_eq_map, legible_list, List.forall_mem_map]
  exact fun s there => legible s there (blockWellFormed_iff.mp h s there)

private theorem Routine.legible {r : Routine} (named : IsWord name)
    (legible : ∀ s ∈ r.body, s.WellFormed → s.outline.Legible) (h : r.WellFormed) :
    (r.outline name).Legible := by
  obtain ⟨head, body⟩ := r
  have inner : PartsLegible [("body", list (stmtOutlines body))] :=
    (partsLegible_cons (by decide)).mpr ⟨legible_stmtOutlines legible h.2, trivial⟩
  exact (legible_node named).mpr ⟨by simp, partsLegible_append.mpr ⟨head.partsLegible h.1, inner⟩⟩

private theorem ClassDecl.legible {d : ClassDecl}
    (legible : ∀ m ∈ d.methods, ∀ s ∈ m.body, s.WellFormed → s.outline.Legible)
    (h : d.WellFormed) : d.outline.Legible := by
  obtain ⟨p, name, implements, fields, methods⟩ := d
  obtain ⟨-, -, hFields, hMethods⟩ := h
  have face : ((implements.map ofText).getD (word "None")).Legible := by
    cases implements with
    | none => exact IsWord.isCaption (by decide)
    | some face => exact legible_ofText face
  have members : ∀ d ∈ fields, d.outline.Legible := fun d there => Field.legible (hFields d there)
  have routines : ∀ m ∈ methods, (m.outline "Method").Legible := fun m there =>
    Routine.legible (by decide) (legible m there) (methodsWellFormed_iff.mp hMethods m there)
  refine (legible_node (by decide)).mpr ⟨List.cons_ne_nil _ _, ?_⟩
  simp (disch := decide) only [partsLegible_cons, partsLegible_nil, and_true]
  refine ⟨legible_ofText name, face, legible_list.mpr (List.forall_mem_map.mpr members), ?_⟩
  rw [methodOutlines_eq_map]
  exact legible_list.mpr (List.forall_mem_map.mpr routines)

private theorem Stmt.legible (s : Stmt) (h : s.WellFormed) : s.outline.Legible := by
  induction s with
  | declaration p type name value =>
    simp (disch := decide) [outline, legible_ofType h.1, value.legible]
  | function head body ih => exact Routine.legible (by decide) ih h
  | conditional p condition thenBody elseBody ihThen ihElse =>
    obtain ⟨-, hThen, hElse⟩ := h
    have branch : (elseOutline elseBody).Legible := by
      cases elseBody with
      | none => exact IsWord.isCaption (by decide)
      | some body => exact legible_stmtOutlines (ihElse body rfl) hElse
    refine (legible_node (by decide)).mpr ⟨List.cons_ne_nil _ _, ?_⟩
    simpa (disch := decide) only [partsLegible_cons, partsLegible_nil, and_true] using
      ⟨condition.legible, legible_stmtOutlines ihThen hThen, branch⟩
  | classDecl p name implements fields methods ih => exact ClassDecl.legible ih h
  | interfaceDecl decl => exact InterfaceDecl.legible h
  | assignment p target value =>
    simp (disch := decide) [outline, target.legible, value.legible]
  | expression p e => simp (disch := decide) [outline, e.legible]

theorem Program.legible {p : Program} (h : p.WellFormed) : p.outline.Legible := by
  refine ⟨IsWord.isCaption (by decide), List.cons_ne_nil _ _, ?_⟩
  exact (partsLegible_cons (by decide)).mpr
    ⟨legible_stmtOutlines (fun s _ => s.legible) h, trivial⟩

end Legible

end ScriptLang
