import ScriptLang.Program.Outline
import ScriptLang.Proofs.Text

/-!
Outlines can be read back from their lines. A line shows its depth by its margin, a label by the
first colon, and what is right of a node belongs to it; so an outline ends where a line stands no
further right than its first. This asks of the texts in an outline that they begin like no margin
and no bracket, and of its nodes that they have parts.
-/

set_option autoImplicit false
set_option relaxedAutoImplicit false
-- The cases reach the lists of an outline only through the other halves of the recursion.
set_option linter.unusedSectionVars false

namespace ScriptLang

namespace Outline

/-- That a text can stand on a line as the header of a node or as a word. -/
structure IsCaption (text : String) : Prop where
  begins : ∃ c rest, text.toList = c :: rest ∧ c ≠ ' ' ∧ c ≠ '['
  plain : '\n' ∉ text.toList

structure IsLabel (label : String) : Prop where
  begins : ∃ c rest, label.toList = c :: rest ∧ c ≠ ' '
  closed : ':' ∉ label.toList
  plain : '\n' ∉ label.toList

mutual

def Legible : Outline → Prop
  | word text => IsCaption text
  | list items => ItemsLegible items
  | node header parts => IsCaption header ∧ parts ≠ [] ∧ PartsLegible parts

def ItemsLegible : List Outline → Prop
  | [] => True
  | item :: more => item.Legible ∧ ItemsLegible more

def PartsLegible : List (String × Outline) → Prop
  | [] => True
  | (label, part) :: more => IsLabel label ∧ part.Legible ∧ PartsLegible more

end

section Induction

variable {motive : Outline → Prop}
  (word : ∀ text, motive (word text))
  (list : ∀ items, (∀ item ∈ items, motive item) → motive (list items))
  (node : ∀ header parts, (∀ part ∈ parts, motive part.2) → motive (node header parts))

include word list node

mutual

@[elab_as_elim, induction_eliminator]
private theorem induction : ∀ o, motive o
  | .word text => word text
  | .list items => list items (items_induction items)
  | .node header parts => node header parts (parts_induction parts)

private theorem items_induction : ∀ items : List Outline, ∀ item ∈ items, motive item
  | [], _, found => nomatch found
  | first :: more, item, found =>
    (List.mem_cons.mp found).elim (fun same => same ▸ first.induction) (items_induction more item)

private theorem parts_induction :
    ∀ parts : List (String × Outline), ∀ part ∈ parts, motive part.2
  | [], _, found => nomatch found
  | (_, first) :: more, part, found =>
    (List.mem_cons.mp found).elim (fun same => same ▸ first.induction) (parts_induction more part)

end

end Induction

theorem itemsLegible_iff {items : List Outline} :
    ItemsLegible items ↔ ∀ item ∈ items, item.Legible := by
  induction items with
  | nil => simp [ItemsLegible]
  | cons item more ih => simp [ItemsLegible, ih]

theorem partsLegible_iff {parts : List (String × Outline)} :
    PartsLegible parts ↔ ∀ part ∈ parts, IsLabel part.1 ∧ part.2.Legible := by
  induction parts with
  | nil => simp [PartsLegible]
  | cons part more ih => simp [PartsLegible, ih, and_assoc]

private theorem itemLines_eq_partLines (depth : Nat) (items : List Outline) :
    itemLines depth items = partLines depth (items.map fun item => ("", item)) := by
  induction items with
  | nil => rfl
  | cons item more ih => rw [itemLines, ih, List.map_cons, partLines]

def indent (line : String) : Nat :=
  (line.toList.takeWhile (· = ' ')).length

/-- That no line further right than a depth comes next. -/
def Ends (depth : Nat) (rest : List String) : Prop :=
  ∀ line ∈ rest.head?, indent line ≤ 2 * depth

def Flush (text : String) : Prop :=
  text.toList.head? ≠ some ' '

def entry (label text : String) : String :=
  (if label = "" then "" else label ++ ": ") ++ text

private theorem labelled_eq (depth : Nat) (label text : String) :
    labelled depth label text = margin depth ++ entry label text := by
  rw [labelled, entry, String.append_assoc]

private theorem toList_margin (depth : Nat) :
    (margin depth).toList = List.replicate (2 * depth) ' ' := by
  induction depth with
  | zero => rfl
  | succ depth ih =>
    rw [margin, String.toList_append, ih]
    rfl

private theorem indent_margin {text : String} (flush : Flush text) (depth : Nat) :
    indent (margin depth ++ text) = 2 * depth := by
  have stop : text.toList.takeWhile (· = ' ') = [] := by
    unfold Flush at flush
    cases same : text.toList with
    | nil => rfl
    | cons c rest => exact List.takeWhile_cons_of_neg (by simpa [same] using flush)
  rw [indent, String.toList_append, toList_margin, List.takeWhile_append_of_pos (by simp), stop,
    List.append_nil, List.length_replicate]

/-- Whether labels are given: to the parts of a node they are, to the items of a list not. -/
def Names (given : Bool) (label : String) : Prop :=
  if given then IsLabel label else label = ""

def caption : Outline → String
  | word text => text
  | list [] => "[]"
  | list (_ :: _) => "["
  | node header _ => header

section Line

variable {given : Bool} {label label' text text' : String} {depth : Nat} {o : Outline}

private theorem IsCaption.flush (h : IsCaption text) : Flush text := by
  obtain ⟨c, rest, same, space, -⟩ := h.begins
  unfold Flush
  rw [same]
  exact fun first => space (Option.some.inj first)

private theorem IsLabel.ne_empty (h : IsLabel label) : label ≠ "" := by
  obtain ⟨c, rest, same, -⟩ := h.begins
  rintro rfl
  cases same

private theorem flush_entry (named : Names given label) (flush : Flush text) :
    Flush (entry label text) := by
  cases given with
  | false =>
    cases named
    simpa [entry] using flush
  | true =>
    obtain ⟨c, rest, same, space⟩ := IsLabel.begins named
    unfold Flush entry
    rw [if_neg (IsLabel.ne_empty named)]
    simp [same, space]

private theorem entry_inj (named : Names given label) (named' : Names given label')
    (same : entry label text = entry label' text') : label = label' ∧ text = text' := by
  cases given with
  | false =>
    cases named
    cases named'
    exact ⟨rfl, by simpa [entry] using same⟩
  | true =>
    unfold entry at same
    rw [if_neg (IsLabel.ne_empty named), if_neg (IsLabel.ne_empty named')] at same
    have chars := congrArg String.toList same
    simp only [String.toList_append, List.append_assoc] at chars
    obtain ⟨labels, texts⟩ :=
      Text.append_cons_inj_of_first (IsLabel.closed named) (IsLabel.closed named') chars
    exact ⟨String.toList_inj.mp labels, String.toList_inj.mp (List.cons.inj texts).2⟩

private theorem flush_caption (h : o.Legible) : Flush o.caption := by
  cases o with
  | word text => exact h.flush
  | list items => cases items <;> simp [caption, Flush]
  | node header parts => exact h.1.flush

private theorem exists_lines (depth : Nat) (label : String) (o : Outline) :
    ∃ more, o.lines depth label = labelled depth label o.caption :: more := by
  cases o with
  | word text => exact ⟨_, lines.eq_1 depth label text⟩
  | list items => cases items <;> exact ⟨_, rfl⟩
  | node header parts => exact ⟨_, rfl⟩

private theorem indent_lines (depth : Nat) (named : Names given label) (h : o.Legible)
    (rest : List String) :
    ∃ line, (o.lines depth label ++ rest).head? = some line ∧ indent line = 2 * depth := by
  obtain ⟨more, same⟩ := exists_lines depth label o
  refine ⟨labelled depth label o.caption, by rw [same]; rfl, ?_⟩
  rw [labelled_eq]
  exact indent_margin (flush_entry named (flush_caption h)) depth

end Line

/-- That the lines of an outline, whatever comes after them no further right, tell its label, the
outline and where it ends. -/
def Readable (o : Outline) : Prop :=
  ∀ ⦃o' : Outline⦄ ⦃depth : Nat⦄ ⦃given : Bool⦄ ⦃label label' : String⦄ ⦃rest rest' : List String⦄,
    Names given label → Names given label' → o.Legible → o'.Legible → Ends depth rest →
    Ends depth rest' → o.lines depth label ++ rest = o'.lines depth label' ++ rest' →
    label = label' ∧ o = o' ∧ rest = rest'

/-- That parts can be read back; all of them have labels, or none has. -/
def AllLegible (given : Bool) (parts : List (String × Outline)) : Prop :=
  ∀ part ∈ parts, Names given part.1 ∧ part.2.Legible

section Parts

variable {given : Bool} {parts parts' : List (String × Outline)} {depth : Nat}
  {rest rest' : List String}

/-- Parts stand further right than what may come after the whole. -/
private theorem ne_partLines_of_ends (filled : parts ≠ []) (h : AllLegible given parts)
    (ends : Ends depth rest) : rest ≠ partLines (depth + 1) parts ++ rest' := by
  obtain ⟨⟨label, part⟩, more, rfl⟩ := List.exists_cons_of_ne_nil filled
  obtain ⟨named, legible⟩ := h _ List.mem_cons_self
  rintro rfl
  rw [partLines, List.append_assoc] at ends
  obtain ⟨line, first, right⟩ := indent_lines (depth + 1) named legible
    (partLines (depth + 1) more ++ rest')
  have left := ends line first
  omega

private theorem ends_partLines (h : AllLegible given parts) (ends : Ends depth rest) :
    Ends (depth + 1) (partLines (depth + 1) parts ++ rest) := by
  intro line first
  cases parts with
  | nil =>
    have left := ends line first
    omega
  | cons part more =>
    obtain ⟨named, legible⟩ := h part List.mem_cons_self
    rw [partLines, List.append_assoc] at first
    obtain ⟨line', first', right⟩ := indent_lines (depth + 1) named legible
      (partLines (depth + 1) more ++ rest)
    rw [first'] at first
    cases first
    omega

private theorem partLines_append_inj (readable : ∀ part ∈ parts, Readable part.2)
    (h : AllLegible given parts) (h' : AllLegible given parts') (ends : Ends depth rest)
    (ends' : Ends depth rest')
    (same : partLines (depth + 1) parts ++ rest = partLines (depth + 1) parts' ++ rest') :
    parts = parts' ∧ rest = rest' := by
  induction parts generalizing parts' with
  | nil =>
    cases parts' with
    | nil => exact ⟨rfl, same⟩
    | cons part' more' =>
      exact absurd same (ne_partLines_of_ends (List.cons_ne_nil part' more') h' ends)
  | cons part more ih =>
    cases parts' with
    | nil => exact absurd same.symm (ne_partLines_of_ends (List.cons_ne_nil part more) h ends')
    | cons part' more' =>
      obtain ⟨first, others⟩ := List.forall_mem_cons.mp readable
      obtain ⟨⟨named, legible⟩, hMore⟩ := List.forall_mem_cons.mp h
      obtain ⟨⟨named', legible'⟩, hMore'⟩ := List.forall_mem_cons.mp h'
      rw [partLines, partLines, List.append_assoc, List.append_assoc] at same
      obtain ⟨labels, outlines, left⟩ := first named named' legible legible'
        (ends_partLines hMore ends) (ends_partLines hMore' ends') same
      obtain ⟨equal, left⟩ := ih others hMore hMore' left
      exact ⟨by rw [Prod.ext labels outlines, equal], left⟩

end Parts

private theorem IsCaption.ne_caption_list {text : String} (h : IsCaption text)
    (items : List Outline) : text ≠ (list items).caption := by
  obtain ⟨c, rest, same, -, bracket⟩ := h.begins
  rintro rfl
  have opens : (list items).caption.toList.head? = some '[' := by
    cases items <;> simp [caption]
  rw [same] at opens
  exact bracket (Option.some.inj opens)

private theorem caption_inj {o o' : Outline} {depth : Nat} {given : Bool} {label label' : String}
    {rest rest' : List String} (named : Names given label) (named' : Names given label')
    (same : o.lines depth label ++ rest = o'.lines depth label' ++ rest') :
    label = label' ∧ o.caption = o'.caption := by
  obtain ⟨more, first⟩ := exists_lines depth label o
  obtain ⟨more', first'⟩ := exists_lines depth label' o'
  rw [first, first', labelled_eq, labelled_eq] at same
  exact entry_inj named named' ((String.append_right_inj _).mp (List.cons.inj same).1)

private theorem allLegible_items {items : List Outline} (h : (list items).Legible) :
    AllLegible false (items.map fun item => ("", item)) := by
  intro part there
  obtain ⟨item, among, rfl⟩ := List.mem_map.mp there
  exact ⟨rfl, itemsLegible_iff.mp h item among⟩

private theorem allLegible_parts {header : String} {parts : List (String × Outline)}
    (h : (node header parts).Legible) : AllLegible true parts :=
  partsLegible_iff.mp h.2.2

private theorem ends_closing (depth : Nat) (rest : List String) :
    Ends depth ((margin depth ++ "]") :: rest) := by
  rintro line ⟨⟩
  exact (indent_margin (by simp [Flush]) depth).le

def listLines (depth : Nat) : List Outline → List String
  | [] => []
  | item :: more => itemLines (depth + 1) (item :: more) ++ [margin depth ++ "]"]

private theorem lines_list (depth : Nat) (label : String) (items : List Outline) :
    (list items).lines depth label =
      labelled depth label (list items).caption :: listLines depth items := by
  cases items <;> rfl

private theorem listLines_append_inj {items items' : List Outline} {depth : Nat}
    {rest rest' : List String} (readable : ∀ item ∈ items, Readable item)
    (h : (list items).Legible) (h' : (list items').Legible)
    (captions : (list items).caption = (list items').caption)
    (same : listLines depth items ++ rest = listLines depth items' ++ rest') :
    items = items' ∧ rest = rest' := by
  cases items with
  | nil =>
    cases items' with
    | nil => exact ⟨rfl, same⟩
    | cons item' more' => exact absurd captions (by simp [caption])
  | cons item more =>
    cases items' with
    | nil => exact absurd captions (by simp [caption])
    | cons item' more' =>
      rw [listLines, listLines, itemLines_eq_partLines, itemLines_eq_partLines, List.append_assoc,
        List.append_assoc] at same
      obtain ⟨equal, left⟩ := partLines_append_inj (List.forall_mem_map.mpr readable)
        (allLegible_items h) (allLegible_items h') (ends_closing depth rest)
        (ends_closing depth rest') same
      exact ⟨List.map_injective_iff.mpr (fun _ _ pairs => (Prod.mk.inj pairs).2) equal,
        (List.cons.inj left).2⟩

private theorem readable (o : Outline) : Readable o := by
  induction o with
  | word text =>
    intro o' depth given label label' rest rest' named named' h h' ends ends' same
    obtain ⟨rfl, captions⟩ := caption_inj named named' same
    cases o' with
    | word text' =>
      cases captions
      exact ⟨rfl, rfl, (List.cons.inj same).2⟩
    | list items => exact absurd captions (h.ne_caption_list items)
    | node header parts =>
      have deeper := (List.cons.inj same).2
      exact absurd deeper (ne_partLines_of_ends h'.2.1 (allLegible_parts h') ends)
  | list items ih =>
    intro o' depth given label label' rest rest' named named' h h' ends ends' same
    obtain ⟨rfl, captions⟩ := caption_inj named named' same
    cases o' with
    | word text' => exact absurd captions.symm (h'.ne_caption_list items)
    | list items' =>
      rw [lines_list, lines_list] at same
      obtain ⟨equal, left⟩ := listLines_append_inj ih h h' captions (List.cons.inj same).2
      exact ⟨rfl, by rw [equal], left⟩
    | node header parts => exact absurd captions.symm (h'.1.ne_caption_list items)
  | node header parts ih =>
    intro o' depth given label label' rest rest' named named' h h' ends ends' same
    obtain ⟨rfl, captions⟩ := caption_inj named named' same
    cases o' with
    | word text' =>
      have deeper := (List.cons.inj same).2
      exact absurd deeper.symm (ne_partLines_of_ends h.2.1 (allLegible_parts h) ends')
    | list items => exact absurd captions (h.1.ne_caption_list items)
    | node header' parts' =>
      cases captions
      obtain ⟨rfl, left⟩ := partLines_append_inj ih (allLegible_parts h) (allLegible_parts h') ends
        ends' (List.cons.inj same).2
      exact ⟨rfl, rfl, left⟩

/-- An outline can be read back from its lines. -/
theorem eq_of_lines {o o' : Outline} (h : o.Legible) (h' : o'.Legible)
    (same : o.lines 0 "" = o'.lines 0 "") : o = o' := by
  have nothing : Ends 0 [] := by
    rintro line ⟨⟩
  have unlabelled : Names false "" := rfl
  obtain ⟨-, equal, -⟩ := readable o unlabelled unlabelled h h' nothing nothing
    (congrArg (· ++ []) same)
  exact equal

section Feed

variable {line : String} {depth : Nat}

private theorem mem_partLines {parts : List (String × Outline)} :
    line ∈ partLines depth parts ↔ ∃ part ∈ parts, line ∈ part.2.lines depth part.1 := by
  induction parts with
  | nil => simp [partLines]
  | cons part more ih => simp [partLines, ih]

private theorem feed_not_mem_margin : '\n' ∉ (margin depth).toList := by
  rw [toList_margin]
  exact fun there => absurd (List.eq_of_mem_replicate there) (by decide)

private theorem feed_not_mem_labelled {label text : String} (hLabel : '\n' ∉ label.toList)
    (hText : '\n' ∉ text.toList) : '\n' ∉ (labelled depth label text).toList := by
  unfold labelled
  split <;> simp [feed_not_mem_margin, hLabel, hText]

private theorem feed_not_mem_caption {o : Outline} (h : o.Legible) : '\n' ∉ o.caption.toList := by
  cases o with
  | word text => exact h.plain
  | list items => cases items <;> simp [caption]
  | node header parts => exact h.1.plain

theorem feed_not_mem_lines {o : Outline} (h : o.Legible) {label : String}
    (plain : '\n' ∉ label.toList) (there : line ∈ o.lines depth label) :
    '\n' ∉ line.toList := by
  induction o generalizing depth label with
  | word text =>
    cases List.mem_singleton.mp there
    exact feed_not_mem_labelled plain h.plain
  | list items ih =>
    rw [lines_list] at there
    rcases List.mem_cons.mp there with rfl | there
    · exact feed_not_mem_labelled plain (feed_not_mem_caption h)
    cases items with
    | nil => cases there
    | cons item more =>
      rcases List.mem_append.mp there with inside | closing
      · rw [itemLines_eq_partLines, mem_partLines] at inside
        obtain ⟨_, among, inside⟩ := inside
        obtain ⟨inner, found, rfl⟩ := List.mem_map.mp among
        exact ih inner found (itemsLegible_iff.mp h inner found) (by simp) inside
      · cases List.mem_singleton.mp closing
        simp [feed_not_mem_margin]
  | node header parts ih =>
    rcases List.mem_cons.mp there with rfl | there
    · exact feed_not_mem_labelled plain h.1.plain
    obtain ⟨part, among, inside⟩ := mem_partLines.mp there
    obtain ⟨named, legible⟩ := partsLegible_iff.mp h.2.2 part among
    exact ih part among legible named.plain inside

end Feed

end Outline

end ScriptLang
