import ScriptLang.Environment

/-!
Laws about every entry of a table, tables whose entries are changed one by one, and tables from
which a name is taken out.
-/

set_option autoImplicit false
set_option relaxedAutoImplicit false

namespace ScriptLang

namespace Table

variable {α β : Type}

def map (f : α → β) (t : Table α) : Table β :=
  ⟨t.entries.map fun (name, a) => (name, f a)⟩

private theorem lookup_map (f : α → β) (name : String) (entries : List (String × α)) :
    (entries.map fun (key, a) => (key, f a)).lookup name = (entries.lookup name).map f := by
  induction entries with
  | nil => rfl
  | cons entry rest ih =>
    obtain ⟨key, a⟩ := entry
    rw [List.map_cons, List.lookup_cons, List.lookup_cons, ih]
    cases name == key <;> rfl

@[simp] theorem get?_map (f : α → β) (t : Table α) (name : String) :
    (t.map f).get? name = (t.get? name).map f :=
  lookup_map f name t.entries

private theorem insertEntry_map (f : α → β) (name : String) (a : α)
    (entries : List (String × α)) :
    insertEntry name (f a) (entries.map fun (key, b) => (key, f b)) =
      (insertEntry name a entries).map fun (key, b) => (key, f b) := by
  induction entries with
  | nil => rfl
  | cons entry rest ih =>
    obtain ⟨key, b⟩ := entry
    simp only [List.map_cons, insertEntry]
    split
    · rfl
    · rw [List.map_cons, ih]

theorem map_insert (f : α → β) (t : Table α) (name : String) (a : α) :
    (t.insert name a).map f = (t.map f).insert name (f a) :=
  congrArg Table.mk (insertEntry_map f name a t.entries).symm

def erase (t : Table α) (name : String) : Table α :=
  ⟨t.entries.filter (·.1 ≠ name)⟩

private theorem lookup_filter_ne (name other : String) (entries : List (String × α)) :
    (entries.filter (·.1 ≠ name)).lookup other =
      if other = name then none else entries.lookup other := by
  induction entries with
  | nil => simp
  | cons entry rest ih =>
    obtain ⟨key, a⟩ := entry
    by_cases erased : key = name
    · subst erased
      rw [List.filter_cons_of_neg (by simp), ih]
      by_cases same : other = key
      · rw [if_pos same, if_pos same]
      · have apart : (other == key) = false := beq_eq_false_iff_ne.mpr same
        rw [if_neg same, if_neg same, List.lookup_cons, apart]
    · rw [List.filter_cons_of_pos (by simpa using erased), List.lookup_cons, ih, List.lookup_cons]
      cases found : other == key with
      | true =>
        have kept : other ≠ name := fun same => erased (eq_of_beq found ▸ same)
        exact (if_neg kept).symm
      | false => rfl

theorem get?_erase (t : Table α) (name other : String) :
    (t.erase name).get? other = if other = name then none else t.get? other :=
  lookup_filter_ne name other t.entries

private theorem filter_insertEntry (name other : String) (a : α) (entries : List (String × α)) :
    (insertEntry other a entries).filter (·.1 ≠ name) =
      if other = name then entries.filter (·.1 ≠ name)
      else insertEntry other a (entries.filter (·.1 ≠ name)) := by
  induction entries with
  | nil => by_cases same : other = name <;> simp [insertEntry, same]
  | cons entry rest ih =>
    obtain ⟨key, b⟩ := entry
    rw [insertEntry]
    by_cases replaced : key = other
    · subst replaced
      rw [if_pos rfl]
      by_cases same : key = name
      · simp [same]
      · simp [same, insertEntry]
    · rw [if_neg replaced, List.filter_cons, List.filter_cons, ih]
      by_cases same : other = name
      · rw [if_pos same, if_pos same]
      · rw [if_neg same, if_neg same]
        split
        · rw [insertEntry, if_neg replaced]
        · rfl

theorem erase_insert (t : Table α) (name other : String) (a : α) :
    (t.insert other a).erase name =
      if other = name then t.erase name else (t.erase name).insert other a := by
  have entries := filter_insertEntry name other a t.entries
  by_cases same : other = name
  · rw [if_pos same] at entries ⊢
    exact congrArg Table.mk entries
  · rw [if_neg same] at entries ⊢
    exact congrArg Table.mk entries

theorem erase_erase (t : Table α) (name : String) : (t.erase name).erase name = t.erase name := by
  simp [erase]

theorem erase_eq_self {t : Table α} {name : String} (unbound : t.get? name = none) :
    t.erase name = t := by
  have absent : ∀ entry ∈ t.entries, entry.1 ≠ name := by
    intro entry there same
    have other := List.lookup_eq_none_iff.mp unbound entry there
    simp [same] at other
  have kept : t.entries.filter (·.1 ≠ name) = t.entries :=
    List.filter_eq_self.mpr fun entry there => decide_eq_true (absent entry there)
  exact congrArg Table.mk kept

def Every (P : String → α → Prop) (t : Table α) : Prop :=
  ∀ entry ∈ t.entries, P entry.1 entry.2

variable {P Q : String → α → Prop} {t : Table α}

@[simp] theorem every_empty : (empty : Table α).Every P := by
  simp [Every, empty]

theorem Every.imp (h : t.Every P) (step : ∀ name a, P name a → Q name a) : t.Every Q :=
  fun entry found => step _ _ (h entry found)

theorem Every.get? (h : t.Every P) {name : String} {a : α} (found : t.get? name = some a) :
    P name a := by
  obtain ⟨before, after, split, -⟩ := List.lookup_eq_some_iff.mp found
  exact h (name, a) (by simp [split])

theorem Every.insert (h : t.Every P) {name : String} {a : α} (new : P name a) :
    (t.insert name a).Every P := by
  obtain ⟨entries⟩ := t
  simp only [Every, Table.insert] at h ⊢
  induction entries with
  | nil => simpa [insertEntry] using new
  | cons entry rest ih =>
    obtain ⟨first, others⟩ := List.forall_mem_cons.mp h
    rw [insertEntry]
    split
    · exact List.forall_mem_cons.mpr ⟨new, others⟩
    · exact List.forall_mem_cons.mpr ⟨first, ih others⟩

theorem every_ofList {definitions : List (String × α)}
    (h : ∀ entry ∈ definitions, P entry.1 entry.2) : (ofList definitions).Every P := by
  have folded (t : Table α) (kept : t.Every P) :
      (definitions.foldl (fun t (name, a) => t.insert name a) t).Every P := by
    induction definitions generalizing t with
    | nil => exact kept
    | cons entry rest ih =>
      obtain ⟨first, others⟩ := List.forall_mem_cons.mp h
      exact ih others _ (kept.insert first)
  exact folded empty every_empty

end Table

end ScriptLang
