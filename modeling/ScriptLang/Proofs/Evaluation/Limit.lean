import ScriptLang.Attempt
import ScriptLang.Proofs.Evaluation.Simulation

/-!
Runs of two programs under one limit, and runs of one program under two: a program that is reworded
where no evaluation looks ends like the program itself, and its end does not depend on the limit on
nested calls.
-/

set_option autoImplicit false
set_option relaxedAutoImplicit false

namespace ScriptLang

/-! ## Rewording

Changes of statements that an evaluation cannot see. A rewording of a simulation keeps the shape of
every statement and turns its expressions into those that stand for them; of what a statement
defines it keeps what calls can see, and some statements it may leave out. Then every block runs
like its rewording.
-/

section Rewording

open Evaluation

namespace Simulation

def reword (kept : Stmt → Bool) (stmt : Stmt → Stmt) (body : List Stmt) : List Stmt :=
  (body.filter kept).map stmt

theorem reword_all (stmt : Stmt → Stmt) (body : List Stmt) :
    reword (fun _ => true) stmt body = body.map stmt := by
  rw [reword, List.filter_true]

/-- A change of statements that evaluations cannot tell apart under a simulation. A statement that
is not kept must do nothing that counts and carry no value. -/
structure Rewording (S : Simulation) (kept : Stmt → Bool) (stmt : Stmt → Stmt) : Prop where
  declaration : ∀ p type name value, ∃ type' : TypeRef, type'.type = type.type ∧
    stmt (.declaration p type name value) = .declaration (S.place p) type' name (S.expr value)
  expression : ∀ p e, stmt (.expression p e) = .expression (S.place p) (S.expr e)
  assignment : ∀ p target value,
    stmt (.assignment p target value) = .assignment (S.place p) (S.expr target) (S.expr value)
  conditional : ∀ p condition thenBody elseBody,
    stmt (.conditional p condition thenBody elseBody) =
      .conditional (S.place p) (S.expr condition) (reword kept stmt thenBody)
        (elseBody.map (reword kept stmt))
  function : ∀ {early bodyOf bodyOf'} (routine : Routine),
    (∀ x ∈ routine.nodes, S.admits x) → S.Alike early (executeWith bodyOf (.function routine))
      (executeWith bodyOf' (stmt (.function routine)))
  classDecl : ∀ {early bodyOf bodyOf'} (decl : ClassDecl),
    (∀ x ∈ decl.nodes, S.admits x) → S.Alike early (executeWith bodyOf (.classDecl decl))
      (executeWith bodyOf' (stmt (.classDecl decl)))
  interfaceDecl : ∀ {early bodyOf bodyOf'} (decl : InterfaceDecl), kept (.interfaceDecl decl) →
    S.Alike early (executeWith bodyOf (.interfaceDecl decl))
      (executeWith bodyOf' (stmt (.interfaceDecl decl)))
  dropped : ∀ bodyOf {m m'} {s : Stmt}, ¬ kept s → S.machines m m' →
    ∃ n, executeWith bodyOf s m = (.ok none, n) ∧ S.machines n m'

namespace Rewording

variable {S : Simulation} {kept : Stmt → Bool} {stmt : Stmt → Stmt} {early : Prop}
  {bodyOf bodyOf' : List Stmt → Evaluation (Option Value)}

private theorem alike_block (R : S.Rewording kept stmt) {body : List Stmt}
    (each : ∀ s ∈ body, kept s →
      S.Alike early (executeWith bodyOf s) (executeWith bodyOf' (stmt s))) :
    S.Alike early (executeBlockWith bodyOf body)
      (executeBlockWith bodyOf' (reword kept stmt body)) := by
  unfold reword
  induction body with
  | nil =>
    simp only [List.filter_nil, List.map_nil, executeBlockWith]
    exact alike_pure _
  | cons s more ih =>
    obtain ⟨first, others⟩ := List.forall_mem_cons.mp each
    by_cases keep : kept s
    · rw [List.filter_cons_of_pos keep, List.map_cons]
      exact alike_executeBlockWith_cons (first keep) (ih others)
    · rw [List.filter_cons_of_neg keep]
      intro m m' related
      obtain ⟨n, silent, next⟩ := R.dropped bodyOf keep related
      have skipped : executeBlockWith bodyOf (s :: more) m = executeBlockWith bodyOf more n := by
        rw [executeBlockWith, Attempt.bind_apply_ok silent]
      unfold AlikeAt
      rw [skipped]
      exact ih others n m' next

private theorem alike_statement (R : S.Rewording kept stmt) (hb : S.Bodies early bodyOf bodyOf')
    (s : Stmt) (keep : kept s) (known : ∀ x ∈ s.nodes, S.admits x) :
    S.Alike early (executeWith bodyOf s) (executeWith bodyOf' (stmt s)) := by
  induction s with
  | declaration p type name value =>
    obtain ⟨type', same, changed⟩ := R.declaration p type name value
    rw [changed]
    exact alike_declaration hb rfl same fun x there => known x (List.mem_cons_of_mem _ there)
  -- The bodies of definitions are stored and not run here, so their hypotheses are not used.
  | function head body _ =>
    exact R.function _ fun x there => known x (List.mem_cons_of_mem _ there)
  | conditional p condition thenBody elseBody ihThen ihElse =>
    have inside {x : Node}
        (there : x ∈ condition.nodes ++ (blockNodes thenBody ++ elseNodes elseBody)) : S.admits x :=
      known x (List.mem_cons_of_mem _ there)
    have branch {body : List Stmt}
        (ih : ∀ s ∈ body, kept s → (∀ x ∈ s.nodes, S.admits x) →
          S.Alike early (executeWith bodyOf s) (executeWith bodyOf' (stmt s)))
        (known : ∀ x ∈ blockNodes body, S.admits x) :
        S.Alike early (executeBlockWith bodyOf body)
          (executeBlockWith bodyOf' (reword kept stmt body)) := by
      refine R.alike_block fun s among keep => ih s among keep fun x there => known x ?_
      rw [blockNodes_eq_flatMap]
      exact List.mem_flatMap_of_mem among there
    rw [R.conditional]
    refine alike_conditional hb (fun x there => inside (List.mem_append_left _ there)) ?_ ?_
    · refine branch ihThen fun x there => inside ?_
      exact List.mem_append_right _ (List.mem_append_left _ there)
    · cases elseBody with
      | none =>
        simp only [Option.map_none, executeElseWith]
        exact alike_pure _
      | some body =>
        simp only [Option.map_some, executeElseWith]
        refine branch (ihElse body rfl) fun x there => inside ?_
        exact List.mem_append_right _ (List.mem_append_right _ there)
  | classDecl p name implements fields methods _ =>
    exact R.classDecl _ fun x there => known x (List.mem_cons_of_mem _ there)
  | interfaceDecl decl => exact R.interfaceDecl decl keep
  | assignment p target value =>
    rw [R.assignment]
    refine alike_assignment hb rfl fun x there => known x ?_
    exact List.mem_cons_of_mem _ (List.mem_append_right _ there)
  | expression p e =>
    rw [R.expression]
    exact alike_expression hb fun x there => known x (List.mem_cons_of_mem _ there)

private theorem alike_executeBlockWith (R : S.Rewording kept stmt)
    (hb : S.Bodies early bodyOf bodyOf') (body : List Stmt)
    (known : ∀ x ∈ blockNodes body, S.admits x) :
    S.Alike early (executeBlockWith bodyOf body)
      (executeBlockWith bodyOf' (reword kept stmt body)) := by
  refine R.alike_block fun s among keep => R.alike_statement hb s keep fun x there => known x ?_
  rw [blockNodes_eq_flatMap]
  exact List.mem_flatMap_of_mem among there

private theorem alike_interpretWith (R : S.Rewording kept stmt) (hb : S.Bodies early bodyOf bodyOf')
    (body : List Stmt) (known : ∀ x ∈ blockNodes body, S.admits x) :
    S.Alike early (interpretWith bodyOf body)
      (interpretWith bodyOf' (reword kept stmt body)) := by
  unfold reword
  induction body with
  | nil => exact alike_pure ()
  | cons s more ih =>
    obtain ⟨first, others⟩ := List.forall_mem_append.mp known
    by_cases keep : kept s
    · rw [List.filter_cons_of_pos keep, List.map_cons]
      exact alike_interpretWith_cons (R.alike_statement hb s keep first) (ih others)
    · rw [List.filter_cons_of_neg keep]
      intro m m' related
      obtain ⟨n, silent, next⟩ := R.dropped bodyOf keep related
      have skipped : interpretWith bodyOf (s :: more) m = interpretWith bodyOf more n := by
        rw [interpretWith, Attempt.bind_apply_ok (Attempt.discard_apply_ok silent)]
      unfold AlikeAt
      rw [skipped]
      exact ih others n m' next

end Rewording

end Simulation

end Rewording

/-! ## Limits

What the limit on the nesting of calls means. A run that does not exceed its limit goes on in the
same way under every larger one, so a program that ends has one outcome, whichever limit it was
found with. Two programs that a simulation relates end together and alike.
-/

section Limit

open Evaluation

/-- That a program, begun on a machine, ends with an outcome and leaves a machine: some nesting of
calls is enough for it. -/
def Program.EndsFrom (p : Program) (start : Machine) (outcome : Except Stop Unit)
    (left : Machine) : Prop :=
  ∃ limit, interpret limit p start = (outcome, left) ∧ outcome ≠ .error .tooDeep

namespace Simulation

/-- That bodies which stand for each other run alike if the bodies that they call do. -/
def Sound (S : Simulation) : Prop :=
  ∀ (early : Prop) (bodyOf bodyOf' : List Stmt → Evaluation (Option Value)),
    S.Bodies early bodyOf bodyOf' → ∀ body body' : List Stmt, S.bodies body body' →
      S.Alike early (executeBlockWith bodyOf body) (executeBlockWith bodyOf' body')

def Programs (S : Simulation) (p p' : Program) : Prop :=
  ∀ (early : Prop) (bodyOf bodyOf' : List Stmt → Evaluation (Option Value)),
    S.Bodies early bodyOf bodyOf' →
      S.Alike early (interpretWith bodyOf p.statements) (interpretWith bodyOf' p'.statements)

variable {S : Simulation} {early : Prop}

/-- The first of two runs may have the smaller limit, and then stop early. -/
private theorem Sound.bodies (sound : S.Sound) {limit limit' : Nat} (le : limit ≤ limit')
    (strict : limit < limit' → early) :
    S.Bodies early (bodyWithin limit) (bodyWithin limit') := by
  refine ⟨?_, leaves_bodyWithin limit, leaves_bodyWithin limit'⟩
  induction limit generalizing limit' with
  | zero =>
    intro body body' _ m m' related
    cases limit' with
    | zero => exact .inr ⟨rfl, related⟩
    | succ limit' => exact .inl ⟨strict (Nat.succ_pos limit'), rfl⟩
  | succ limit ih =>
    intro body body' same
    cases limit' with
    | zero => exact absurd le (Nat.not_succ_le_zero limit)
    | succ limit' =>
      have inner : S.Bodies early (bodyWithin limit) (bodyWithin limit') :=
        ⟨ih (Nat.le_of_succ_le_succ le) fun less => strict (Nat.succ_lt_succ less),
          leaves_bodyWithin limit, leaves_bodyWithin limit'⟩
      exact sound _ _ _ inner _ _ same

section Rewording

variable {kept : Stmt → Bool} {stmt : Stmt → Stmt}

theorem Rewording.sound (R : S.Rewording kept stmt)
    (bodies : ∀ body body', S.bodies body body' →
      body' = reword kept stmt body ∧ ∀ x ∈ blockNodes body, S.admits x) : S.Sound := by
  intro early bodyOf bodyOf' hb body body' same
  obtain ⟨rfl, known⟩ := bodies body body' same
  exact R.alike_executeBlockWith hb body known

theorem Rewording.programs (R : S.Rewording kept stmt) {p : Program}
    (known : ∀ x ∈ p.nodes, S.admits x) : S.Programs p ⟨reword kept stmt p.statements⟩ :=
  fun _ _ _ hb => R.alike_interpretWith hb p.statements known

end Rewording

def same : Simulation where
  machines := Eq
  bodies := Eq
  place := id
  expr := id
  admits _ := True
  disguise := .id
  identifier := by rintro m _ p name rfl -; rfl
  template := by rintro m _ p text rfl -; rfl
  function := by
    rintro m _ name rfl -
    cases m.env.functions.get? name with
    | none => exact .none
    | some f => exact .some ⟨rfl, rfl, rfl⟩
  classDecl := by
    rintro m _ name rfl
    cases m.env.classes.get? name with
    | none => exact .none
    | some decl =>
      refine .some ⟨rfl, fun method => ?_⟩
      cases decl.methods.find? (·.signature.name = method) with
      | none => exact .none
      | some routine => exact .some ⟨rfl, rfl, rfl⟩
  define := by rintro m _ name v rfl; rfl
  print := by rintro m _ text rfl; rfl
  callFunction := by rintro m _ name rfl; rfl
  callMethod := by rintro m _ className name rfl; rfl
  push := by rintro m _ rfl; rfl
  restore := by rintro m _ n _ rfl rfl; rfl

private theorem rewording_same : same.Rewording (fun _ => true) id where
  declaration p type name value := ⟨type, rfl, rfl⟩
  expression _ _ := rfl
  assignment _ _ _ := rfl
  conditional p condition thenBody elseBody := by
    simp [reword_all, same, funext (reword_all id)]
  function := by
    rintro early bodyOf bodyOf' ⟨head, body⟩ - m _ rfl
    exact .inr ⟨rfl, rfl⟩
  classDecl := by
    rintro early bodyOf bodyOf' decl - m _ rfl
    exact .inr ⟨rfl, rfl⟩
  interfaceDecl := by
    rintro early bodyOf bodyOf' decl - m _ rfl
    exact .inr ⟨rfl, rfl⟩
  dropped _ _ _ _ drop := absurd rfl drop

private theorem sound_same : same.Sound :=
  rewording_same.sound fun body _ same =>
    ⟨by rw [reword_all, List.map_id, same], fun _ _ => trivial⟩

private theorem programs_same (p : Program) : same.Programs p p := by
  have programs := rewording_same.programs (p := p) fun _ _ => trivial
  rwa [reword_all, List.map_id] at programs

private theorem Programs.alike {p p' : Program} (programs : S.Programs p p') (sound : S.Sound)
    {limit limit' : Nat} (le : limit ≤ limit') :
    S.Alike (limit < limit') (interpret limit p) (interpret limit' p') :=
  programs _ _ _ (sound.bodies le id)

end Simulation

/-- A run that does not exceed its limit goes on in the same way under every larger one. -/
theorem Evaluation.interpret_mono {limit limit' : Nat} (le : limit ≤ limit') {p : Program}
    {m n : Machine} {outcome : Except Stop Unit} (h : interpret limit p m = (outcome, n))
    (inside : outcome ≠ .error .tooDeep) : interpret limit' p m = (outcome, n) := by
  have alike := (Simulation.programs_same p).alike Simulation.sound_same le m m rfl
  unfold Simulation.AlikeAt at alike
  rw [h] at alike
  obtain ⟨-, deep⟩ | ⟨outcomes, machines⟩ := alike
  · exact absurd deep inside
  · exact Prod.ext (outcomes.trans (Stop.mapError_relocate_id outcome)) machines.symm

theorem Program.EndsFrom.unique {p : Program} {m n n' : Machine}
    {outcome outcome' : Except Stop Unit} (h : p.EndsFrom m outcome n)
    (h' : p.EndsFrom m outcome' n') : outcome' = outcome ∧ n' = n := by
  obtain ⟨limit, run, inside⟩ := h
  obtain ⟨limit', run', inside'⟩ := h'
  have wider := interpret_mono (Nat.le_max_left limit limit') run inside
  have wider' := interpret_mono (Nat.le_max_right limit limit') run' inside'
  exact Prod.mk.inj (wider'.symm.trans wider)

namespace Simulation

variable {S : Simulation}

private theorem relocate_ne_tooDeep (place : Position → Position) {outcome : Except Stop Unit} :
    outcome.mapError (Stop.relocate place) ≠ .error .tooDeep ↔ outcome ≠ .error .tooDeep := by
  rcases outcome with (⟨e⟩ | _ | _) | a <;> simp [Except.mapError, Stop.relocate]

theorem Programs.endsFrom {p p' : Program} (programs : S.Programs p p') (sound : S.Sound)
    {m m' n : Machine} (related : S.machines m m') {outcome : Except Stop Unit}
    (h : p.EndsFrom m outcome n) :
    ∃ n', p'.EndsFrom m' (outcome.mapError (Stop.relocate S.place)) n' ∧ S.machines n n' := by
  obtain ⟨limit, run, inside⟩ := h
  have alike := programs.alike sound (Nat.le_refl limit) m m' related
  unfold AlikeAt at alike
  rw [run] at alike
  obtain ⟨less, -⟩ | ⟨outcomes, machines⟩ := alike
  · exact absurd less (Nat.lt_irrefl limit)
  · exact ⟨_, ⟨limit, Prod.ext outcomes rfl, (relocate_ne_tooDeep _).mpr inside⟩, machines⟩

theorem Programs.ends_alike {p p' : Program} (programs : S.Programs p p') (sound : S.Sound)
    {m m' n n' : Machine} (related : S.machines m m') {outcome outcome' : Except Stop Unit}
    (ends : p.EndsFrom m outcome n) (ends' : p'.EndsFrom m' outcome' n') :
    outcome' = outcome.mapError (Stop.relocate S.place) ∧ S.machines n n' := by
  obtain ⟨_, alike, reached⟩ := programs.endsFrom sound related ends
  obtain ⟨rfl, rfl⟩ := alike.unique ends'
  exact ⟨rfl, reached⟩

theorem Programs.endsFrom_iff {p p' : Program} (programs : S.Programs p p') (sound : S.Sound)
    {m m' : Machine} (related : S.machines m m') :
    (∃ outcome n, p.EndsFrom m outcome n) ↔ ∃ outcome n', p'.EndsFrom m' outcome n' := by
  constructor
  · rintro ⟨outcome, n, ends⟩
    obtain ⟨n', ends', -⟩ := programs.endsFrom sound related ends
    exact ⟨_, n', ends'⟩
  · rintro ⟨outcome', n', limit, run', inside'⟩
    have alike := programs.alike sound (Nat.le_refl limit) m m' related
    unfold AlikeAt at alike
    rw [run'] at alike
    obtain ⟨less, -⟩ | ⟨outcomes, -⟩ := alike
    · exact absurd less (Nat.lt_irrefl limit)
    · refine ⟨_, _, limit, rfl, (relocate_ne_tooDeep S.place).mp ?_⟩
      exact fun deep => inside' (outcomes.trans deep)

end Simulation

end Limit

end ScriptLang
