import ProofOutline.Proofs.Replay
import ProofOutline.Triple

/-!
# Running forward and substituting backward

A command can be run in words, or its assignments can be put into an expression
from the last to the first and the result be evaluated at the start.  Both give
the same word or both overflow.  The two meet in environments in which a
variable may have no word: putting an expression for a variable is changing such
an environment at the variable, and so is running an assignment.
-/

namespace ProofOutline

/-! ## Environments with overflowed variables -/

namespace Arith

/-- The value in words, where reading an overflowed variable overflows. -/
def evalIn? (env : Name → Option Word) : Arith → Option Word
  | lit word => some word
  | var name => env name
  | binary op left right =>
      (left.evalIn? env).bind fun a =>
        (right.evalIn? env).bind fun b => op.onWords? a b

theorem evalIn?_eq_eval? {expr : Arith} {env : Name → Option Word}
    {words : Name → Word}
    (agree : ∀ name ∈ expr.occurrences, env name = some (words name)) :
    expr.evalIn? env = expr.eval? words := by
  induction expr with
  | lit word => rfl
  | var name => exact agree name (by simp [occurrences])
  | binary op left right ihLeft ihRight =>
      have inLeft : left.evalIn? env = left.eval? words :=
        ihLeft fun name mem => agree name (by simp [occurrences, mem])
      have inRight : right.evalIn? env = right.eval? words :=
        ihRight fun name mem => agree name (by simp [occurrences, mem])
      simp only [evalIn?, eval?_binary, inLeft, inRight]

private theorem evalIn?_eq_none {expr : Arith} {env : Name → Option Word}
    {name : Name} (mem : name ∈ expr.occurrences)
    (overflowed : env name = none) : expr.evalIn? env = none := by
  induction expr with
  | lit word => exact absurd mem List.not_mem_nil
  | var other =>
      cases List.mem_singleton.mp mem
      exact overflowed
  | binary op left right ihLeft ihRight =>
      rcases List.mem_append.mp mem with inLeft | inRight
      · simp [evalIn?, ihLeft inLeft]
      · simp [evalIn?, ihRight inRight]

@[simp] theorem evalIn?_subst (expr : Arith) (name : Name) (replacement : Arith)
    (env : Name → Option Word) :
    (expr.subst name replacement).evalIn? env =
      expr.evalIn? fun other =>
        if other = name then replacement.evalIn? env else env other := by
  induction expr with
  | lit word => rfl
  | var other =>
      by_cases same : other = name <;> simp [subst, evalIn?, same]
  | binary op left right ihLeft ihRight =>
      simp only [subst, evalIn?, ihLeft, ihRight]

end Arith

theorem Model.eval?_eq_evalIn? (model : Model) (expr : Arith) :
    model.eval? expr =
      expr.evalIn? fun name => some (model.valueOf name) :=
  (Arith.evalIn?_eq_eval? fun _ _ => rfl).symm

/-! ## States as environments -/

namespace ProgramState

def read? (model : Model) (state : ProgramState) (name : Name) :
    Option Word :=
  (state.get? name).getD (some (model.valueOf name))

variable {model : Model} {state : ProgramState}

private theorem read?_of_not_overflowed {name : Name}
    (clean : state.get? name ≠ some none) :
    state.read? model name = some (state.valueOf model name) := by
  unfold read? valueOf
  cases found : state.get? name with
  | none => rfl
  | some value =>
      cases value with
      | none => exact absurd found clean
      | some word => rfl

private theorem read?_of_overflowed {name : Name}
    (overflowed : state.get? name = some none) :
    state.read? model name = none := by
  simp [read?, overflowed]

@[simp] theorem read?_ofModel (model : Model) (names : List Name)
    (name : Name) :
    (ofModel model names).read? model name = some (model.valueOf name) := by
  unfold read?
  rw [get?_ofModel]
  split <;> rfl

theorem eval?_eq_evalIn? (model : Model) (state : ProgramState)
    (expr : Arith) :
    state.eval? model expr = expr.evalIn? (state.read? model) := by
  unfold eval?
  split
  case isTrue overflows =>
    obtain ⟨name, mem, overflowed⟩ := List.any_eq_true.mp overflows
    exact (Arith.evalIn?_eq_none (Arith.mem_freeVars.mp mem)
      (read?_of_overflowed (hasOverflowed_iff.mp overflowed))).symm
  case isFalse clean =>
    refine (Arith.evalIn?_eq_eval? fun name mem => ?_).symm
    refine read?_of_not_overflowed fun overflowed => clean ?_
    exact List.any_eq_true.mpr ⟨name, Arith.mem_freeVars.mpr mem,
      hasOverflowed_iff.mpr overflowed⟩

@[simp] theorem read?_assign (target : Name) (value : Arith) :
    (state.step model (.assign target value)).read? model = fun name =>
      if name = target then value.evalIn? (state.read? model)
      else state.read? model name := by
  funext name
  unfold read?
  rw [step, NameTable.get?_insert, eval?_eq_evalIn?]
  split <;> rfl

end ProgramState

/-! ## Substituting backward -/

/-- The expression whose value before the command is that of `expr` after. -/
def Primitive.pullBack : Primitive → Arith → Arith
  | assign target value, expr => expr.subst target value
  | skip, expr => expr

def Command.pullBack (command : Command) (expr : Arith) : Arith :=
  command.primitives.foldr Primitive.pullBack expr

@[simp] theorem Command.precondition_compare (command : Command)
    (op : CompareOp) (left right : Arith) :
    command.precondition (.compare op left right) =
      .compare op (command.pullBack left) (command.pullBack right) := by
  unfold precondition pullBack
  induction command.primitives with
  | nil => rfl
  | cons first rest ih =>
      rw [List.foldr_cons, ih]
      cases first <;> rfl

namespace ProgramState

theorem evalIn?_pullBack (model : Model) (state : ProgramState)
    (primitive : Primitive) (expr : Arith) :
    (primitive.pullBack expr).evalIn? (state.read? model) =
      expr.evalIn? ((state.step model primitive).read? model) := by
  cases primitive with
  | skip => rfl
  | assign target value =>
      rw [read?_assign]
      exact expr.evalIn?_subst target value (state.read? model)

/-- The last assignment is put in first and run last. -/
theorem evalIn?_run (model : Model) (state : ProgramState)
    (command : Command) (expr : Arith) :
    (command.pullBack expr).evalIn? (state.read? model) =
      expr.evalIn? ((state.run model command).read? model) := by
  unfold Command.pullBack run
  induction command.primitives generalizing state with
  | nil => rfl
  | cons first rest ih =>
      rw [List.foldr_cons, List.foldl_cons, evalIn?_pullBack, ih]

theorem isSome_get?_run (model : Model) (state : ProgramState)
    (command : Command) (name : Name) :
    ((state.run model command).get? name).isSome = true ↔
      (state.get? name).isSome = true ∨
        ∃ value, .assign name value ∈ command.primitives := by
  unfold run
  induction command.primitives generalizing state with
  | nil => simp
  | cons first rest ih =>
      rw [List.foldl_cons, ih]
      cases first with
      | skip => simp [step]
      | assign target value =>
          rw [step, NameTable.get?_insert]
          by_cases same : name = target
          · simp [same]
          · simp [same]

/--
The word of an expression after a run is the word that the expression has at
the start once the assignments are put into it, and if one of the two
overflows, so does the other.
-/
theorem replay_agrees_with_substitution (command : Command) (model : Model)
    (names : List Name) (expr : Arith) :
    let state := (ofModel model names).run model command
    (∀ (op : CompareOp) (other : Arith),
      command.precondition (.compare op expr other) =
        .compare op (command.pullBack expr) (command.pullBack other)) ∧
    ((∃ name ∈ expr.freeVars, state.get? name = some none) →
      model.eval? (command.pullBack expr) = none) ∧
    ((∀ name ∈ expr.freeVars, state.get? name ≠ some none) →
      model.eval? (command.pullBack expr) =
        expr.eval? (state.valueOf model)) ∧
    (∀ name, (state.get? name).isSome = true ↔
      name ∈ names ∨ ∃ value, .assign name value ∈ command.primitives) := by
  intro state
  have start : (ofModel model names).read? model =
      fun name => some (model.valueOf name) :=
    funext (read?_ofModel model names)
  have agrees : model.eval? (command.pullBack expr) =
      expr.evalIn? (state.read? model) := by
    rw [Model.eval?_eq_evalIn?, ← start]
    exact evalIn?_run model _ command expr
  refine ⟨fun op other => command.precondition_compare op expr other,
    ?_, ?_, fun name => ?_⟩
  · rintro ⟨name, mem, overflowed⟩
    rw [agrees]
    exact Arith.evalIn?_eq_none (Arith.mem_freeVars.mp mem)
      (read?_of_overflowed overflowed)
  · intro clean
    rw [agrees]
    refine Arith.evalIn?_eq_eval? fun name mem => ?_
    exact read?_of_not_overflowed (clean name (Arith.mem_freeVars.mpr mem))
  · rw [isSome_get?_run, get?_ofModel]
    by_cases known : name ∈ names <;> simp [known]

section Overflowing

open Verdict.Overflowing (a b c model triple)

/--
`c` takes an overflowed word, so that nothing with `c` in it has a value.  `a`
has overflowed only for a while and is `2` in the end, `b` is unknown to the
state and is `3` in the model.
-/
theorem replay_agrees_with_substitution_overflowing :
    let command := triple.program.command
    let state := (ofModel model [a]).run model command
    let unusable := Arith.binary .times (.lit 0) (.var c)
    let usable := Arith.binary .times (.var a) (.var b)
    model.eval? (command.pullBack unusable) = none ∧
      model.eval? (command.pullBack usable) =
        usable.eval? (state.valueOf model) ∧
      usable.eval? (state.valueOf model) = some 6 := by
  intro command state unusable usable
  have overflows : ∃ name ∈ unusable.freeVars, state.get? name = some none :=
    ⟨c, by decide +kernel, by decide +kernel⟩
  have clean : ∀ name ∈ usable.freeVars, state.get? name ≠ some none := by
    decide +kernel
  have ofUnusable :=
    replay_agrees_with_substitution command model [a] unusable
  have ofUsable := replay_agrees_with_substitution command model [a] usable
  exact ⟨ofUnusable.2.1 overflows, ofUsable.2.2.1 clean, by decide +kernel⟩

end Overflowing

end ProgramState

end ProofOutline
