import ProofOutline.Compound
import ProofOutline.Proofs.Parser.Equations
import ProofOutline.Proofs.Replay

/-!
# Grouping leaves no trace

A block opens only the blocks that are its own parts.  Since every block was
made this way, there are none inside those: the parts of a block are primitive
commands, and whatever is put together in several steps depends only on the
primitive commands and their order.  So blocks are the commands of the program,
which are lists of primitive commands from the start.
-/

namespace ProofOutline

/-! ## Commands one after another -/

namespace Compound

@[simp] theorem subCommands_block (parts : List Compound) :
    (block parts).subCommands = parts := rfl

@[simp] theorem renderAll_eq_map (parts : List Compound) :
    renderAll parts = parts.map render := by
  induction parts with
  | nil => rfl
  | cons part rest ih => rw [renderAll, ih, List.map_cons]

@[simp] theorem preconditionAll_eq_foldr (parts : List Compound)
    (post : Formula) :
    preconditionAll parts post = parts.foldr precondition post := by
  induction parts with
  | nil => rfl
  | cons part rest ih => rw [preconditionAll, ih, List.foldr_cons]

@[simp] theorem runAll_eq_foldl (model : Model) (parts : List Compound)
    (state : ProgramState) :
    runAll model parts state =
      parts.foldl (fun state part => part.run model state) state := by
  induction parts generalizing state with
  | nil => rfl
  | cons part rest ih => rw [runAll, ih, List.foldl_cons]

@[simp] theorem foldr_subCommands (command : Compound) (post : Formula) :
    command.subCommands.foldr precondition post =
      command.precondition post := by
  cases command with
  | assign target value => rfl
  | skip => rfl
  | block parts => simp [precondition]

@[simp] theorem foldl_subCommands (model : Model) (command : Compound)
    (state : ProgramState) :
    command.subCommands.foldl (fun state part => part.run model state) state =
      command.run model state := by
  cases command with
  | assign target value => rfl
  | skip => rfl
  | block parts => simp [run]

@[simp] theorem intercalate_subCommands (command : Compound) :
    " ".intercalate (command.subCommands.map render) = command.render := by
  cases command with
  | assign target value => exact String.intercalate_singleton
  | skip => exact String.intercalate_singleton
  | block parts => simp [render]

private theorem intercalate_flatMap_subCommands {commands : List Compound}
    (nonempty : ∀ command ∈ commands, command.subCommands ≠ []) :
    " ".intercalate ((commands.flatMap subCommands).map render) =
      " ".intercalate (commands.map render) := by
  induction commands with
  | nil => rfl
  | cons first rest ih =>
      rw [List.forall_mem_cons] at nonempty
      rw [List.flatMap_cons, List.map_append, List.map_cons]
      cases rest with
      | nil => simp
      | cons second others =>
          have more : ((second :: others).flatMap subCommands).map render ≠ [] := by
            simp [nonempty.2 second List.mem_cons_self]
          rw [String.intercalate_append_of_ne_nil (by simpa using nonempty.1)
              more, ih nonempty.2, intercalate_subCommands,
            String.intercalate_cons_of_ne_nil (by simp)]

/-- The command does what the commands do one after another. -/
structure IsInOrder (command : Compound) (commands : List Compound) :
    Prop where
  subCommands : command.subCommands = commands.flatMap subCommands
  precondition : ∀ post,
    command.precondition post = commands.foldr Compound.precondition post
  run : ∀ (model : Model) (state : ProgramState),
    command.run model state =
      commands.foldl (fun state part => part.run model state) state
  render : command.render = " ".intercalate (commands.map Compound.render)

private theorem isInOrder_block {commands : List Compound}
    (nonempty : ∀ command ∈ commands, command.subCommands ≠ []) :
    (block (commands.flatMap Compound.subCommands)).IsInOrder commands where
  subCommands := rfl
  precondition post := by
    simp [Compound.precondition, List.foldr_flatMap]
  run model state := by simp [Compound.run, List.foldl_flatMap]
  render := by
    rw [Compound.render, renderAll_eq_map,
      intercalate_flatMap_subCommands nonempty]

theorem sequence_eq_ok_iff {commands : List Compound} {command : Compound} :
    sequence commands = .ok command ↔
      2 ≤ (commands.flatMap subCommands).length ∧
        command = .block (commands.flatMap subCommands) := by
  rw [sequence]
  generalize commands.flatMap subCommands = flat
  by_cases few : flat.length < 2
  · simp [few]
  · simp [few, Nat.not_lt.mp few, eq_comm]

theorem sequence_eq_error_iff {commands : List Compound}
    {error : SequenceError} :
    sequence commands = .error error ↔
      (commands.flatMap subCommands).length < 2 ∧
        error.count = (commands.flatMap subCommands).length := by
  obtain ⟨count⟩ := error
  rw [sequence]
  generalize commands.flatMap subCommands = flat
  by_cases few : flat.length < 2
  · simp [few, eq_comm]
  · simp [few]

/-! ## Commands of the program -/

mutual

def primitives : Compound → List Primitive
  | assign target value => [.assign target value]
  | skip => [.skip]
  | block parts => primitivesAll parts

def primitivesAll : List Compound → List Primitive
  | [] => []
  | part :: rest => part.primitives ++ primitivesAll rest

end

def ofPrimitive : Primitive → Compound
  | .assign target value => .assign target value
  | .skip => .skip

@[simp] theorem subCommands_ofPrimitive (primitive : Primitive) :
    (ofPrimitive primitive).subCommands = [ofPrimitive primitive] := by
  cases primitive <;> rfl

@[simp] theorem flatMap_subCommands_map_ofPrimitive
    (primitives : List Primitive) :
    (primitives.map ofPrimitive).flatMap subCommands =
      primitives.map ofPrimitive := by
  simp [List.flatMap_map, ← List.map_eq_flatMap]

@[simp] theorem primitives_ofPrimitive (primitive : Primitive) :
    (ofPrimitive primitive).primitives = [primitive] := by
  cases primitive <;> rfl

@[simp] theorem primitivesAll_map_ofPrimitive (primitives : List Primitive) :
    primitivesAll (primitives.map ofPrimitive) = primitives := by
  induction primitives with
  | nil => rfl
  | cons first rest ih =>
      rw [List.map_cons, primitivesAll, ih, primitives_ofPrimitive,
        List.singleton_append]

@[simp] theorem precondition_ofPrimitive (primitive : Primitive)
    (post : Formula) :
    (ofPrimitive primitive).precondition post =
      primitive.precondition post := by
  cases primitive <;> rfl

@[simp] theorem run_ofPrimitive (model : Model) (primitive : Primitive)
    (state : ProgramState) :
    (ofPrimitive primitive).run model state = state.step model primitive := by
  cases primitive <;> rfl

@[simp] theorem render_ofPrimitive (primitive : Primitive) :
    (ofPrimitive primitive).render = primitive.render := by
  cases primitive <;> rfl

end Compound

namespace Command

def compound (command : Command) : Compound :=
  match command.rest with
  | [] => .ofPrimitive command.first
  | _ :: _ => .block (command.primitives.map .ofPrimitive)

@[simp] theorem subCommands_compound (command : Command) :
    command.compound.subCommands = command.primitives.map .ofPrimitive := by
  obtain ⟨first, _ | ⟨second, rest⟩⟩ := command
  · exact Compound.subCommands_ofPrimitive first
  · rfl

@[simp] theorem primitives_compound (command : Command) :
    command.compound.primitives = command.primitives := by
  obtain ⟨first, _ | ⟨second, rest⟩⟩ := command
  · exact Compound.primitives_ofPrimitive first
  · exact Compound.primitivesAll_map_ofPrimitive _

@[simp] theorem precondition_compound (command : Command) (post : Formula) :
    command.compound.precondition post = command.precondition post := by
  rw [← Compound.foldr_subCommands, subCommands_compound, List.foldr_map]
  simp [precondition]

@[simp] theorem run_compound (command : Command) (model : Model)
    (state : ProgramState) :
    command.compound.run model state = state.run model command := by
  rw [← Compound.foldl_subCommands, subCommands_compound, List.foldl_map]
  simp [ProgramState.run]

@[simp] theorem render_compound (command : Command) :
    command.compound.render = command.render := by
  rw [← Compound.intercalate_subCommands, subCommands_compound, List.map_map]
  simp [render, Function.comp_def]

private theorem two_le_of_compound_eq_block {command : Command}
    {parts : List Compound} (same : command.compound = .block parts) :
    2 ≤ parts.length := by
  obtain ⟨first, _ | ⟨second, rest⟩⟩ := command
  · cases first <;> cases same
  · cases same
    simp [primitives]

private theorem ext_primitives {first second : Command}
    (same : first.primitives = second.primitives) : first = second := by
  obtain ⟨head, tail⟩ := first
  obtain ⟨head', tail'⟩ := second
  obtain ⟨rfl, rfl⟩ := List.cons.inj same
  rfl

@[simp] theorem flatMap_subCommands_compound (commands : List Command) :
    (commands.map compound).flatMap Compound.subCommands =
      (commands.flatMap primitives).map .ofPrimitive := by
  simp [List.flatMap_map, List.map_flatMap]

theorem sequence_eq_ok_iff {commands : List Command} {command : Command} :
    sequence commands = .ok command ↔
      command.primitives = commands.flatMap primitives ∧
        2 ≤ (commands.flatMap primitives).length := by
  obtain ⟨head, tail⟩ := command
  rw [sequence, primitives]
  rcases commands.flatMap primitives with _ | ⟨first, _ | ⟨second, rest⟩⟩
  · simp
  · simp
  · simp [eq_comm]

private theorem sequence_compound (commands : List Command) :
    Compound.sequence (commands.map compound) =
      (sequence commands).map compound := by
  rw [Compound.sequence, flatMap_subCommands_compound, sequence]
  rcases commands.flatMap primitives with _ | ⟨first, _ | ⟨second, rest⟩⟩
  · rfl
  · rfl
  · rw [if_neg (by simp)]
    rfl

end Command

/-! ## Putting commands together -/

/-- A way of putting a command together from primitive ones. -/
inductive Grouping where
  | primitive (primitive : Primitive)
  | sequence (parts : List Grouping)

namespace Grouping

mutual

def primitives : Grouping → List Primitive
  | primitive only => [only]
  | sequence parts => primitivesList parts

def primitivesList : List Grouping → List Primitive
  | [] => []
  | part :: rest => part.primitives ++ primitivesList rest

end

mutual

def build : Grouping → Except SequenceError Compound
  | primitive only => .ok (.ofPrimitive only)
  | sequence parts => (buildList parts).bind Compound.sequence

def buildList : List Grouping → Except SequenceError (List Compound)
  | [] => .ok []
  | part :: rest =>
      part.build.bind fun command => (buildList rest).map (command :: ·)

end

private theorem exists_of_buildList_cons {part : Grouping}
    {rest : List Grouping} {commands : List Compound}
    (built : buildList (part :: rest) = .ok commands) :
    ∃ command others, part.build = .ok command ∧
      buildList rest = .ok others ∧ commands = command :: others := by
  rw [buildList] at built
  obtain ⟨command, first, built⟩ := bind_eq_ok_iff.mp built
  cases more : buildList rest with
  | error error =>
      rw [more] at built
      cases built
  | ok others =>
      rw [more] at built
      cases built
      exact ⟨command, others, first, rfl, rfl⟩

mutual

theorem exists_of_build : ∀ {grouping : Grouping} {command : Compound},
    grouping.build = .ok command →
      ∃ flat : Command, command = flat.compound ∧
        flat.primitives = grouping.primitives
  | primitive only, command, built => by
      cases built
      exact ⟨.ofPrimitive only, rfl, rfl⟩
  | sequence parts, command, built => by
      rw [build] at built
      obtain ⟨commands, inner, joined⟩ := bind_eq_ok_iff.mp built
      obtain ⟨flats, rfl, same⟩ := exists_of_buildList inner
      rw [Command.sequence_compound] at joined
      cases outcome : Command.sequence flats with
      | error error =>
          rw [outcome] at joined
          cases joined
      | ok flat =>
          rw [outcome] at joined
          cases joined
          refine ⟨flat, rfl, ?_⟩
          rw [(Command.sequence_eq_ok_iff.mp outcome).1, same, primitives]

private theorem exists_of_buildList :
    ∀ {parts : List Grouping} {commands : List Compound},
      buildList parts = .ok commands →
        ∃ flats : List Command, commands = flats.map Command.compound ∧
          flats.flatMap Command.primitives = primitivesList parts
  | [], commands, built => by
      cases built
      exact ⟨[], rfl, rfl⟩
  | part :: rest, commands, built => by
      obtain ⟨command, others, first, more, rfl⟩ :=
        exists_of_buildList_cons built
      obtain ⟨flat, rfl, same⟩ := exists_of_build first
      obtain ⟨flats, rfl, sameRest⟩ := exists_of_buildList more
      refine ⟨flat :: flats, rfl, ?_⟩
      rw [List.flatMap_cons, same, sameRest, primitivesList]

end

@[simp] theorem buildList_primitives (primitives : List Primitive) :
    buildList (primitives.map .primitive) =
      .ok (primitives.map .ofPrimitive) := by
  induction primitives with
  | nil => rfl
  | cons first rest ih =>
      rw [List.map_cons, buildList, ih]
      rfl

end Grouping

namespace Compound

def Built (command : Compound) : Prop :=
  ∃ grouping : Grouping, grouping.build = .ok command

theorem built_iff {command : Compound} :
    command.Built ↔ ∃ flat : Command, command = flat.compound := by
  constructor
  · rintro ⟨grouping, built⟩
    obtain ⟨flat, rfl, -⟩ := Grouping.exists_of_build built
    exact ⟨flat, rfl⟩
  · rintro ⟨⟨first, _ | ⟨second, rest⟩⟩, rfl⟩
    · exact ⟨.primitive first, rfl⟩
    · refine ⟨.sequence ((first :: second :: rest).map .primitive), ?_⟩
      rw [Grouping.build, Grouping.buildList_primitives]
      refine sequence_eq_ok_iff.mpr ?_
      rw [flatMap_subCommands_map_ofPrimitive]
      exact ⟨by simp, rfl⟩

private theorem exists_of_forall_built {commands : List Compound}
    (built : ∀ command ∈ commands, command.Built) :
    ∃ flats : List Command, commands = flats.map Command.compound := by
  induction commands with
  | nil => exact ⟨[], rfl⟩
  | cons first rest ih =>
      rw [List.forall_mem_cons] at built
      obtain ⟨flat, rfl⟩ := built_iff.mp built.1
      obtain ⟨flats, rfl⟩ := ih built.2
      exact ⟨flat :: flats, rfl⟩

private theorem length_subCommands_of_built {commands : List Compound}
    (built : ∀ command ∈ commands, command.Built) :
    (commands.flatMap subCommands).length =
      (commands.flatMap primitives).length := by
  obtain ⟨flats, rfl⟩ := exists_of_forall_built built
  rw [Command.flatMap_subCommands_compound, List.length_map, List.flatMap_map]
  simp

/--
The commands in a block are primitive, and there are two or more.  Commands
make a block exactly if there are two primitive commands in them, the block
does what they do one after another, and whatever is put together in several
steps depends only on the primitive commands and their order.  What can be put
together are the commands of the program, with the same preconditions, runs and
printed forms.
-/
theorem grouping_irrelevant :
    (∀ command : Compound, command.Built →
      (∀ part ∈ command.subCommands,
        ∃ primitive, part = ofPrimitive primitive) ∧
      ∀ parts, command = .block parts → 2 ≤ parts.length) ∧
    (∀ commands : List Compound, (∀ command ∈ commands, command.Built) →
      ((∃ command, sequence commands = .ok command) ↔
        2 ≤ (commands.flatMap primitives).length) ∧
      (∀ error, sequence commands = .error error ↔
        (commands.flatMap primitives).length < 2 ∧
          error.count = (commands.flatMap primitives).length) ∧
      ∀ command, sequence commands = .ok command →
        command.IsInOrder commands) ∧
    (∀ (grouping : Grouping) (command : Compound),
      grouping.build = .ok command →
        command.subCommands = grouping.primitives.map ofPrimitive) ∧
    (∀ (first second : Grouping) (command other : Compound),
      first.primitives = second.primitives →
        first.build = .ok command → second.build = .ok other →
          command = other) ∧
    (∀ command : Compound,
      command.Built ↔ ∃ flat : Command, command = flat.compound) ∧
    (∀ commands : List Command,
      sequence (commands.map Command.compound) =
        (Command.sequence commands).map Command.compound) ∧
    ∀ flat : Command,
      (∀ post, flat.compound.precondition post = flat.precondition post) ∧
      (∀ (model : Model) (state : ProgramState),
        flat.compound.run model state = state.run model flat) ∧
      flat.compound.render = flat.render := by
  refine ⟨?_, ?_, ?_, ?_, fun command => built_iff, Command.sequence_compound,
    fun flat => ⟨flat.precondition_compound, flat.run_compound,
      flat.render_compound⟩⟩
  · intro command built
    obtain ⟨flat, rfl⟩ := built_iff.mp built
    constructor
    · intro part mem
      rw [Command.subCommands_compound] at mem
      obtain ⟨primitive, -, rfl⟩ := List.mem_map.mp mem
      exact ⟨primitive, rfl⟩
    · intro parts same
      exact Command.two_le_of_compound_eq_block same
  · intro commands built
    rw [← length_subCommands_of_built built]
    refine ⟨⟨?_, fun enough => ⟨_, sequence_eq_ok_iff.mpr ⟨enough, rfl⟩⟩⟩,
      fun error => sequence_eq_error_iff, ?_⟩
    · rintro ⟨command, joined⟩
      exact (sequence_eq_ok_iff.mp joined).1
    · intro command joined
      obtain ⟨-, rfl⟩ := sequence_eq_ok_iff.mp joined
      apply isInOrder_block
      intro part mem
      obtain ⟨flat, rfl⟩ := built_iff.mp (built part mem)
      simp [Command.primitives]
  · intro grouping command built
    obtain ⟨flat, rfl, same⟩ := Grouping.exists_of_build built
    rw [Command.subCommands_compound, same]
  · intro first second command other same built built'
    obtain ⟨flat, rfl, ofFirst⟩ := Grouping.exists_of_build built
    obtain ⟨flat', rfl, ofSecond⟩ := Grouping.exists_of_build built'
    have alike : flat = flat' :=
      Command.ext_primitives (by rw [ofFirst, ofSecond, same])
    rw [alike]

section Nested

open Verdict.Overflowing (a b)

theorem grouping_irrelevant_nested :
    let early : Grouping := .sequence
      [.sequence [.primitive (.assign a (.var b)), .primitive .skip],
        .primitive (.assign b (.lit 2))]
    let late : Grouping := .sequence
      [.primitive (.assign a (.var b)),
        .sequence [.primitive .skip, .primitive (.assign b (.lit 2))]]
    let parts : List Compound :=
      [.block [.assign a (.var b), .skip], .assign b (.lit 2)]
    (∀ part ∈ parts, part.Built) ∧
    ∃ command, early.build = .ok command ∧ late.build = .ok command ∧
      (∀ part ∈ command.subCommands,
        ∃ primitive, part = ofPrimitive primitive) ∧
      command.IsInOrder parts ∧
      command.render = "a := b; skip; b := 2;" ∧
      sequence [.assign b (.lit 2)] = .error ⟨1⟩ := by
  intro early late parts
  obtain ⟨flat, ofLists, -, alike, -⟩ := grouping_irrelevant
  have builtPair : (block [.assign a (.var b), .skip]).Built :=
    ⟨.sequence [.primitive (.assign a (.var b)), .primitive .skip], rfl⟩
  have builtLast : (assign b (.lit 2)).Built :=
    ⟨.primitive (.assign b (.lit 2)), rfl⟩
  have built : ∀ part ∈ parts, part.Built := by
    simpa [parts] using And.intro builtPair builtLast
  obtain ⟨command, ofEarly⟩ : ∃ command, early.build = .ok command := ⟨_, rfl⟩
  obtain ⟨other, ofLate⟩ : ∃ other, late.build = .ok other := ⟨_, rfl⟩
  have same : command = other :=
    alike early late command other rfl ofEarly ofLate
  have inOrder : command.IsInOrder parts :=
    (ofLists parts built).2.2 command ofEarly
  refine ⟨built, command, ofEarly, same ▸ ofLate,
    (flat command ⟨early, ofEarly⟩).1, inOrder, ?_, ?_⟩
  · rw [inOrder.render]
    decide +kernel
  · refine ((ofLists [.assign b (.lit 2)] ?_).2.1 ⟨1⟩).mpr ⟨by decide, rfl⟩
    simpa using builtLast

end Nested

end Compound

end ProofOutline
