import ProofOutline.Feedback
import ProofOutline.Proofs.Evaluation
import ProofOutline.Proofs.Precondition
import ProofOutline.Proofs.Substitution

/-!
# Replaying a counterexample

A counterexample is shown by running the program in words from the values that
the model gives to the variables of the precondition.  The run keeps track of
the run over unbounded integers: a variable that has not overflowed has its
exact value, whether the state shows it or leaves it to the model.  So the
numbers in the message are exact, and a model that falsifies the query of a
triple is shown to satisfy the precondition and to miss the postcondition.
-/

namespace ProofOutline

/-! ## Only the variables that occur matter -/

theorem Arith.value_congr {expr : Arith} {first second : Valuation}
    (agree : ∀ name ∈ expr.occurrences, first name = second name) :
    expr.value first = expr.value second := by
  induction expr with
  | lit word => rfl
  | var name => exact agree name (by simp [occurrences])
  | binary op left right ihLeft ihRight =>
      have inLeft : left.value first = left.value second :=
        ihLeft fun name mem => agree name (by simp [occurrences, mem])
      have inRight : right.value first = right.value second :=
        ihRight fun name mem => agree name (by simp [occurrences, mem])
      simp only [value, inLeft, inRight]

theorem Formula.holds_congr {formula : Formula} {first second : Valuation}
    (agree : ∀ name ∈ formula.occurrences, first name = second name)
    (interpretation : Interpretation) :
    formula.holds interpretation first =
      formula.holds interpretation second := by
  induction formula with
  | truth value => rfl
  | predicate symbol args =>
      have values : args.map (·.value first) = args.map (·.value second) := by
        apply List.map_congr_left
        intro arg mem
        apply Arith.value_congr
        intro name inside
        exact agree name (List.mem_flatMap.mpr ⟨arg, mem, inside⟩)
      simp only [holds, values]
  | neg body ih => simp only [holds, ih agree]
  | connect op left right ihLeft ihRight =>
      have inLeft :=
        ihLeft fun name mem => agree name (by simp [occurrences, mem])
      have inRight :=
        ihRight fun name mem => agree name (by simp [occurrences, mem])
      simp only [holds, inLeft, inRight]
  | compare op left right =>
      have inLeft : left.value first = left.value second :=
        Arith.value_congr fun name mem =>
          agree name (by simp [occurrences, mem])
      have inRight : right.value first = right.value second :=
        Arith.value_congr fun name mem =>
          agree name (by simp [occurrences, mem])
      simp only [holds, inLeft, inRight]

namespace Model

def valuation (model : Model) : Valuation := fun name =>
  match model.get? name with
  | some word => word.toInt
  | none => 0

@[simp] theorem toInt_valueOf (model : Model) (name : Name) :
    (model.valueOf name).toInt = model.valuation name := by
  unfold valueOf valuation
  cases model.get? name <;> rfl

end Model

namespace ProgramState

variable {model : Model} {state : ProgramState} {values : Valuation}

/-- The numbers that the state shows, and those of the model for the rest. -/
def valuation (model : Model) (state : ProgramState) : Valuation :=
  fun name => (state.valueOf model name).toInt

theorem valuation_of_get? {name : Name} {word : Word}
    (h : state.get? name = some (some word)) :
    state.valuation model name = word.toInt := by
  simp [valuation, valueOf, h]

private theorem valuation_of_unknown {name : Name}
    (h : state.get? name = none) :
    state.valuation model name = model.valuation name := by
  simp [valuation, valueOf, h]

@[simp] theorem hasOverflowed_iff {name : Name} :
    state.hasOverflowed name = true ↔ state.get? name = some none := by
  simp [hasOverflowed]

/-- Variables that have not overflowed have their exact values. -/
def Tracks (model : Model) (state : ProgramState) (values : Valuation) :
    Prop :=
  ∀ name, state.get? name ≠ some none →
    state.valuation model name = values name

@[simp] theorem get?_ofModel (model : Model) (names : List Name) (name : Name) :
    (ofModel model names).get? name =
      if name ∈ names then some (some (model.valueOf name)) else none :=
  NameTable.get?_ofList_map names (fun name => some (model.valueOf name)) name

private theorem tracks_ofModel (model : Model) (names : List Name) :
    (ofModel model names).Tracks model model.valuation := by
  intro name _
  have found := get?_ofModel model names name
  by_cases mem : name ∈ names
  · rw [if_pos mem] at found
    rw [valuation_of_get? found, Model.toInt_valueOf]
  · rw [if_neg mem] at found
    exact valuation_of_unknown found

theorem Tracks.toInt_of_eval? (h : state.Tracks model values) {expr : Arith}
    {word : Word} (evaluates : state.eval? model expr = some word) :
    word.toInt = expr.value values := by
  rw [eval?] at evaluates
  split at evaluates
  case isTrue => cases evaluates
  case isFalse clean =>
    have agree : ∀ name ∈ expr.occurrences,
        state.valuation model name = values name := by
      intro name mem
      apply h
      intro overflowed
      apply clean
      rw [List.any_eq_true]
      exact ⟨name, Arith.mem_freeVars.mpr mem,
        hasOverflowed_iff.mpr overflowed⟩
    rw [Arith.toInt_of_eval? evaluates]
    exact Arith.value_congr agree

theorem Tracks.step (h : state.Tracks model values) (primitive : Primitive) :
    (state.step model primitive).Tracks model (primitive.exec values) := by
  cases primitive with
  | skip => exact h
  | assign target value =>
      intro name notOverflowed
      have found : (state.step model (.assign target value)).get? name =
          if name = target then some (state.eval? model value)
          else state.get? name :=
        state.get?_insert target name (state.eval? model value)
      by_cases same : name = target
      · rw [if_pos same] at found
        cases evaluates : state.eval? model value with
        | none => exact absurd (evaluates ▸ found) notOverflowed
        | some word =>
            rw [evaluates] at found
            rw [valuation_of_get? found, h.toInt_of_eval? evaluates]
            simp [Primitive.exec, Valuation.update, same]
      · rw [if_neg same] at found
        rw [found] at notOverflowed
        have kept : (state.step model (.assign target value)).valuation
            model name = state.valuation model name := by
          simp only [valuation, valueOf, found]
        rw [kept, h name notOverflowed]
        simp [Primitive.exec, Valuation.update, same]

theorem Tracks.run (h : state.Tracks model values) (command : Command) :
    (state.run model command).Tracks model (command.exec values) := by
  have all (primitives : List Primitive) :
      (primitives.foldl (ProgramState.step model) state).Tracks model
        (primitives.foldl Primitive.exec values) := by
    induction primitives generalizing state values with
    | nil => exact h
    | cons first rest ih => exact ih (h.step first)
  exact all command.primitives

theorem Tracks.holds (h : state.Tracks model values) {formula : Formula}
    (clean : ∀ name ∈ formula.freeVars, state.get? name ≠ some none)
    (interpretation : Interpretation) :
    formula.holds interpretation (state.valuation model) =
      formula.holds interpretation values := by
  apply Formula.holds_congr
  intro name mem
  exact h name (clean name (Formula.mem_freeVars.mpr mem))

end ProgramState

namespace Verdict

def finalState (triple : Triple) (model : Model) : ProgramState :=
  (startState triple model).run model triple.program.command

private theorem tracks_finalState (triple : Triple) (model : Model) :
    (finalState triple model).Tracks model
      (triple.program.command.exec model.valuation) :=
  (ProgramState.tracks_ofModel model _).run triple.program.command

/-! ## What the message shows -/

def stateLine : Name × Option Int → String
  | (name, some number) => "    " ++ name.text ++ ": " ++ toString number
  | (name, none) => "    " ++ name.text ++ ": <overflow>"

def stateLines : List (Name × Option Int) → List String
  | [] => ["    (no variables)"]
  | shown => shown.map stateLine

def setupLines (triple : Triple) (start : List (Name × Option Int)) :
    List String :=
  ["✗ Incorrect!",
    "The precondition does not guarantee that the postcondition will hold " ++
      "after the command(s).",
    "",
    "Suppose we start with the variables being set thus."] ++
  stateLines start ++
  ["Then the precondition", "    " ++ triple.pre.source, "is satisfied."]

def endLines (triple : Triple) (final : List (Name × Option Int)) :
    List String :=
  if triple.program.command = .skip then
    ["But the postcondition", "    " ++ triple.post.source,
      "is not satisfied."]
  else
    ["But after running", "    " ++ triple.program.source,
      "the state of the program will be"] ++
    stateLines final ++
    ["and the postcondition", "    " ++ triple.post.source,
      "will not be satisfied."]

/--
The lines of a counterexample, given the variables listed at its start and at
its end, each with its number or, where there is none, as overflowed.
-/
def counterexampleLines (triple : Triple)
    (start final : List (Name × Option Int)) : List String :=
  setupLines triple start ++ "" :: endLines triple final

private theorem stateLines_ne_nil (shown : List (Name × Option Int)) :
    stateLines shown ≠ [] := by
  cases shown <;> simp [stateLines]

private theorem endLines_ne_nil (triple : Triple)
    (final : List (Name × Option Int)) : endLines triple final ≠ [] := by
  unfold endLines
  split <;> simp

private theorem renderEntry_eq_stateLine (entry : Name × Option Word) :
    ProgramState.renderEntry entry =
      stateLine (entry.1, entry.2.map Int64.toInt) := by
  obtain ⟨name, word | word⟩ := entry <;> rfl

end Verdict

namespace ProgramState

def shown (state : ProgramState) : List (Name × Option Int) :=
  state.entries.map fun entry => (entry.1, entry.2.map Int64.toInt)

@[simp] theorem mem_shown_iff {state : ProgramState} {name : Name}
    {number : Int} :
    (name, some number) ∈ state.shown ↔
      ∃ word, state.get? name = some (some word) ∧ word.toInt = number := by
  simp only [shown, List.mem_map, Prod.exists, Prod.mk.injEq,
    NameTable.mem_entries_iff]
  constructor
  · rintro ⟨_, value, found, rfl, isNumber⟩
    obtain ⟨word, rfl, rfl⟩ := Option.map_eq_some_iff.mp isNumber
    exact ⟨word, found, rfl⟩
  · rintro ⟨word, found, rfl⟩
    exact ⟨name, some word, found, rfl, rfl⟩

@[simp] theorem overflowed_mem_shown_iff {state : ProgramState}
    {name : Name} :
    (name, none) ∈ state.shown ↔ state.get? name = some none := by
  simp [shown, NameTable.mem_entries_iff]

private theorem eq_valuation_of_shown {model : Model} {state : ProgramState}
    {values : Valuation}
    (listed : ∀ name number, (name, some number) ∈ state.shown →
      values name = number)
    (unlisted : ∀ name, name ∉ state.shown.map Prod.fst →
      values name = model.valuation name)
    {name : Name} (clean : (name, none) ∉ state.shown) :
    values name = state.valuation model name := by
  cases found : state.get? name with
  | none =>
      rw [valuation_of_unknown found]
      apply unlisted
      simp [shown, NameTable.mem_entries_iff, found]
  | some value =>
      cases value with
      | none => exact absurd (overflowed_mem_shown_iff.mpr found) clean
      | some word =>
          rw [valuation_of_get? found]
          exact listed name _ (mem_shown_iff.mpr ⟨word, found, rfl⟩)

private theorem render_eq_stateLines (state : ProgramState) :
    state.render = "\n".intercalate (Verdict.stateLines state.shown) := by
  obtain ⟨entries, ordered⟩ := state
  cases entries with
  | nil => rfl
  | cons first rest =>
      have lines : Verdict.stateLines (shown ⟨first :: rest, ordered⟩) =
          (first :: rest).map renderEntry := by
        simp [Verdict.stateLines, shown, Verdict.renderEntry_eq_stateLine]
      rw [lines]
      rfl

end ProgramState

namespace Verdict

private theorem counterexampleSetup_eq_lines (triple : Triple)
    (start : ProgramState) :
    counterexampleSetup triple start =
      "\n".intercalate (setupLines triple start.shown) := by
  have guarantee : "\nThe precondition does not guarantee that the " ++
      "postcondition will hold " = "\n" ++ ("The precondition does not " ++
        "guarantee that the postcondition will hold ") := rfl
  have commands : "after the command(s).\n\n" =
      "after the command(s)." ++ "\n" ++ "" ++ "\n" := rfl
  have thus : "Suppose we start with the variables being set thus.\n" =
      "Suppose we start with the variables being set thus." ++ "\n" := rfl
  have precondition : "\nThen the precondition\n    " =
      "\n" ++ ("Then the precondition" ++ ("\n" ++ "    ")) := rfl
  have satisfied : "\nis satisfied." = "\n" ++ "is satisfied." := rfl
  rw [counterexampleSetup, setupLines, start.render_eq_stateLines,
    String.intercalate_append_of_ne_nil (by simp) (by simp),
    String.intercalate_append_of_ne_nil (by simp) (stateLines_ne_nil _),
    commands, thus, precondition, satisfied]
  simp only [String.intercalate_cons_cons, String.intercalate_singleton,
    String.append_assoc]
  rfl

private theorem counterexampleEnd_eq_lines (triple : Triple) (model : Model)
    (start : ProgramState) :
    counterexampleEnd triple model start = "\n".intercalate
      (endLines triple (start.run model triple.program.command).shown) := by
  have postcondition : "But the postcondition\n    " =
      "But the postcondition" ++ ("\n" ++ "    ") := rfl
  have missed : "\nis not satisfied." = "\n" ++ "is not satisfied." := rfl
  have running : "But after running\n    " =
      "But after running" ++ ("\n" ++ "    ") := rfl
  have state : "\nthe state of the program will be\n" =
      "\n" ++ ("the state of the program will be" ++ "\n") := rfl
  have postcondition' : "\nand the postcondition\n    " =
      "\n" ++ ("and the postcondition" ++ ("\n" ++ "    ")) := rfl
  have missed' : "\nwill not be satisfied." =
      "\n" ++ "will not be satisfied." := rfl
  unfold counterexampleEnd endLines
  split
  · rw [postcondition, missed]
    simp only [String.intercalate_cons_cons, String.intercalate_singleton,
      String.append_assoc]
  · rw [running, state, postcondition', missed',
      ProgramState.render_eq_stateLines,
      String.intercalate_append_of_ne_nil (by simp) (by simp),
      String.intercalate_append_of_ne_nil (by simp) (stateLines_ne_nil _)]
    simp only [String.intercalate_cons_cons, String.intercalate_singleton,
      String.append_assoc]

private theorem counterexampleMessage_eq_lines (triple : Triple)
    (model : Model) :
    counterexampleMessage triple model = "\n".intercalate
      (counterexampleLines triple (startState triple model).shown
        (finalState triple model).shown) := by
  have blank : "\n\n" = "\n" ++ "" ++ "\n" := rfl
  rw [counterexampleMessage, counterexampleLines,
    String.intercalate_append_of_ne_nil (by simp [setupLines]) (by simp),
    String.intercalate_cons_of_ne_nil (endLines_ne_nil _ _)]
  simp only [counterexampleSetup_eq_lines, counterexampleEnd_eq_lines, blank,
    String.append_assoc]
  rfl

/-! ## The message is truthful -/

@[simp] theorem entries_startState (triple : Triple) (model : Model) :
    (startState triple model).entries = triple.pre.formula.freeVars.map
      fun name => (name, some (model.valueOf name)) := by
  have increasing : triple.pre.formula.freeVars.Pairwise (· < ·) :=
    OrderedSet.pairwise_ofList (fun _ _ => Name.eq_of_not_lt) Name.lt_trans _
  refine Name.eq_of_increasing Prod.fst (startState triple model).ordered
    (List.pairwise_map.mpr increasing) ?_
  rintro ⟨name, value⟩
  rw [NameTable.mem_entries_iff, startState, ProgramState.get?_ofModel]
  by_cases mem : name ∈ triple.pre.formula.freeVars <;> simp [mem, eq_comm]

@[simp] theorem shown_startState (triple : Triple) (model : Model) :
    (startState triple model).shown = triple.pre.formula.freeVars.map
      fun name => (name, some (model.valuation name)) := by
  rw [ProgramState.shown, entries_startState, List.map_map]
  simp

/--
The message on a refuted triple lists the variables of the precondition as the
model sets them and, unless the program is `skip`, the variables known at the
end.  Every number at the end is exact.  If the model falsifies the query, then
the precondition holds by the numbers listed at the start, whatever the other
variables are, and unless a variable of the postcondition is listed as
overflowed, the postcondition fails by the numbers listed at the end.
-/
theorem counterexample_truthful (triple : Triple) (model : Model) :
    let start := (startState triple model).shown
    let final := (finalState triple model).shown
    feedback triple (.refuted model) =
      .incorrect ("\n".intercalate (counterexampleLines triple start final)) ∧
    start = triple.pre.formula.freeVars.map
      (fun name => (name, some (model.valuation name))) ∧
    (∀ name number, (name, some number) ∈ final →
      number = triple.program.command.exec model.valuation name) ∧
    ∀ interpretation : Interpretation,
      triple.query.holds interpretation model.valuation = false →
      (∀ values : Valuation,
        (∀ name number, (name, some number) ∈ start →
          values name = number) →
        triple.pre.formula.holds interpretation values = true) ∧
      ((∀ name ∈ triple.post.formula.freeVars, (name, none) ∉ final) →
        ∀ values : Valuation,
          (∀ name number, (name, some number) ∈ final →
            values name = number) →
          (∀ name, name ∉ final.map Prod.fst →
            values name = model.valuation name) →
          triple.post.formula.holds interpretation values = false) := by
  intro start final
  have tracks := tracks_finalState triple model
  refine ⟨?_, shown_startState triple model, ?_, ?_⟩
  · rw [feedback, counterexampleMessage_eq_lines]
  · intro name number listed
    obtain ⟨word, found, rfl⟩ := ProgramState.mem_shown_iff.mp listed
    rw [← tracks name (by simp [found]), ProgramState.valuation_of_get? found]
  · intro interpretation falsified
    rw [← Bool.not_eq_true, Triple.holds_query, Classical.not_imp,
      Bool.not_eq_true] at falsified
    obtain ⟨pre, post⟩ := falsified
    constructor
    · intro values listed
      rw [← pre]
      apply Formula.holds_congr
      intro name mem
      apply listed
      rw [show start = _ from shown_startState triple model]
      exact List.mem_map.mpr ⟨name, Formula.mem_freeVars.mpr mem, rfl⟩
    · intro clean values listed unlisted
      have agree : ∀ name ∈ triple.post.formula.occurrences,
          values name = (finalState triple model).valuation model name := by
        intro name mem
        exact ProgramState.eq_valuation_of_shown listed unlisted
          (clean name (Formula.mem_freeVars.mpr mem))
      rw [Formula.holds_congr agree, tracks.holds _ interpretation, post]
      intro name mem overflowed
      exact clean name mem
        (ProgramState.overflowed_mem_shown_iff.mpr overflowed)

namespace Overflowing

def a : Name := ⟨"a", by decide⟩

def b : Name := ⟨"b", by decide⟩

def c : Name := ⟨"c", by decide⟩

def p : Name := ⟨"p", by decide⟩

def triple : Triple where
  pre := ⟨"\x7b a > 0 && p(b) \x7d",
    .connect .and (.compare .gt (.var a) (.lit 0)) (.predicate p [.var b])⟩
  program := ⟨"a := a + 1; c := a; a := b - 1;",
    ⟨.assign a (.binary .plus (.var a) (.lit 1)),
      [.assign c (.var a), .assign a (.binary .minus (.var b) (.lit 1))]⟩⟩
  post := ⟨"\x7b p(a) \x7d", .predicate p [.var a]⟩

def model : Model := .ofList [(a, Int64.maxValue), (b, 3)]

/-- Only the numbers three and above have the property. -/
def interpretation : Interpretation := fun _ args => args.all (3 ≤ ·)

theorem counterexample_truthful_overflowing :
    triple.query.holds interpretation model.valuation = false ∧
    feedback triple (.refuted model) =
      .incorrect ("\n".intercalate
        ["✗ Incorrect!",
          "The precondition does not guarantee that the postcondition " ++
            "will hold after the command(s).",
          "",
          "Suppose we start with the variables being set thus.",
          "    a: 9223372036854775807",
          "    b: 3",
          "Then the precondition",
          "    \x7b a > 0 && p(b) \x7d",
          "is satisfied.",
          "",
          "But after running",
          "    a := a + 1; c := a; a := b - 1;",
          "the state of the program will be",
          "    a: 2",
          "    b: 3",
          "    c: <overflow>",
          "and the postcondition",
          "    \x7b p(a) \x7d",
          "will not be satisfied."]) ∧
    triple.program.command.exec model.valuation a = 2 ∧
    (∀ values : Valuation, values a = 9223372036854775807 → values b = 3 →
      triple.pre.formula.holds interpretation values = true) ∧
    ∀ values : Valuation, values a = 2 → values b = 3 →
      (∀ name, name ≠ a → name ≠ b → name ≠ c →
        values name = model.valuation name) →
      triple.post.formula.holds interpretation values = false := by
  have refuted : triple.query.holds interpretation model.valuation = false :=
    by decide
  have start : (startState triple model).shown =
      [(a, some 9223372036854775807), (b, some 3)] := by decide
  have final : (finalState triple model).shown =
      [(a, some 2), (b, some 3), (c, none)] := by decide
  obtain ⟨message, -, numbers, falsified⟩ := counterexample_truthful triple model
  obtain ⟨pre, post⟩ := falsified interpretation refuted
  rw [start, final] at message
  rw [start] at pre
  rw [final] at numbers post
  refine ⟨refuted, message, ?_, fun values ofA ofB => pre values ?_,
    fun values ofA ofB others => post ?_ values ?_ ?_⟩
  · exact (numbers a 2 List.mem_cons_self).symm
  · intro name number listed
    simp only [List.mem_cons, List.not_mem_nil, Prod.mk.injEq,
      Option.some.injEq, or_false] at listed
    rcases listed with ⟨rfl, rfl⟩ | ⟨rfl, rfl⟩
    · exact ofA
    · exact ofB
  · decide
  · intro name number listed
    simp only [List.mem_cons, List.not_mem_nil, Prod.mk.injEq,
      Option.some.injEq, reduceCtorEq, and_false, or_false] at listed
    rcases listed with ⟨rfl, rfl⟩ | ⟨rfl, rfl⟩
    · exact ofA
    · exact ofB
  · simpa using others

end Overflowing

end Verdict

end ProofOutline
