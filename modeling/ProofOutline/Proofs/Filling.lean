import ProofOutline.Check
import ProofOutline.Proofs.Clearing
import ProofOutline.Proofs.Source

/-!
# Filling in attempts

The attempts of an exercise file name holes, since the file is refused
otherwise.  So if attempts from outside are filled in after them, what fails is
the first of those that names no hole.  If all name holes, the session is the
exercise with the text that was given last in each hole.
-/

namespace ProofOutline

namespace Attempt

/-- Why an attempt cannot be put into one of these steps. -/
def refusal? (steps : List Step) (attempt : Nat × String) :
    Option FillError :=
  match steps[attempt.1]? with
  | none => some (.noSuchStep (attempt.1 + 1))
  | some (.hole _) => none
  | some _ => some (.notAHole (attempt.1 + 1))

def lastText (given : List (Nat × String)) (index : Nat) : String :=
  (given.reverse.lookup index).getD ""

@[simp] theorem lastText_concat (given : List (Nat × String))
    (attempt : Nat × String) (index : Nat) :
    lastText (given ++ [attempt]) index =
      if attempt.1 = index then attempt.2 else lastText given index := by
  obtain ⟨number, text⟩ := attempt
  by_cases same : number = index
  · simp [lastText, same]
  · have other : (index == number) = false := by simpa using Ne.symm same
    simp [lastText, List.lookup_cons, same, other]

end Attempt

/-! ## Attempts of the file -/

namespace Exercise

private theorem readStep_of_attempt {number : Nat} {entry : StepEntry}
    {step : Step} (read : readStep number entry = .ok step) {text : String}
    (filled : entry.attempt = some text) : ∃ prompt, step = .hole prompt := by
  unfold readStep at read
  cases kind : entry.kind with
  | hole =>
      simp only [kind, ne_eq, not_true_eq_false, false_and, if_false] at read
      cases read
      exact ⟨_, rfl⟩
  | assertion => simp [kind, filled] at read
  | command => simp [kind, filled] at read
  | remark => simp [kind, filled] at read

private theorem exists_hole_of_filledIn {index : Nat} {entries : List StepEntry}
    {steps : List Step} (read : readSteps index entries = .ok steps)
    {attempt : Nat × String} (mem : attempt ∈ filledIn index entries) :
    ∃ place prompt, attempt.1 = index + place ∧
      steps[place]? = some (.hole prompt) := by
  induction entries generalizing index steps with
  | nil => exact absurd mem List.not_mem_nil
  | cons entry entries ih =>
      obtain ⟨step, first, read⟩ := bind_eq_ok_iff.mp read
      obtain ⟨rest, others, read⟩ := bind_eq_ok_iff.mp read
      cases read
      rcases List.mem_append.mp mem with here | later
      · obtain ⟨text, filled, rfl⟩ :=
          Option.map_eq_some_iff.mp (Option.mem_toList.mp here)
        obtain ⟨prompt, rfl⟩ := readStep_of_attempt first filled
        exact ⟨0, prompt, rfl, rfl⟩
      · obtain ⟨place, prompt, same, found⟩ := ih others later
        exact ⟨place + 1, prompt, by omega, found⟩

theorem refusal?_of_ofFile {file : ExerciseFile} {exercise : Exercise}
    (made : ofFile file = .ok exercise) {attempt : Nat × String}
    (mem : attempt ∈ exercise.attempts) :
    Attempt.refusal? exercise.steps attempt = none := by
  obtain ⟨steps, read, done⟩ := bind_eq_ok_iff.mp made
  cases done
  obtain ⟨place, prompt, same, found⟩ := exists_hole_of_filledIn read mem
  rw [Nat.zero_add] at same
  simp [Attempt.refusal?, same, found]

end Exercise

/-! ## The session after filling in -/

private theorem Worksheet.setAttempt_of_nobody {sheet : Worksheet}
    (nobody : sheet.subscriptions = []) {id : NodeId} {old : String}
    (found : sheet.attempt? id = some old) (text : String) :
    sheet.setAttempt id text = sheet.edit id text := by
  have absent (sub : Subscription) :
      sub ∉ (sheet.edit id text).subscriptions := by
    show sub ∉ sheet.subscriptions
    simp [nobody]
  rw [setAttempt_eq found]
  exact publish_of_unmoved (fun sub mem => absurd mem (absent sub))
    fun id clearing listens => absurd listens (absent _)

namespace Session

/-- A fresh session in which each hole has the text given last for it. -/
def withTexts (steps : List Step) (given : List (Nat × String)) : Session :=
  ⟨{ nodes := steps.mapIdx fun id step => (Node.ofStep step).mapHole
      fun hole => { hole with attempt := Attempt.lastText given id } },
    List.range steps.length⟩

@[simp] theorem get?_withTexts (steps : List Step) (given : List (Nat × String))
    (id : NodeId) :
    (withTexts steps given).sheet.get? id =
      steps[id]?.map fun step => (Node.ofStep step).mapHole
        fun hole => { hole with attempt := Attempt.lastText given id } :=
  List.getElem?_mapIdx

@[simp] theorem withTexts_nil (steps : List Step) :
    withTexts steps [] = ofSteps steps := by
  have nodes : (withTexts steps []).sheet.nodes = steps.map .ofStep := by
    refine List.ext_getElem? fun id => ?_
    rw [List.getElem?_map]
    refine (get?_withTexts steps [] id).trans ?_
    congr 1
    funext step
    cases step <;> rfl
  exact congrArg (Session.mk { nodes := · } (List.range steps.length)) nodes

@[simp] theorem setAttempt_withTexts {steps : List Step}
    (given : List (Nat × String)) {attempt : Nat × String} {prompt : String}
    (found : steps[attempt.1]? = some (.hole prompt)) :
    (withTexts steps given).setAttempt attempt.1 attempt.2 =
      withTexts steps (given ++ [attempt]) := by
  have there : (withTexts steps given).sheet.get? attempt.1 =
      some (.hole { prompt, attempt := Attempt.lastText given attempt.1 }) := by
    rw [get?_withTexts, found]
    rfl
  have nodes : ((withTexts steps given).sheet.edit attempt.1
        attempt.2).nodes =
      (withTexts steps (given ++ [attempt])).sheet.nodes := by
    refine List.ext_getElem? fun id => ?_
    refine (Worksheet.get?_alter _ _ _ _).trans ?_
    rw [get?_withTexts, Option.map_map]
    refine Eq.trans ?_ (get?_withTexts steps (given ++ [attempt]) id).symm
    congr 1
    funext step
    rw [Attempt.lastText_concat]
    by_cases same : attempt.1 = id <;> cases step <;>
      simp [same, Node.ofStep, Node.mapHole]
  rw [setAttempt, Worksheet.setAttempt_of_nobody rfl
    (Worksheet.attempt?_of_hole there)]
  exact congrArg (Session.mk { nodes := · } (List.range steps.length)) nodes

theorem isHole_withTexts (steps : List Step) (given : List (Nat × String))
    (id : NodeId) :
    (withTexts steps given).sheet.isHole id = true ↔
      ∃ prompt, steps[id]? = some (.hole prompt) := by
  unfold Worksheet.isHole Worksheet.hole?
  rw [get?_withTexts]
  cases steps[id]? with
  | none => simp
  | some step => cases step <;> simp [Node.ofStep, Node.mapHole, Node.hole?]

private theorem fillOne_withTexts (steps : List Step)
    (given : List (Nat × String)) (attempt : Nat × String) :
    (withTexts steps given).fillOne attempt =
      (Attempt.refusal? steps attempt).elim
        (.ok (withTexts steps (given ++ [attempt]))) .error := by
  have isHole := isHole_withTexts steps given attempt.1
  unfold fillOne Attempt.refusal?
  cases found : steps[attempt.1]? with
  | none =>
      have order : (withTexts steps given).order[attempt.1]? = none := by
        have outside := List.getElem?_eq_none_iff.mp found
        simpa [withTexts] using outside
      rw [order]
      rfl
  | some step =>
      have order : (withTexts steps given).order[attempt.1]? =
          some attempt.1 := by
        have inside := (List.getElem?_eq_some_iff.mp found).1
        simp [withTexts, inside]
      rw [order]
      rw [found] at isHole
      cases step with
      | hole prompt =>
          have typed := setAttempt_withTexts given found
          simp [isHole.mpr ⟨prompt, rfl⟩, typed]
      | assertion assertion => simp [isHole]
      | command program => simp [isHole]
      | remark body => simp [isHole]

theorem fill_withTexts (steps : List Step)
    (given more : List (Nat × String)) :
    (withTexts steps given).fill more =
      (more.findSome? (Attempt.refusal? steps)).elim
        (.ok (withTexts steps (given ++ more))) .error := by
  induction more generalizing given with
  | nil =>
      rw [List.append_nil]
      rfl
  | cons attempt more ih =>
      unfold fill at ih ⊢
      rw [List.foldlM_cons, fillOne_withTexts, List.findSome?_cons]
      cases Attempt.refusal? steps attempt with
      | some error => rfl
      | none =>
          refine (ih (given ++ [attempt])).trans ?_
          rw [List.append_assoc]
          rfl

end Session

end ProofOutline
