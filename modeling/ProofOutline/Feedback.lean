import ProofOutline.Model
import ProofOutline.Triple

/-!
# Verdicts and feedback

What a student is told about a step of the proof, and how the verdict on a
triple is put into words.
-/

namespace ProofOutline

inductive Outcome where
  | empty
  | correct
  | incorrect
  deriving DecidableEq, Repr

structure Feedback where
  outcome : Outcome
  message : Option String
  deriving DecidableEq, Repr

namespace Feedback

def empty : Feedback := ⟨.empty, none⟩

def correct (message : String) : Feedback := ⟨.correct, some message⟩

def incorrect (message : String) : Feedback := ⟨.incorrect, some message⟩

/-- Marks a step as wrong without a message. -/
def incorrectMark : Feedback := ⟨.incorrect, none⟩

def isEmpty (feedback : Feedback) : Bool := feedback.outcome == .empty

def isCorrect (feedback : Feedback) : Bool := feedback.outcome == .correct

def isIncorrect (feedback : Feedback) : Bool :=
  feedback.outcome == .incorrect

/-- A message that is not praise asks for a change. -/
def shouldBeAddressed (feedback : Feedback) : Bool :=
  feedback.message.isSome && !feedback.isCorrect

def sayCorrect : String := "✓ Correct!"

def sayIncorrect : String := "✗ Incorrect!"

end Feedback

inductive Verdict where
  | valid
  | refuted (model : Model)
  | undecided (reason : String)
  deriving DecidableEq

namespace Verdict

open Feedback

def counterexampleSetup (triple : Triple) (start : ProgramState) : String :=
  sayIncorrect ++
    "\nThe precondition does not guarantee that the postcondition will hold " ++
    "after the command(s).\n\n" ++
    "Suppose we start with the variables being set thus.\n" ++
    start.render ++
    "\nThen the precondition\n    " ++ triple.pre.source ++
    "\nis satisfied."

def counterexampleEnd (triple : Triple) (model : Model)
    (start : ProgramState) : String :=
  if triple.program.command = .skip then
    "But the postcondition\n    " ++ triple.post.source ++
      "\nis not satisfied."
  else
    "But after running\n    " ++ triple.program.source ++
      "\nthe state of the program will be\n" ++
      (start.run model triple.program.command).render ++
      "\nand the postcondition\n    " ++ triple.post.source ++
      "\nwill not be satisfied."

def startState (triple : Triple) (model : Model) : ProgramState :=
  .ofModel model triple.pre.formula.freeVars

def counterexampleMessage (triple : Triple) (model : Model) : String :=
  let start := startState triple model
  counterexampleSetup triple start ++ "\n\n" ++
    counterexampleEnd triple model start

def undecidedMessage (reason : String) : String :=
  sayIncorrect ++
    "\nThe solver could not decide whether the postcondition follows from " ++
    "the precondition, so no counterexample was produced.\n\n" ++
    "Reason: " ++ reason

def feedback (triple : Triple) : Verdict → Feedback
  | valid => .correct sayCorrect
  | refuted model => .incorrect (counterexampleMessage triple model)
  | undecided reason => .incorrect (undecidedMessage reason)

end Verdict

end ProofOutline
