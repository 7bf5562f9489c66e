import ProofOutline.Checker
import ProofOutline.Worksheet

/-!
# Sessions

A session is a student's work on one exercise: a worksheet and the order of
its steps.  Attempts are prevalidated one by one; a submission has the triples
checked from the last to the first, up to the first that is not right, and
puts the feedback on the nodes.
-/

namespace ProofOutline

inductive StopReason where
  | completed
  | incomplete (triple : TripleRef)
  | incorrect (triple : TripleRef)
  deriving DecidableEq, Repr

structure Submission where
  checked : List TripleRef
  stopped : StopReason
  deriving DecidableEq, Repr

def Submission.isCorrect (submission : Submission) : Bool :=
  submission.stopped == .completed

namespace Worksheet

def prevalidation (attempt : String) : Feedback :=
  match Source.parseAssertion attempt with
  | .ok _ => .empty
  | .error error => .incorrect ("Parse error:\n" ++ error.message)

/--
Check the syntax of a hole's attempt and record the result on the hole.  A
success wipes an earlier parse error but no other feedback.
-/
def prevalidate (sheet : Worksheet) (id : NodeId) :
    Option Feedback × Worksheet :=
  match sheet.attempt? id with
  | none => (none, sheet)
  | some attempt =>
      let sheet := sheet.setHoleState id .prevalidating
      let feedback := prevalidation attempt
      if feedback.isEmpty then
        let sheet := sheet.setHoleState id .prevalidated
        match sheet.hole? id with
        | some hole =>
            if hole.parseFeedback then
              (some feedback, sheet.setFeedback id .empty)
            else (some feedback, sheet)
        | none => (some feedback, sheet)
      else
        let sheet := sheet.setHoleState id .prevalidationFailed
        (some feedback, sheet.setParseFeedback id feedback)

def holeAssertion? (sheet : Worksheet) (id : NodeId) : Option Assertion :=
  match sheet.hole? id with
  | some hole =>
      if hole.state = .prevalidated then
        (Source.parseAssertion hole.attempt).toOption
      else none
  | none => none

def assertion? (sheet : Worksheet) (id : NodeId) : Option Assertion :=
  match sheet.get? id with
  | some (.given assertion _) => some assertion
  | some (.hole _) => sheet.holeAssertion? id
  | _ => none

def program? (sheet : Worksheet) (id : NodeId) : Option Program :=
  match sheet.get? id with
  | some (.command program _) => some program
  | _ => none

def triple? (sheet : Worksheet) (triple : TripleRef) : Option Triple :=
  match sheet.assertion? triple.pre, sheet.program? triple.command,
      sheet.assertion? triple.post with
  | some pre, some program, some post => some ⟨pre, program, post⟩
  | _, _, _ => none

/-- Cancel what the last verdict on the triple left behind. -/
def forget (sheet : Worksheet) (triple : TripleRef) : Worksheet :=
  ((sheet.recorded triple).foldl unsubscribe sheet).record triple []

/-- A new group with one listener for each hole, to wipe the triple. -/
def clearOnFirstEdit (sheet : Worksheet) (triple : TripleRef)
    (holes : List NodeId) : Worksheet :=
  let group := sheet.groups.length
  let members := List.range' sheet.nextId holes.length
  let sheet := holes.foldl
    (fun sheet hole =>
      sheet.subscribe
        (.clearing ⟨triple, hole, (sheet.attempt? hole).getD "", group⟩))
    (sheet.addGroup members)
  sheet.record triple members

/--
Put the feedback on a triple onto its nodes.  Praise goes to all three; a
complaint goes to the first hole, or to the command if there is no hole, and
the other two are only marked.
-/
def route (sheet : Worksheet) (triple : TripleRef) (feedback : Feedback) :
    Worksheet :=
  let sheet := sheet.forget triple
  if feedback.isCorrect then
    triple.nodes.foldl (fun sheet id => sheet.setFeedback id feedback) sheet
  else
    let sheet := sheet.clearTriple triple
    let holes := triple.nodes.filter sheet.isHole
    let target := holes.headD triple.command
    let sheet := triple.nodes.foldl
      (fun sheet id =>
        sheet.setFeedback id
          (if id = target then feedback else .incorrectMark))
      sheet
    sheet.clearOnFirstEdit triple holes

def submitFrom {σ : Type} (checker : Checker σ) :
    List TripleRef → List TripleRef → Worksheet → σ →
      Except VerifyError Submission × Worksheet × σ
  | [], checked, sheet, state => (.ok ⟨checked, .completed⟩, sheet, state)
  | triple :: rest, checked, sheet, state =>
      match sheet.triple? triple with
      | none => (.ok ⟨checked, .incomplete triple⟩, sheet, state)
      | some value =>
          match checker value state with
          | (.error error, state) => (.error error, sheet, state)
          | (.ok feedback, state) =>
              let checked := checked ++ [triple]
              let sheet := sheet.route triple feedback
              if feedback.isCorrect then
                submitFrom checker rest checked sheet state
              else (.ok ⟨checked, .incorrect triple⟩, sheet, state)

end Worksheet

structure Session where
  sheet : Worksheet
  order : List NodeId

namespace Session

def ofSteps (steps : List Step) : Session :=
  ⟨.ofSteps steps, List.range steps.length⟩

def holes (session : Session) : List NodeId :=
  session.order.filter session.sheet.isHole

def triples (session : Session) : List TripleRef :=
  session.sheet.segment session.order

def setAttempt (session : Session) (id : NodeId) (attempt : String) :
    Session :=
  { session with sheet := session.sheet.setAttempt id attempt }

def prevalidate (session : Session) (id : NodeId) :
    Option Feedback × Session :=
  let (feedback, sheet) := session.sheet.prevalidate id
  (feedback, { session with sheet })

def submit {σ : Type} (checker : Checker σ) (session : Session)
    (state : σ) : Except VerifyError Submission × Session × σ :=
  let (result, sheet, state) :=
    session.sheet.submitFrom checker session.triples.reverse [] state
  (result, { session with sheet }, state)

end Session

end ProofOutline
