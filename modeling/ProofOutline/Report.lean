import ProofOutline.Json
import ProofOutline.Session
import ProofOutline.Text

/-!
# Reports

How the outcome of a submission is shown: a listing of all steps with their
feedback, or a JSON document.  Steps are numbered from one in texts and from
zero in JSON.
-/

namespace ProofOutline

namespace HoleState

def name : HoleState → String
  | unvalidated => "unvalidated"
  | prevalidating => "prevalidating"
  | prevalidated => "prevalidated"
  | prevalidationFailed => "prevalidation_failed"

def label : HoleState → String
  | unvalidated => "not checked"
  | prevalidating => "checking"
  | prevalidated => "parsed"
  | prevalidationFailed => "parse error"

end HoleState

namespace Outcome

def name : Outcome → String
  | empty => "empty"
  | correct => "correct"
  | incorrect => "incorrect"

def marker : Outcome → String
  | empty => " "
  | correct => "✓"
  | incorrect => "✗"

end Outcome

namespace Report

/-! ## Text -/

def stepRange (triple : TripleRef) : String :=
  toString (triple.pre + 1) ++ "-" ++ toString (triple.post + 1)

def summary (submission : Submission) : String :=
  match submission.stopped with
  | .completed =>
      "All " ++ toString submission.checked.length ++
        " triple(s) are correct."
  | .incomplete triple =>
      "Stopped at steps " ++ stepRange triple ++
        ": an assertion there is missing or does not parse."
  | .incorrect triple =>
      "Steps " ++ stepRange triple ++ " do not form a valid triple."

def stateRemark : Node → String
  | .hole hole =>
      if hole.state = .prevalidated then ""
      else "  (" ++ hole.state.label ++ ")"
  | _ => ""

def nodeLine (number : Nat) (node : Node) : String :=
  let marker := (node.feedback?.map fun f => f.outcome.marker).getD " "
  marker ++ " " ++ Text.padLeft 3 (toString number) ++ "  " ++
    Text.padRight 9 node.kindName ++ " " ++ node.displayText ++
    stateRemark node ++ "\n"

def messageLines (node : Node) : String :=
  let message := (node.feedback?.bind Feedback.message).getD ""
  String.join
    ((Text.lines message).map fun line => "          | " ++ line ++ "\n")

def nodeLines (nodes : List Node) : String :=
  String.join
    (nodes.mapIdx fun index node =>
      nodeLine (index + 1) node ++ messageLines node)

def listing (title : Option String) (nodes : List Node)
    (submission : Submission) : String :=
  (title.map (· ++ "\n\n")).getD "" ++ nodeLines nodes ++ "\n" ++
    summary submission ++ "\n"

/-! ## JSON -/

def tripleJson (triple : TripleRef) : Json :=
  .object
    [("pre", .number triple.pre), ("command", .number triple.command),
      ("post", .number triple.post)]

def stopJson : StopReason → Json
  | .completed => .object [("reason", .string "completed")]
  | .incomplete triple =>
      .object
        [("reason", .string "incomplete_triple"),
          ("triple", tripleJson triple)]
  | .incorrect triple =>
      .object
        [("reason", .string "incorrect"), ("triple", tripleJson triple)]

def submissionJson (submission : Submission) : Json :=
  .object
    [("checked", .array (submission.checked.map tripleJson)),
      ("stopped", stopJson submission.stopped)]

/-- The member is left out when there is nothing to say. -/
def optional {α : Type} (key : String) (encode : α → Json)
    (value : Option α) : List (String × Json) :=
  (value.map fun value => (key, encode value)).toList

def feedbackJson (feedback : Feedback) : Json :=
  .object
    (optional "message" .string feedback.message ++
      [("outcome", .string feedback.outcome.name)])

def nodeJson (index : NodeId) (node : Node) : Json :=
  .object
    (optional "feedback" feedbackJson node.feedback? ++
      [("id", .number index), ("kind", .string node.kindName)] ++
      optional "state" (fun hole => .string hole.state.name) node.hole? ++
      [("text", .string node.displayText)])

def nodesJson (nodes : List Node) : Json :=
  .array (nodes.mapIdx nodeJson)

def document (input : String) (title : Option String) (nodes : List Node)
    (submission : Submission) : Json :=
  .object
    ([("schema", .string "hoare.check.v1"), ("input", .string input)] ++
      optional "title" .string title ++
      [("ok", .bool submission.isCorrect),
        ("submission", submissionJson submission),
        ("nodes", nodesJson nodes)])

end Report

end ProofOutline
