import ProofOutline.Node

/-!
# Worksheets

A worksheet holds the nodes of one student's copy of an exercise and tells its
listeners about every change.  A notification goes to the listeners present
when it starts, in the order in which they came, leaving out those that are
cancelled before their turn.  Listeners may change the worksheet, which sends
further notifications before the first is done.

There are two sorts of listeners.  A clearing listener waits for the first
edit of a hole and then wipes the feedback of its triple; the listeners that
one verdict leaves on the holes of a triple form a group, and the first of
them to see an edit speaks for all.  An observer stands for an outside party;
it is noted whenever it is called and may react.
-/

namespace ProofOutline

abbrev NodeId := Nat

structure TripleRef where
  pre : NodeId
  command : NodeId
  post : NodeId
  deriving DecidableEq, Repr

namespace TripleRef

def nodes (triple : TripleRef) : List NodeId :=
  [triple.pre, triple.command, triple.post]

def render (triple : TripleRef) : String :=
  "(#" ++ toString triple.pre ++ ", #" ++ toString triple.command ++ ", #" ++
    toString triple.post ++ ")"

end TripleRef

inductive Reaction where
  | watch
  | cancel (observer : Nat)
  | setFeedback (node : NodeId) (feedback : Feedback)
  | setAttempt (node : NodeId) (attempt : String)
  | addWatcher
  deriving DecidableEq

structure Observer where
  /-- Observers added by a reaction have no number. -/
  number : Option Nat
  /-- React to changes of this node only. -/
  watched : Option NodeId
  reaction : Reaction
  deriving DecidableEq

/-- Waits for the first edit of a hole, to wipe the feedback of a triple. -/
structure Clearing where
  triple : TripleRef
  hole : NodeId
  /-- The attempt at the time of the verdict; any other text is an edit. -/
  before : String
  /-- The number of its group. -/
  group : Nat
  deriving DecidableEq

/-- What the clearing listeners of one verdict share. -/
structure ClearingGroup where
  fired : Bool := false
  /-- Their subscriptions. -/
  members : List Nat := []
  deriving DecidableEq

inductive Listener where
  | clearing (clearing : Clearing)
  | observer (observer : Observer)
  deriving DecidableEq

structure Subscription where
  id : Nat
  listener : Listener
  deriving DecidableEq

structure Notice where
  observer : Option Nat
  node : NodeId
  deriving DecidableEq, Repr

structure Worksheet where
  nodes : List Node := []
  subscriptions : List Subscription := []
  nextId : Nat := 0
  groups : List ClearingGroup := []
  /-- The subscriptions that the last verdict on a triple left behind. -/
  recorded : TripleRef → List Nat := fun _ => []
  observerCount : Nat := 0
  notices : List Notice := []

namespace Worksheet

def ofSteps (steps : List Step) : Worksheet :=
  { nodes := steps.map .ofStep }

def get? (sheet : Worksheet) (id : NodeId) : Option Node :=
  sheet.nodes[id]?

def hole? (sheet : Worksheet) (id : NodeId) : Option Hole :=
  (sheet.get? id).bind Node.hole?

def attempt? (sheet : Worksheet) (id : NodeId) : Option String :=
  (sheet.hole? id).map Hole.attempt

def feedback? (sheet : Worksheet) (id : NodeId) : Option Feedback :=
  (sheet.get? id).bind Node.feedback?

def isHole (sheet : Worksheet) (id : NodeId) : Bool :=
  (sheet.hole? id).isSome

def mustAddress (sheet : Worksheet) (id : NodeId) : Bool :=
  ((sheet.hole? id).map Hole.mustAddress).getD false

def canSubmit (sheet : Worksheet) (id : NodeId) : Bool :=
  match sheet.hole? id with
  | some hole => hole.state == .prevalidated && !hole.mustAddress
  | none => false

def push (sheet : Worksheet) (step : Step) : NodeId × Worksheet :=
  (sheet.nodes.length, { sheet with nodes := sheet.nodes ++ [.ofStep step] })

def setNode (sheet : Worksheet) (id : NodeId) (node : Node) : Worksheet :=
  { sheet with nodes := sheet.nodes.set id node }

/-! ## Subscriptions -/

def subscribe (sheet : Worksheet) (listener : Listener) : Worksheet :=
  { sheet with
    subscriptions := sheet.subscriptions ++ [⟨sheet.nextId, listener⟩]
    nextId := sheet.nextId + 1 }

def cancel (sheet : Worksheet) (picked : Subscription → Bool) : Worksheet :=
  { sheet with
    subscriptions := sheet.subscriptions.filter fun sub => !picked sub }

def isLive (sheet : Worksheet) (id : Nat) : Bool :=
  sheet.subscriptions.any fun sub => sub.id == id

def observe (sheet : Worksheet) (watched : Option NodeId)
    (reaction : Reaction) : Nat × Worksheet :=
  let number := sheet.observerCount
  let observer : Observer := ⟨some number, watched, reaction⟩
  (number,
    { sheet.subscribe (.observer observer) with observerCount := number + 1 })

def isObserver (number : Nat) : Listener → Bool
  | .observer observer => observer.number == some number
  | .clearing _ => false

def cancelObserver (sheet : Worksheet) (number : Nat) : Worksheet :=
  sheet.cancel fun sub => isObserver number sub.listener

def unsubscribe (sheet : Worksheet) (id : Nat) : Worksheet :=
  sheet.cancel fun sub => sub.id == id

/-! ## Groups of clearing listeners -/

def addGroup (sheet : Worksheet) (members : List Nat) : Worksheet :=
  { sheet with groups := sheet.groups ++ [⟨false, members⟩] }

def record (sheet : Worksheet) (triple : TripleRef) (ids : List Nat) :
    Worksheet :=
  { sheet with
    recorded := fun other =>
      if other = triple then ids else sheet.recorded other }

def hasFired (sheet : Worksheet) (group : Nat) : Bool :=
  (sheet.groups[group]?.map ClearingGroup.fired).getD true

def members (sheet : Worksheet) (group : Nat) : List Nat :=
  (sheet.groups[group]?.map ClearingGroup.members).getD []

def triggers (sheet : Worksheet) (clearing : Clearing) (changed : NodeId) :
    Bool :=
  changed == clearing.hole && !sheet.hasFired clearing.group &&
    sheet.attempt? clearing.hole != some clearing.before

/-- One member of the group speaks for all: they are cancelled together. -/
def fire (sheet : Worksheet) (group : Nat) : Worksheet :=
  (sheet.members group).foldl unsubscribe
    { sheet with
      groups := sheet.groups.modify group ({ · with fired := true }) }

/-! ## Changes, told to a given publisher -/

abbrev Publisher := NodeId → Worksheet → Worksheet

def setFeedbackVia (publish : Publisher) (id : NodeId) (feedback : Feedback)
    (sheet : Worksheet) : Worksheet :=
  match (sheet.get? id).bind (Node.withFeedback? feedback) with
  | some node => publish id (sheet.setNode id node)
  | none => sheet

def changeHoleVia (publish : Publisher) (id : NodeId) (change : Hole → Hole)
    (sheet : Worksheet) : Worksheet :=
  match sheet.hole? id with
  | some hole => publish id (sheet.setNode id (.hole (change hole)))
  | none => sheet

/-- An edited hole has to be prevalidated again. -/
def setAttemptVia (publish : Publisher) (id : NodeId) (attempt : String)
    (sheet : Worksheet) : Worksheet :=
  changeHoleVia publish id
    (fun hole => { hole with attempt, state := .unvalidated }) sheet

def clearTripleVia (publish : Publisher) (triple : TripleRef)
    (sheet : Worksheet) : Worksheet :=
  triple.nodes.foldl
    (fun sheet id => setFeedbackVia publish id .empty sheet) sheet

/-! ## Notification -/

def reactVia (publish : Publisher) (sheet : Worksheet) :
    Reaction → Worksheet
  | .watch => sheet
  | .cancel number => sheet.cancelObserver number
  | .setFeedback node feedback => setFeedbackVia publish node feedback sheet
  | .setAttempt node attempt => setAttemptVia publish node attempt sheet
  | .addWatcher => sheet.subscribe (.observer ⟨none, none, .watch⟩)

def notifyVia (publish : Publisher) (changed : NodeId) (sheet : Worksheet) :
    Listener → Worksheet
  | .clearing clearing =>
      if sheet.triggers clearing changed then
        clearTripleVia publish clearing.triple (sheet.fire clearing.group)
      else sheet
  | .observer observer =>
      let sheet :=
        { sheet with notices := sheet.notices ++ [⟨observer.number, changed⟩] }
      if observer.watched.all (· == changed) then
        reactVia publish sheet observer.reaction
      else sheet

/-- Notify, following changes made by listeners to the given depth. -/
def publishWithin : Nat → Publisher
  | 0 => fun _ sheet => sheet
  | depth + 1 => fun changed sheet =>
      sheet.subscriptions.foldl
        (fun sheet sub =>
          if sheet.isLive sub.id then
            notifyVia (publishWithin depth) changed sheet sub.listener
          else sheet)
        sheet

/-- How deep changes are followed; clearing listeners do not go deeper. -/
def reach (sheet : Worksheet) : Nat :=
  (sheet.subscriptions.length + 1) * (sheet.subscriptions.length + 1)

def publish : Publisher := fun changed sheet =>
  publishWithin sheet.reach changed sheet

def setFeedback (sheet : Worksheet) (id : NodeId) (feedback : Feedback) :
    Worksheet :=
  setFeedbackVia publish id feedback sheet

def setParseFeedback (sheet : Worksheet) (id : NodeId)
    (feedback : Feedback) : Worksheet :=
  let sheet := sheet.setFeedback id feedback
  match sheet.hole? id with
  | some hole => sheet.setNode id (.hole { hole with parseFeedback := true })
  | none => sheet

def setAttempt (sheet : Worksheet) (id : NodeId) (attempt : String) :
    Worksheet :=
  setAttemptVia publish id attempt sheet

def setHoleState (sheet : Worksheet) (id : NodeId) (state : HoleState) :
    Worksheet :=
  changeHoleVia publish id (fun hole => { hole with state }) sheet

def clearTriple (sheet : Worksheet) (triple : TripleRef) : Worksheet :=
  clearTripleVia publish triple sheet

/-! ### Cutting a proof into triples

Each command between two neighbouring assertions makes a triple.  Remarks and
unknown nodes are passed over. -/

section Segment

variable (sheet : Worksheet)

def isCore (id : NodeId) : Bool :=
  ((sheet.get? id).map Node.isCore).getD false

def isCommand (id : NodeId) : Bool :=
  ((sheet.get? id).map Node.isCommand).getD false

def bearsAssertion (id : NodeId) : Bool :=
  ((sheet.get? id).map Node.bearsAssertion).getD false

def isTriple (triple : TripleRef) : Bool :=
  sheet.bearsAssertion triple.pre && sheet.isCommand triple.command &&
    sheet.bearsAssertion triple.post

def windows : List NodeId → List TripleRef
  | pre :: command :: post :: rest =>
      ⟨pre, command, post⟩ :: windows (command :: post :: rest)
  | _ => []

def segment (order : List NodeId) : List TripleRef :=
  (windows (order.filter sheet.isCore)).filter sheet.isTriple

end Segment

end Worksheet

end ProofOutline
