import ProofOutline.Proofs.Contents

/-!
# Runs of a session

A student types attempts, has them prevalidated and submits, in any order and
as often as wanted.  A run is a list of such actions on a fresh session; the
checker goes from state to state along with it.
-/

namespace ProofOutline

/-- What a student can do with a session. -/
inductive Action where
  | setAttempt (id : NodeId) (attempt : String)
  | prevalidate (id : NodeId)
  | submit
  deriving DecidableEq, Repr

namespace Session

variable {σ : Type}

def act (checker : Checker σ) (current : Session × σ) :
    Action → Session × σ
  | .setAttempt id attempt => (current.1.setAttempt id attempt, current.2)
  | .prevalidate id => ((current.1.prevalidate id).2, current.2)
  | .submit => (current.1.submit checker current.2).2

def run (checker : Checker σ) (steps : List Step) (state : σ)
    (actions : List Action) : Session × σ :=
  actions.foldl (act checker) (ofSteps steps, state)

private theorem run_invariant (holds : Session → Prop) {checker : Checker σ}
    {steps : List Step} {state : σ} (start : holds (ofSteps steps))
    (kept : ∀ (session : Session) (state : σ) (action : Action),
      holds session → holds (act checker (session, state) action).1)
    (actions : List Action) :
    holds (run checker steps state actions).1 := by
  suffices along : ∀ current : Session × σ, holds current.1 →
      holds (actions.foldl (act checker) current).1 from along _ start
  induction actions with
  | nil => exact fun _ h => h
  | cons action rest ih =>
      intro current h
      exact ih _ (kept current.1 current.2 action h)

/-- The session comes about in some run with some checker. -/
def Reachable (session : Session) : Prop :=
  ∃ (σ : Type) (checker : Checker σ) (steps : List Step) (start : σ)
    (actions : List Action), (run checker steps start actions).1 = session

theorem Reachable.invariant (holds : Session → Prop)
    (start : ∀ steps, holds (ofSteps steps))
    (kept : ∀ {σ : Type} (checker : Checker σ) (session : Session)
      (state : σ) (action : Action),
      holds session → holds (act checker (session, state) action).1)
    {session : Session} (reachable : session.Reachable) : holds session := by
  obtain ⟨σ, checker, steps, state, actions, rfl⟩ := reachable
  exact run_invariant holds (start steps) (kept checker) actions

end Session

/-! ## Who listens during a run -/

namespace Worksheet

theorem onlyClearing_ofSteps (steps : List Step) :
    (ofSteps steps).OnlyClearing :=
  fun _ mem => nomatch mem

private theorem onlyClearing_changeHole {sheet : Worksheet} (id : NodeId)
    (change : Hole → Hole) (h : sheet.OnlyClearing) :
    (changeHoleVia publish id change sheet).OnlyClearing := by
  unfold changeHoleVia
  split
  case h_1 hole _ =>
    have written : (sheet.setNode id (.hole (change hole))).OnlyClearing := h
    exact (quiet_publish id _ written).onlyClearing
  case h_2 => exact h

private theorem onlyClearing_setAttempt {sheet : Worksheet} (id : NodeId)
    (attempt : String) (h : sheet.OnlyClearing) :
    (sheet.setAttempt id attempt).OnlyClearing :=
  onlyClearing_changeHole id _ h

private theorem onlyClearing_setHoleState {sheet : Worksheet} (id : NodeId)
    (state : HoleState) (h : sheet.OnlyClearing) :
    (sheet.setHoleState id state).OnlyClearing :=
  onlyClearing_changeHole id _ h

private theorem onlyClearing_prevalidate {sheet : Worksheet} (id : NodeId)
    (h : sheet.OnlyClearing) : (sheet.prevalidate id).2.OnlyClearing := by
  have stated (state : HoleState) :
      ((sheet.setHoleState id .prevalidating).setHoleState id
        state).OnlyClearing :=
    onlyClearing_setHoleState id _ (onlyClearing_setHoleState id _ h)
  unfold prevalidate
  split
  · exact h
  · simp only
    split
    · split
      · split
        · exact (keeps_setFeedback id .empty (stated _)).onlyClearing
        · exact stated _
      · exact stated _
    · exact (keeps_setParseFeedback id _ (stated _)).onlyClearing

end Worksheet

namespace Session

variable {σ : Type}

theorem keeps_submit (checker : Checker σ) {session : Session} (state : σ)
    (h : session.sheet.OnlyClearing) :
    session.sheet.Keeps (session.submit checker state).2.1.sheet :=
  Worksheet.keeps_submitFrom checker session.triples.reverse [] state h

private theorem onlyClearing_act (checker : Checker σ) (session : Session)
    (state : σ) (action : Action) (h : session.sheet.OnlyClearing) :
    (act checker (session, state) action).1.sheet.OnlyClearing := by
  cases action with
  | setAttempt id attempt =>
      exact Worksheet.onlyClearing_setAttempt id attempt h
  | prevalidate id => exact Worksheet.onlyClearing_prevalidate id h
  | submit => exact (keeps_submit checker state h).onlyClearing

theorem onlyClearing_run (checker : Checker σ) (steps : List Step)
    (state : σ) (actions : List Action) :
    (run checker steps state actions).1.sheet.OnlyClearing :=
  run_invariant (fun session => session.sheet.OnlyClearing)
    (Worksheet.onlyClearing_ofSteps steps) (onlyClearing_act checker) actions

end Session

end ProofOutline
