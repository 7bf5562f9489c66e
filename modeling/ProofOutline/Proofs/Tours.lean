import Mathlib.Data.List.Perm.Subperm
import ProofOutline.Proofs.Arena

/-!
# Moves in a tree

Moves reach every node from the root, and a move is undone by moving up again.
From the root, down to the first child where there is one, else on to the next
sibling, else up again: this way round a tree comes to an end.  A node is
entered with all that hangs below it, so every node is entered; and as many are
entered as there are nodes, so none is entered twice.
-/

namespace ProofOutline

namespace Cursor

/-! ## Single moves -/

structure MovesInTree (cursor : Cursor) : Prop where
  first : cursor.firstChild? = cursor.child? 0
  last : ∀ node, cursor.node? = some node →
    cursor.lastChild? = cursor.child? (node.children.length - 1)
  along : ∀ index child, cursor.child? index = some child →
    child.nextSibling? = cursor.child? (index + 1)
  upFromChild : ∀ index child, cursor.child? index = some child →
    child.parent? = some cursor
  upFromSibling : ∀ sibling, cursor.nextSibling? = some sibling →
    sibling.parent? = cursor.parent?

theorem movesInTree {cursor : Cursor} {root : Nat}
    (linked : cursor.tree.Linked root) : cursor.MovesInTree where
  first := firstChild?_eq cursor
  last _ := lastChild?_eq
  along _ _ := nextSibling?_of_child? linked
  upFromChild _ _ := parent?_of_child? linked
  upFromSibling sibling moved := by
    cases isParent : cursor.parent? with
    | none => simp [nextSibling?, isParent] at moved
    | some parent =>
        obtain ⟨same, index, isChild⟩ :=
          exists_child?_of_parent? linked isParent
        rw [← same] at linked
        rw [nextSibling?_of_child? linked isChild] at moved
        exact parent?_of_child? linked moved

def follow (moves : List Move) (cursor : Cursor) : Cursor :=
  moves.foldl (fun cursor move => (cursor.step move).2) cursor

@[simp] theorem follow_append (moves further : List Move) (cursor : Cursor) :
    cursor.follow (moves ++ further) = (cursor.follow moves).follow further :=
  List.foldl_append

private theorem follow_of_move? {move : Move} {cursor moved : Cursor}
    (eq : cursor.move? move = some moved) :
    cursor.follow [move] = moved := by
  show (cursor.step move).2 = moved
  rw [step, eq]

private theorem exists_follow_child? {cursor child : Cursor} {root index : Nat}
    (linked : cursor.tree.Linked root)
    (isChild : cursor.child? index = some child) :
    ∃ moves, cursor.follow moves = child := by
  induction index generalizing child with
  | zero =>
      rw [← firstChild?_eq] at isChild
      exact ⟨[.firstChild], follow_of_move? isChild⟩
  | succ index ih =>
      obtain ⟨node, found, here, same⟩ := child?_eq_some_iff.mp isChild
      have within : index + 1 < node.children.length :=
        (List.getElem?_eq_some_iff.mp here).1
      have before : cursor.child? index =
          some ⟨cursor.tree, node.children[index]⟩ :=
        child?_eq_some_iff.mpr ⟨node, found, List.getElem?_eq_getElem _, rfl⟩
      obtain ⟨moves, reached⟩ := ih before
      rw [← nextSibling?_of_child? linked before] at isChild
      refine ⟨moves ++ [.nextSibling], ?_⟩
      rw [follow_append, reached]
      exact follow_of_move? isChild

theorem exists_follow {tree : SyntaxTree} {root : Nat}
    (linked : tree.Linked root) :
    ∀ id < tree.nodes.size,
      ∃ moves, (⟨tree, root⟩ : Cursor).follow moves = ⟨tree, id⟩ := by
  refine linked.induct ⟨[], rfl⟩ ?_
  rintro id index child node found isChild ⟨moves, reached⟩
  have isChild : (⟨tree, id⟩ : Cursor).child? index = some ⟨tree, child⟩ :=
    child?_eq_some_iff.mpr ⟨node, found, isChild, rfl⟩
  obtain ⟨further, last⟩ := exists_follow_child? linked isChild
  refine ⟨moves ++ further, ?_⟩
  rw [follow_append, reached, last]

/-! ## The way round -/

/-- A node is entered, and left when all below it has been entered and left. -/
inductive Stage where
  | entered
  | left
  deriving DecidableEq, Repr

/-- Down if possible, else on to a sibling, else up. -/
def tourStep : Stage → Cursor → Option (Stage × Cursor)
  | .entered, cursor =>
      match cursor.firstChild? with
      | some child => some (.entered, child)
      | none => some (.left, cursor)
  | .left, cursor =>
      match cursor.nextSibling? with
      | some sibling => some (.entered, sibling)
      | none => cursor.parent?.map fun parent => (.left, parent)

inductive Tour : Stage → Cursor → List Nat → Prop
  | finish {cursor : Cursor} :
      tourStep .left cursor = none → Tour .left cursor []
  | enter {cursor next : Cursor} {stage : Stage} {entered : List Nat} :
      tourStep .entered cursor = some (stage, next) →
      Tour stage next entered → Tour .entered cursor (cursor.node :: entered)
  | leave {cursor next : Cursor} {stage : Stage} {entered : List Nat} :
      tourStep .left cursor = some (stage, next) →
      Tour stage next entered → Tour .left cursor entered

private theorem Tour.childLeft {cursor child : Cursor} {later : List Nat}
    (isChild : child.parent? = some cursor)
    (isLast : child.nextSibling? = none) (h : Tour .left cursor later) :
    Tour .left child later :=
  .leave (by simp [tourStep, isLast, isChild]) h

private theorem Tour.siblingEntered {cursor sibling : Cursor}
    {entered : List Nat} (next : cursor.nextSibling? = some sibling)
    (h : Tour .entered sibling entered) : Tour .left cursor entered :=
  .leave (by simp [tourStep, next]) h

end Cursor

def SyntaxTree.Closed (tree : SyntaxTree) (ids : List Nat) : Prop :=
  ∀ {id index child : Nat} {node : SyntaxNode}, id ∈ ids →
    tree.nodes[id]? = some node → node.children[index]? = some child →
    child ∈ ids

theorem SyntaxTree.Closed.append {tree : SyntaxTree} {ids more : List Nat}
    (h : tree.Closed ids) (further : tree.Closed more) :
    tree.Closed (ids ++ more) := by
  intro id index child node mem found isChild
  rcases List.mem_append.mp mem with mem | mem
  · exact List.mem_append_left _ (h mem found isChild)
  · exact List.mem_append_right _ (further mem found isChild)

namespace Cursor

variable {cursor child : Cursor} {tree focus : Tree}

/-- What a node's part of the way round enters, whatever comes after it. -/
structure Rounds (cursor : Cursor) (tree : Tree) (entered : List Nat) :
    Prop where
  self : cursor.node ∈ entered
  closed : cursor.tree.Closed entered
  count : entered.length = tree.size
  tour : ∀ later, Tour .left cursor later →
    Tour .entered cursor (entered ++ later)

structure RoundsFrom (cursor : Cursor) (index : Nat) (child : Cursor)
    (trees : List Tree) (entered : List Nat) : Prop where
  all : ∀ {number : Nat} {child : Cursor}, index ≤ number →
    cursor.child? number = some child → child.node ∈ entered
  closed : cursor.tree.Closed entered
  count : entered.length = Tree.sizeList trees
  tour : ∀ later, Tour .left cursor later →
    Tour .entered child (entered ++ later)

private theorem exists_roundsFrom {root index : Nat} {kind : NodeKind}
    {span : Span} {trees after : List Tree} (linked : cursor.tree.Linked root)
    (stands : cursor.Stands (.node kind span trees))
    (here : cursor.child? index = some child)
    (rest : trees.drop index = focus :: after)
    (each : ∀ tree ∈ focus :: after, ∀ child : Cursor, child.Stands tree →
      ∃ entered, child.Rounds tree entered) :
    ∃ entered, cursor.RoundsFrom index child (focus :: after) entered := by
  induction after generalizing index child focus with
  | nil =>
      obtain ⟨entered, round⟩ := each focus List.mem_cons_self child
        (stands.of_drop here rest)
      have past := Tree.drop_succ rest
      have isLast := stands.nextSibling?_eq_none here past
      refine ⟨entered, ?_, tree_of_child? here ▸ round.closed, ?_,
        fun later h => ?_⟩
      · intro number other within isOther
        rcases Nat.eq_or_lt_of_le within with rfl | further
        · cases here.symm.trans isOther
          exact round.self
        · have none : trees[number]? = none :=
            List.getElem?_eq_none
              (Nat.le_trans (List.drop_eq_nil_iff.mp past) further)
          cases (stands.child?_eq_none none).symm.trans isOther
      · simpa [Tree.sizeList] using round.count
      · exact round.tour later
          (h.childLeft (parent?_of_child? linked here) isLast)
  | cons next after ih =>
      obtain ⟨first, others⟩ := List.forall_mem_cons.mp each
      obtain ⟨entered, round⟩ := first child (stands.of_drop here rest)
      have past := Tree.drop_succ rest
      obtain ⟨sibling, moved, isNext, -⟩ := stands.exists_nextSibling here past
      obtain ⟨more, rounds⟩ := ih isNext past others
      have closed : cursor.tree.Closed entered :=
        tree_of_child? here ▸ round.closed
      refine ⟨entered ++ more, ?_, closed.append rounds.closed, ?_,
        fun later h => ?_⟩
      · intro number other within isOther
        rcases Nat.eq_or_lt_of_le within with rfl | further
        · cases here.symm.trans isOther
          exact List.mem_append_left _ round.self
        · exact List.mem_append_right _ (rounds.all further isOther)
      · simp [round.count, rounds.count, Tree.sizeList]
      · rw [List.append_assoc]
        exact round.tour _ (.siblingEntered moved (rounds.tour later h))

private theorem Stands.exists_rounds (stands : cursor.Stands tree) :
    ∃ entered, cursor.Rounds tree entered := by
  generalize bound : tree.size = size
  induction size using Nat.strongRecOn generalizing cursor tree with
  | _ size ih =>
      obtain ⟨kind, span, trees⟩ := tree
      obtain ⟨root, linked⟩ := stands.linked
      obtain ⟨node, found, -, -, all⟩ := stands.exists_node
      have first := firstChild?_eq cursor
      cases trees with
      | nil =>
          rw [stands.child?_eq_none rfl] at first
          refine ⟨[cursor.node], List.mem_cons_self, ?_, rfl, fun later h => ?_⟩
          · intro id index child other mem isOther isChild
            cases List.mem_singleton.mp mem
            cases found.symm.trans isOther
            rw [List.eq_nil_of_length_eq_zero all.length] at isChild
            cases isChild
          · exact .enter (by simp [tourStep, first]) h
      | cons focus after =>
          obtain ⟨child, isChild, -⟩ := stands.exists_child 0 rfl
          rw [isChild] at first
          obtain ⟨entered, rounds⟩ := exists_roundsFrom linked stands isChild
            rfl fun tree mem child onChild =>
              ih _ (bound ▸ Tree.size_lt_of_mem mem) onChild rfl
          refine ⟨cursor.node :: entered, List.mem_cons_self, ?_, ?_,
            fun later h => ?_⟩
          · intro id index child other mem isOther isChild
            rcases List.mem_cons.mp mem with rfl | mem
            · have isChild : cursor.child? index = some ⟨cursor.tree, child⟩ :=
                child?_eq_some_iff.mpr ⟨other, isOther, isChild, rfl⟩
              exact List.mem_cons_of_mem _
                (rounds.all (Nat.zero_le index) isChild)
            · exact List.mem_cons_of_mem _ (rounds.closed mem isOther isChild)
          · rw [List.length_cons, rounds.count, Tree.size]
          · exact .enter (by simp [tourStep, first]) (rounds.tour later h)

/-- The way round a tree ends, and it enters every node once. -/
theorem exists_tour (tree : Tree) :
    ∃ entered, Tour .entered (ofTree tree) entered ∧
      entered.Perm (List.range (SyntaxTree.ofTree tree).nodes.size) := by
  have linked : (ofTree tree).tree.Linked (ofTree tree).node :=
    SyntaxTree.linked_ofTree tree
  obtain ⟨entered, self, closed, count, tour⟩ :=
    (stands_ofTree tree).exists_rounds
  have ended : tourStep .left (ofTree tree) = none := by
    simp [tourStep, nextSibling?_of_root linked, parent?_of_root linked]
  have round := tour [] (.finish ended)
  rw [List.append_nil] at round
  refine ⟨entered, round, ?_⟩
  have every : List.range (SyntaxTree.ofTree tree).nodes.size ⊆ entered := by
    intro id mem
    exact linked.induct self (fun found isChild mem => closed mem found isChild)
      id (List.mem_range.mp mem)
  have subperm := List.nodup_range.subperm every
  refine (subperm.perm_of_length_le (Nat.le_of_eq ?_)).symm
  rw [count, List.length_range, SyntaxTree.size_ofTree]

end Cursor

end ProofOutline
