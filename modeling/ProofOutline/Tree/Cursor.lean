import ProofOutline.Tree.Arena

/-!
# Cursors

A cursor stands on a node of a syntax tree.  A move that has nowhere to go gives
nothing.
-/

namespace ProofOutline

structure Cursor where
  tree : SyntaxTree
  node : Nat
  deriving DecidableEq, Repr

inductive Move where
  | firstChild
  | lastChild
  | nextSibling
  | parent
  deriving DecidableEq, Repr

def SyntaxTree.cursor? (tree : SyntaxTree) : Option Cursor :=
  tree.root.map fun root => ⟨tree, root⟩

namespace Cursor

def node? (cursor : Cursor) : Option SyntaxNode :=
  cursor.tree.nodes[cursor.node]?

def firstChild? (cursor : Cursor) : Option Cursor := do
  let child ← (← cursor.node?).children.head?
  return { cursor with node := child }

def lastChild? (cursor : Cursor) : Option Cursor := do
  let child ← (← cursor.node?).children.getLast?
  return { cursor with node := child }

def parent? (cursor : Cursor) : Option Cursor := do
  let parent ← (← cursor.node?).parent
  return { cursor with node := parent }

def nextSibling? (cursor : Cursor) : Option Cursor := do
  let node ← cursor.node?
  let parent ← (← cursor.parent?).node?
  let sibling ← parent.children[node.index + 1]?
  return { cursor with node := sibling }

def move? : Move → Cursor → Option Cursor
  | .firstChild => firstChild?
  | .lastChild => lastChild?
  | .nextSibling => nextSibling?
  | .parent => parent?

/-- Move if possible, else stay; the flag tells which. -/
def step (move : Move) (cursor : Cursor) : Bool × Cursor :=
  match move? move cursor with
  | some moved => (true, moved)
  | none => (false, cursor)

def kind (cursor : Cursor) : NodeKind := cursor.tree.kind cursor.node

def span (cursor : Cursor) : Span := cursor.tree.span cursor.node

def text (source : List Char) (cursor : Cursor) : List Char :=
  Text.slice source cursor.span

end Cursor

end ProofOutline
