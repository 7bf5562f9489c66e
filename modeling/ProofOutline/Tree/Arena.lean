import ProofOutline.Tree.Parser

/-!
# Syntax trees in an arena

The nodes of a syntax tree stand in an array and are known by their places in
it.  A node names its children, and its parent together with its own index among
the parent's children.  Nodes are added with the children they adopt, and when
all of them are there, one is made the root.
-/

namespace ProofOutline

structure SyntaxNode where
  kind : NodeKind
  span : Span
  parent : Option Nat
  index : Nat
  children : List Nat
  deriving DecidableEq, Repr

structure SyntaxTree where
  nodes : Array SyntaxNode := #[]
  root : Option Nat := none
  deriving DecidableEq, Repr

namespace SyntaxTree

def adopt (parent : Nat) (nodes : Array SyntaxNode) (index : Nat) :
    List Nat → Array SyntaxNode
  | [] => nodes
  | child :: rest =>
      let adopted := nodes.modify child fun node =>
        { node with parent := some parent, index }
      adopt parent adopted (index + 1) rest

def push (tree : SyntaxTree) (kind : NodeKind) (span : Span)
    (children : List Nat) : Nat × SyntaxTree :=
  let id := tree.nodes.size
  let node := { kind, span, parent := none, index := 0, children }
  (id, { tree with nodes := (adopt id tree.nodes 0 children).push node })

def setRoot (tree : SyntaxTree) (id : Nat) : SyntaxTree :=
  { tree with root := some id }

def kind (tree : SyntaxTree) (id : Nat) : NodeKind :=
  (tree.nodes[id]?.map SyntaxNode.kind).getD .declaration

def span (tree : SyntaxTree) (id : Nat) : Span :=
  (tree.nodes[id]?.map SyntaxNode.span).getD ⟨0, 0⟩

end SyntaxTree

def NodeKind.operator? : NodeKind → Option NodeKind
  | implication | disjunction | conjunction => some .logicOp
  | comparison => some .compareOp
  | operation => some .arithOp
  | _ => none

namespace Tree

mutual

/-- Add all nodes of the tree, an operator after both of its operands. -/
def push : Tree → SyntaxTree → Nat × SyntaxTree
  | node kind span [left, middle, right], arena =>
      let first := left.push arena
      if kind.operator?.isSome then
        let last := right.push first.2
        let operator := middle.push last.2
        operator.2.push kind span [first.1, operator.1, last.1]
      else
        let second := middle.push first.2
        let last := right.push second.2
        last.2.push kind span [first.1, second.1, last.1]
  | node kind span children, arena =>
      let all := pushAll children arena
      all.2.push kind span all.1

def pushAll : List Tree → SyntaxTree → List Nat × SyntaxTree
  | [], arena => ([], arena)
  | tree :: rest, arena =>
      let first := tree.push arena
      let others := pushAll rest first.2
      (first.1 :: others.1, others.2)

end

end Tree

namespace SyntaxTree

def ofTree (tree : Tree) : SyntaxTree :=
  let added := tree.push {}
  added.2.setRoot added.1

def ofTokens (tokens : List Token) : Except SyntaxError SyntaxTree :=
  (Tree.ofTokens tokens).map ofTree

end SyntaxTree

end ProofOutline
