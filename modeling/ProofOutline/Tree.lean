import ProofOutline.Text

/-!
# Concrete syntax trees

A tree records how a source text was parsed: each node has a kind, the span of
source it covers, and its children in source order.  Operators, argument
commas and parentheses are leaves of their own; braces, semicolons and the
commas of an assertion leave no node.
-/

namespace ProofOutline

inductive NodeKind where
  | declaration
  | assertion
  | command
  | assignment
  | assignOp
  | skip
  | implication
  | disjunction
  | conjunction
  | negation
  | comparison
  | operation
  | signed
  | application
  | arguments
  | formulaParens
  | arithParens
  | boolean
  | number
  | name
  | logicOp
  | compareOp
  | arithOp
  | bang
  | lparen
  | rparen
  | comma
  deriving DecidableEq, Repr

def NodeKind.isFormula : NodeKind → Bool
  | implication | disjunction | conjunction | negation | comparison
  | application | formulaParens | boolean => true
  | _ => false

inductive Tree where
  | node (kind : NodeKind) (span : Span) (children : List Tree)

namespace Tree

def kind : Tree → NodeKind
  | node kind _ _ => kind

def span : Tree → Span
  | node _ span _ => span

def children : Tree → List Tree
  | node _ _ children => children

def leaf (kind : NodeKind) (span : Span) : Tree := .node kind span []

mutual

def size : Tree → Nat
  | node _ _ children => sizeList children + 1

def sizeList : List Tree → Nat
  | [] => 0
  | tree :: rest => tree.size + sizeList rest

end

end Tree

end ProofOutline
