import ProofOutline.Text
import ProofOutline.Tree.Cursor
import ProofOutline.Triple

/-!
# Reading a tree

A walk moves a cursor over a tree and builds the syntax that the tree denotes.
Names, numbers and operators are taken from the text under their nodes, which
need not be the text that the tree was parsed from.  A walk that succeeds has
its cursor back where it started.
-/

namespace ProofOutline

inductive Expectation where
  | declaration
  | body
  | command
  | formula
  | connective
  | comparison
  | expression
  | operator
  | sign
  | literal
  | name
  | argument
  deriving DecidableEq, Repr

namespace Expectation

def phrase : Expectation → String
  | declaration =>
      "Expected a top-level declaration (i.e., a Assertion or Command) but got"
  | body => "Expected Assertion or Command but got"
  | command => "Expected a Command but got"
  | formula => "Expected formula but got"
  | connective => "Expected logical connective but got"
  | comparison => "Expected comparison op but got"
  | expression => "Expected arithmetic expression but got"
  | operator => "Unexpected arithmetic op"
  | sign => "Unexpected unary op"
  | literal => "Integer literal out of range:"
  | name => "Expected a name but got"
  | argument =>
      "Could not parse argument to predicate. " ++
        "Predicate arguments must be integer expressions."

end Expectation

structure ReadError where
  expectation : Expectation
  span : Span
  found : String
  deriving DecidableEq, Repr

namespace ReadError

def message (error : ReadError) : String :=
  toString error.span.start ++ "-" ++ toString error.span.stop ++ ": " ++
    error.expectation.phrase ++ " `" ++ error.found ++ "`."

def diagnostic (error : ReadError) : Diagnostic where
  code := "imp::translate"
  message := error.message
  span := some error.span

end ReadError

abbrev Walk := StateT Cursor (Except ReadError)

namespace Walk

def tryGo (move : Move) : Walk Bool :=
  modifyGet (Cursor.step move)

def go (move : Move) : Walk Unit := do
  let _ ← tryGo move

def kind : Walk NodeKind := do
  return (← get).kind

def text (source : List Char) : Walk String := do
  return String.ofList ((← get).text source)

def refuse {α : Type} (source : List Char) (expectation : Expectation) :
    Walk α := do
  throw ⟨expectation, (← get).span, ← text source⟩

def binary {α : Type} (source : List Char) (operand : Walk α) :
    Walk (α × String × α) := do
  go .firstChild
  let left ← operand
  go .nextSibling
  let op ← text source
  go .nextSibling
  let right ← operand
  go .parent
  return (left, op, right)

def parenthesized {α : Type} (inside : Walk α) : Walk α := do
  go .firstChild
  go .nextSibling
  let inner ← inside
  go .parent
  return inner

/-!
Walks over siblings go on as long as there is a next one.  No node has as many
of them as the given number of rounds.
-/

def siblings {α : Type} (item : Walk α) : Nat → Walk (List α)
  | 0 => return []
  | rounds + 1 => do
      let first ← item
      if ← tryGo .nextSibling then
        return first :: (← siblings item rounds)
      else return [first]

def children {α : Type} (item : Walk α) (rounds : Nat) : Walk (List α) := do
  if ← tryGo .firstChild then
    let items ← siblings item rounds
    go .parent
    return items
  else return []

def name (source : List Char) : Walk Name := do
  if (← kind) ≠ .name then refuse source .name
  match Name.ofString? (← text source) with
  | some name => return name
  | none => refuse source .name

/-! Expressions are read to a given depth, which no tree of that size has. -/

def arith (source : List Char) : Nat → Walk Arith
  | 0 => refuse source .expression
  | depth + 1 => do
      match ← kind with
      | .name => return .var (← name source)
      | .number =>
          let digits ← text source
          match (Text.readInteger? digits.toList).bind Word.ofInt? with
          | some value => return .lit value
          | none => refuse source .literal
      | .operation =>
          let (left, op, right) ← binary source (arith source depth)
          match ArithOp.ofSymbol? op with
          | some op => return .binary op left right
          | none => refuse source .operator
      | .signed =>
          go .firstChild
          let sign ← text source
          go .nextSibling
          let operand ← arith source depth
          go .parent
          match sign with
          | "+" => return operand
          | "-" => return operand.negate
          | _ => refuse source .sign
      | .arithParens => parenthesized (arith source depth)
      | _ => refuse source .expression

def argumentsAfter (source : List Char) (argument : Walk Arith) :
    Nat → Walk (List Arith)
  | 0 => return []
  | rounds + 1 => do
      if ← tryGo .nextSibling then
        if (← kind) = .comma ∨ (← kind) = .rparen then
          argumentsAfter source argument rounds
        else
          let first ←
            tryCatch argument fun _ => refuse source .argument
          return first :: (← argumentsAfter source argument rounds)
      else return []

def arguments (source : List Char) (argument : Walk Arith) (rounds : Nat) :
    Walk (List Arith) := do
  go .firstChild
  let args ← argumentsAfter source argument rounds
  go .parent
  return args

def formula (source : List Char) : Nat → Walk Formula
  | 0 => refuse source .formula
  | depth + 1 => do
      match ← kind with
      | .boolean => return .truth ((← text source) == "true")
      | .application =>
          go .firstChild
          let symbol ← name source
          go .nextSibling
          let args ← arguments source (arith source depth) depth
          go .parent
          return .predicate symbol args
      | .conjunction | .disjunction | .implication =>
          let (left, op, right) ← binary source (formula source depth)
          match Connective.ofSymbol? op with
          | some op => return .connect op left right
          | none => refuse source .connective
      | .comparison =>
          let (left, op, right) ← binary source (arith source depth)
          match CompareOp.ofSymbol? op with
          | some op => return .compare op left right
          | none => refuse source .comparison
      | .negation =>
          go .lastChild
          let body ← formula source depth
          go .parent
          return .neg body
      | .formulaParens => parenthesized (formula source depth)
      | _ => refuse source .formula

def statement (source : List Char) (depth : Nat) : Walk Primitive := do
  match ← kind with
  | .assignment =>
      go .firstChild
      let target ← name source
      go .nextSibling
      go .nextSibling
      let value ← arith source depth
      go .parent
      return .assign target value
  | .skip => return .skip
  | _ => refuse source .command

def command (source : List Char) (depth : Nat) : Walk Command := do
  match ← children (statement source depth) depth with
  | first :: rest => return ⟨first, rest⟩
  | [] => refuse source .command

def assertion (source : List Char) (depth : Nat) : Walk Formula := do
  match Formula.conjoin? (← children (formula source depth) depth) with
  | some formula => return formula
  | none => refuse source .formula

def body (source : List Char) (depth : Nat) : Walk Decl := do
  match ← kind with
  | .assertion =>
      return .assertion ⟨String.ofList source, ← assertion source depth⟩
  | .command =>
      return .program ⟨String.ofList source, ← command source depth⟩
  | _ => refuse source .body

def declaration (source : List Char) (depth : Nat) : Walk Decl := do
  if (← kind) ≠ .declaration then refuse source .declaration
  go .firstChild
  let decl ← body source depth
  go .parent
  return decl

end Walk

namespace Cursor

/-- No tree in the arena is deeper than the arena is large. -/
def readArith (source : List Char) (cursor : Cursor) :
    Except ReadError (Arith × Cursor) :=
  (Walk.arith source cursor.tree.nodes.size).run cursor

def readFormula (source : List Char) (cursor : Cursor) :
    Except ReadError (Formula × Cursor) :=
  (Walk.formula source cursor.tree.nodes.size).run cursor

def readDecl (source : List Char) (cursor : Cursor) :
    Except ReadError (Decl × Cursor) :=
  (Walk.declaration source cursor.tree.nodes.size).run cursor

end Cursor

end ProofOutline
