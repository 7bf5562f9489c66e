import ProofOutline.Text
import ProofOutline.Token
import ProofOutline.Tree

/-!
# From tokens to trees

Recursive descent over the token list.  Loosest first, the operators are `=>`
(to the right), `||`, `&&`, prefix `!`, one comparison, `+ -`, `* / %` and
prefix `+ -`.  The grammar does not tell formulas from arithmetic; that is
left to the reading of the tree.

Brackets, prefix operators, right-hand sides of `=>` and every further link of
an operator chain go one level deeper, and at most `maxNesting` levels are
allowed.  The parsers one level down are bundled in `Deeper`, so that the
parsers of a level are plain functions of the bundle and the levels themselves
are built by recursion on the room that is left.
-/

namespace ProofOutline

def maxNesting : Nat := 256

inductive SyntaxCause where
  | trailing (found : TokenKind)
  | emptyAssertion
  | nothing
  | notACommand (found : TokenKind)
  | notAnExpression (found : TokenKind)
  | emptyParens
  | argumentEnd (found : TokenKind)
  | chainedComparison
  | tooDeep
  | mismatch (expected found : TokenKind)
  | endOfTokens
  | emptyTree
  deriving DecidableEq, Repr

structure SyntaxError where
  cause : SyntaxCause
  span : Span
  deriving DecidableEq, Repr

namespace SyntaxCause

def detail : SyntaxCause → String
  | trailing found =>
      "unexpected " ++ found.describe ++ " after the end of the declaration"
  | emptyAssertion =>
      "an assertion needs at least one formula between `\x7b` and `\x7d`"
  | nothing => "expected an assertion or a command"
  | notACommand found => "expected a command but found " ++ found.describe
  | notAnExpression found =>
      "expected an expression but found " ++ found.describe
  | emptyParens => "expected an expression inside parentheses"
  | argumentEnd found =>
      "expected `,` or `)` in argument list but found " ++ found.describe
  | chainedComparison =>
      "chained comparisons are not supported; use `&&` between comparisons"
  | tooDeep => "expression nested too deeply"
  | mismatch expected found =>
      "expected " ++ expected.describe ++ " but found " ++ found.describe
  | endOfTokens => "unexpected end of input"
  | emptyTree => "empty parse tree"

end SyntaxCause

namespace SyntaxError

def message (error : SyntaxError) : String :=
  "parse error: " ++ error.cause.detail

def diagnostic (error : SyntaxError) : Diagnostic where
  code := "imp::parse"
  message := error.message
  span := some error.span

end SyntaxError

abbrev Parser := StateT (List Token) (Except SyntaxError)

namespace Parser

def fail {α : Type} (cause : SyntaxCause) (span : Span) : Parser α :=
  throw ⟨cause, span⟩

def peek : Parser (Option Token) := do
  return (← get).head?

def peekSpan : Parser Span := do
  return ((← peek).map Token.span).getD ⟨0, 0⟩

def advance : Parser Token := do
  match ← get with
  | token :: rest =>
      set rest
      return token
  | [] => fail .endOfTokens ⟨0, 0⟩

def at? (isWanted : TokenKind → Bool) : Parser Bool := do
  return ((← peek).map fun token => isWanted token.kind).getD false

def expect (kind : TokenKind) : Parser Token := do
  let token ← advance
  if token.kind = kind then return token
  else fail (.mismatch kind token.kind) token.span

structure Deeper where
  expression : Parser Tree
  negand : Parser Tree
  operand : Parser Tree
  moreDisjuncts : Tree → Parser Tree
  moreConjuncts : Tree → Parser Tree
  moreTerms : Tree → Parser Tree
  moreFactors : Tree → Parser Tree

def leaf (kind : NodeKind) (token : Token) : Tree := .leaf kind token.span

def binary (kind opKind : NodeKind) (left : Tree) (op : Token)
    (right : Tree) : Tree :=
  .node kind (left.span.through right.span) [left, leaf opKind op, right]

/-! ## The levels of an expression -/

/--
Arguments and their separators up to the closing parenthesis.  Each round
takes a token, so the number of tokens bounds the rounds.
-/
def arguments (expression : Parser Tree) : Nat → Parser (List Tree)
  | 0 => fail .endOfTokens ⟨0, 0⟩
  | rounds + 1 => do
      let argument ← expression
      let token ← advance
      match token.kind with
      | .comma => do
          let rest ← arguments expression rounds
          return argument :: leaf .comma token :: rest
      | .rparen => return [argument, leaf .rparen token]
      | other => fail (.argumentEnd other) token.span

def argumentList (deeper : Deeper) : Parser Tree := do
  let opening ← expect .lparen
  let items ←
    if ← at? (· = .rparen) then do
      let closing ← advance
      pure [leaf .rparen closing]
    else do
      arguments deeper.expression ((← get).length + 1)
  let children := leaf .lparen opening :: items
  let last := (children.getLast?.map Tree.span).getD opening.span
  return .node .arguments (opening.span.through last) children

def primary (deeper : Deeper) : Parser Tree := do
  let token ← advance
  match token.kind with
  | .int _ => return leaf .number token
  | .kwTrue | .kwFalse => return leaf .boolean token
  | .ident _ =>
      let name := leaf .name token
      if ← at? (· = .lparen) then
        let args ← argumentList deeper
        return .node .application (token.span.through args.span) [name, args]
      else return name
  | .lparen =>
      if ← at? (· = .rparen) then
        let closing ← advance
        fail .emptyParens (token.span.through closing.span)
      else
        let inner ← deeper.expression
        let closing ← expect .rparen
        let kind :=
          if inner.kind.isFormula then NodeKind.formulaParens
          else .arithParens
        return .node kind (token.span.through closing.span)
          [leaf .lparen token, inner, leaf .rparen closing]
  | other => fail (.notAnExpression other) token.span

def unary (deeper : Deeper) : Parser Tree := do
  if ← at? TokenKind.isSum then
    let sign ← advance
    let operand ← deeper.operand
    return .node .signed (sign.span.through operand.span)
      [leaf .arithOp sign, operand]
  else primary deeper

def factorChain (deeper : Deeper) (left : Tree) : Parser Tree := do
  if ← at? TokenKind.isProduct then deeper.moreFactors left else return left

def product (deeper : Deeper) : Parser Tree := do
  factorChain deeper (← unary deeper)

def termChain (deeper : Deeper) (left : Tree) : Parser Tree := do
  if ← at? TokenKind.isSum then deeper.moreTerms left else return left

def sum (deeper : Deeper) : Parser Tree := do
  termChain deeper (← product deeper)

def comparison (deeper : Deeper) : Parser Tree := do
  let left ← sum deeper
  if ← at? TokenKind.isComparison then
    let op ← advance
    let right ← sum deeper
    if ← at? TokenKind.isComparison then
      fail .chainedComparison (← peekSpan)
    else return binary .comparison .compareOp left op right
  else return left

def negation (deeper : Deeper) : Parser Tree := do
  if ← at? (· = .bang) then
    let bang ← advance
    let negand ← deeper.negand
    return .node .negation (bang.span.through negand.span)
      [leaf .bang bang, negand]
  else comparison deeper

def conjunctChain (deeper : Deeper) (left : Tree) : Parser Tree := do
  if ← at? (· = .and) then deeper.moreConjuncts left else return left

def conjunction (deeper : Deeper) : Parser Tree := do
  conjunctChain deeper (← negation deeper)

def disjunctChain (deeper : Deeper) (left : Tree) : Parser Tree := do
  if ← at? (· = .or) then deeper.moreDisjuncts left else return left

def disjunction (deeper : Deeper) : Parser Tree := do
  disjunctChain deeper (← conjunction deeper)

def implication (deeper : Deeper) : Parser Tree := do
  let left ← disjunction deeper
  if ← at? (· = .implies) then
    let op ← advance
    let right ← deeper.expression
    return binary .implication .logicOp left op right
  else return left

/-! ## Room to nest -/

/-- No room is left: whatever would go deeper fails where it starts. -/
def Deeper.none : Deeper where
  expression := do fail .tooDeep (← peekSpan)
  negand := do fail .tooDeep (← peekSpan)
  operand := do fail .tooDeep (← peekSpan)
  moreDisjuncts _ := do fail .tooDeep (← peekSpan)
  moreConjuncts _ := do fail .tooDeep (← peekSpan)
  moreTerms _ := do fail .tooDeep (← peekSpan)
  moreFactors _ := do fail .tooDeep (← peekSpan)

def link (kind opKind : NodeKind) (operand : Parser Tree)
    (chain : Tree → Parser Tree) (left : Tree) : Parser Tree := do
  let op ← advance
  let right ← operand
  chain (binary kind opKind left op right)

def Deeper.level (deeper : Deeper) : Deeper where
  expression := implication deeper
  negand := negation deeper
  operand := unary deeper
  moreDisjuncts :=
    link .disjunction .logicOp (conjunction deeper) (disjunctChain deeper)
  moreConjuncts :=
    link .conjunction .logicOp (negation deeper) (conjunctChain deeper)
  moreTerms := link .operation .arithOp (product deeper) (termChain deeper)
  moreFactors := link .operation .arithOp (unary deeper) (factorChain deeper)

def Deeper.ofRoom : Nat → Deeper
  | 0 => .none
  | room + 1 => (ofRoom room).level

/-! ## Declarations -/

/-- The formulas after the first; each comma goes one level deeper. -/
def moreFormulas : Nat → Parser (List Tree)
  | 0 => do
      if ← at? (· = .comma) then
        let _ ← advance
        fail .tooDeep (← peekSpan)
      else return []
  | room + 1 => do
      if ← at? (· = .comma) then
        let _ ← advance
        let formula ← (Deeper.ofRoom room).expression
        return formula :: (← moreFormulas room)
      else return []

def assertion : Parser Tree := do
  let opening ← expect .lbrace
  if ← at? (· = .rbrace) then
    let closing ← advance
    fail .emptyAssertion (opening.span.through closing.span)
  else
    let first ← (Deeper.ofRoom maxNesting).expression
    let rest ← moreFormulas maxNesting
    let closing ← expect .rbrace
    return .node .assertion (opening.span.through closing.span)
      (first :: rest)

def statement : Parser Tree := do
  let token ← advance
  match token.kind with
  | .kwSkip =>
      let semi ← expect .semi
      return .leaf .skip (token.span.through semi.span)
  | .ident _ =>
      let op ← expect .assign
      let value ← (Deeper.ofRoom maxNesting).expression
      let semi ← expect .semi
      return .node .assignment (token.span.through semi.span)
        [leaf .name token, leaf .assignOp op, value]
  | other => fail (.notACommand other) token.span

/--
Statements up to the end of input.  Each takes a token, so the number of
tokens bounds the rounds.
-/
def statements : Nat → Parser (List Tree)
  | 0 => fail .endOfTokens ⟨0, 0⟩
  | rounds + 1 => do
      if ← at? (· = .eof) then return []
      else
        let first ← statement
        return first :: (← statements rounds)

def command : Parser Tree := do
  match ← statements ((← get).length + 1) with
  | [] => fail .nothing (← peekSpan)
  | first :: rest =>
      let last := (rest.getLast?.map Tree.span).getD first.span
      return .node .command (first.span.through last) (first :: rest)

def declaration : Parser Tree := do
  let body ← if ← at? (· = .lbrace) then assertion else command
  if ← at? (· = .eof) then
    return .node .declaration body.span [body]
  else
    let token ← advance
    fail (.trailing token.kind) token.span

end Parser

def Tree.ofTokens (tokens : List Token) : Except SyntaxError Tree :=
  (Parser.declaration.run tokens).map Prod.fst

end ProofOutline
