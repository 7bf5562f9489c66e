import ProofOutline.Tree.Arena

/-!
# From tokens to an arena

The parser as it fills an arena.  Every node is added as soon as its last child
and its last token are there, and is known from then on by its place; spans and
kinds of earlier nodes are looked up in the arena.
-/

namespace ProofOutline

abbrev Pushing := StateT SyntaxTree Parser

namespace Pushing

open ProofOutline.Parser

def node (kind : NodeKind) (span : Span) (children : List Nat) : Pushing Nat :=
  modifyGet fun arena => arena.push kind span children

def leaf (kind : NodeKind) (token : Token) : Pushing Nat :=
  node kind token.span []

def kindOf (id : Nat) : Pushing NodeKind := do
  return (← get).kind id

def spanOf (id : Nat) : Pushing Span := do
  return (← get).span id

def binary (kind opKind : NodeKind) (left : Nat) (op : Token) (right : Nat) :
    Pushing Nat := do
  let operator ← leaf opKind op
  let first ← spanOf left
  let last ← spanOf right
  node kind (first.through last) [left, operator, right]

structure Deeper where
  expression : Pushing Nat
  negand : Pushing Nat
  operand : Pushing Nat
  moreDisjuncts : Nat → Pushing Nat
  moreConjuncts : Nat → Pushing Nat
  moreTerms : Nat → Pushing Nat
  moreFactors : Nat → Pushing Nat

/-! ## The levels of an expression -/

def arguments (expression : Pushing Nat) : Nat → Pushing (List Nat)
  | 0 => fail .endOfTokens ⟨0, 0⟩
  | rounds + 1 => do
      let argument ← expression
      let token ← advance
      match token.kind with
      | .comma => do
          let comma ← leaf .comma token
          let rest ← arguments expression rounds
          return argument :: comma :: rest
      | .rparen => return [argument, ← leaf .rparen token]
      | other => fail (.argumentEnd other) token.span

def argumentList (deeper : Deeper) : Pushing Nat := do
  let opening ← expect .lparen
  let first ← leaf .lparen opening
  let items ←
    if ← at? (· = .rparen) then do
      let closing ← advance
      pure [← leaf .rparen closing]
    else do
      let tokens ← (get : Parser (List Token))
      arguments deeper.expression (tokens.length + 1)
  let last ← spanOf (items.getLast?.getD first)
  node .arguments (opening.span.through last) (first :: items)

def primary (deeper : Deeper) : Pushing Nat := do
  let token ← advance
  match token.kind with
  | .int _ => leaf .number token
  | .kwTrue | .kwFalse => leaf .boolean token
  | .ident _ =>
      let name ← leaf .name token
      if ← at? (· = .lparen) then
        let args ← argumentList deeper
        node .application (token.span.through (← spanOf args)) [name, args]
      else return name
  | .lparen =>
      if ← at? (· = .rparen) then
        let closing ← advance
        fail .emptyParens (token.span.through closing.span)
      else
        let opening ← leaf .lparen token
        let inner ← deeper.expression
        let token' ← expect .rparen
        let closing ← leaf .rparen token'
        let kind :=
          if (← kindOf inner).isFormula then NodeKind.formulaParens
          else .arithParens
        node kind (token.span.through token'.span) [opening, inner, closing]
  | other => fail (.notAnExpression other) token.span

def unary (deeper : Deeper) : Pushing Nat := do
  if ← at? TokenKind.isSum then
    let token ← advance
    let sign ← leaf .arithOp token
    let operand ← deeper.operand
    node .signed (token.span.through (← spanOf operand)) [sign, operand]
  else primary deeper

def factorChain (deeper : Deeper) (left : Nat) : Pushing Nat := do
  if ← at? TokenKind.isProduct then deeper.moreFactors left else return left

def product (deeper : Deeper) : Pushing Nat := do
  factorChain deeper (← unary deeper)

def termChain (deeper : Deeper) (left : Nat) : Pushing Nat := do
  if ← at? TokenKind.isSum then deeper.moreTerms left else return left

def sum (deeper : Deeper) : Pushing Nat := do
  termChain deeper (← product deeper)

def comparison (deeper : Deeper) : Pushing Nat := do
  let left ← sum deeper
  if ← at? TokenKind.isComparison then
    let op ← advance
    let right ← sum deeper
    let compared ← binary .comparison .compareOp left op right
    if ← at? TokenKind.isComparison then
      fail .chainedComparison (← peekSpan)
    else return compared
  else return left

def negation (deeper : Deeper) : Pushing Nat := do
  if ← at? (· = .bang) then
    let token ← advance
    let bang ← leaf .bang token
    let negand ← deeper.negand
    node .negation (token.span.through (← spanOf negand)) [bang, negand]
  else comparison deeper

def conjunctChain (deeper : Deeper) (left : Nat) : Pushing Nat := do
  if ← at? (· = .and) then deeper.moreConjuncts left else return left

def conjunction (deeper : Deeper) : Pushing Nat := do
  conjunctChain deeper (← negation deeper)

def disjunctChain (deeper : Deeper) (left : Nat) : Pushing Nat := do
  if ← at? (· = .or) then deeper.moreDisjuncts left else return left

def disjunction (deeper : Deeper) : Pushing Nat := do
  disjunctChain deeper (← conjunction deeper)

def implication (deeper : Deeper) : Pushing Nat := do
  let left ← disjunction deeper
  if ← at? (· = .implies) then
    let op ← advance
    let right ← deeper.expression
    binary .implication .logicOp left op right
  else return left

/-! ## Room to nest -/

def Deeper.none : Deeper where
  expression := do fail .tooDeep (← peekSpan)
  negand := do fail .tooDeep (← peekSpan)
  operand := do fail .tooDeep (← peekSpan)
  moreDisjuncts _ := do fail .tooDeep (← peekSpan)
  moreConjuncts _ := do fail .tooDeep (← peekSpan)
  moreTerms _ := do fail .tooDeep (← peekSpan)
  moreFactors _ := do fail .tooDeep (← peekSpan)

def link (kind opKind : NodeKind) (operand : Pushing Nat)
    (chain : Nat → Pushing Nat) (left : Nat) : Pushing Nat := do
  let op ← advance
  let right ← operand
  chain (← binary kind opKind left op right)

def Deeper.level (deeper : Deeper) : Deeper where
  expression := implication deeper
  negand := negation deeper
  operand := unary deeper
  moreDisjuncts :=
    link .disjunction .logicOp (conjunction deeper) (disjunctChain deeper)
  moreConjuncts :=
    link .conjunction .logicOp (negation deeper) (conjunctChain deeper)
  moreTerms := link .operation .arithOp (product deeper) (termChain deeper)
  moreFactors := link .operation .arithOp (unary deeper) (factorChain deeper)

def Deeper.ofRoom : Nat → Deeper
  | 0 => .none
  | room + 1 => (ofRoom room).level

/-! ## Declarations -/

def moreFormulas : Nat → Pushing (List Nat)
  | 0 => do
      if ← at? (· = .comma) then
        let _ ← advance
        fail .tooDeep (← peekSpan)
      else return []
  | room + 1 => do
      if ← at? (· = .comma) then
        let _ ← advance
        let formula ← (Deeper.ofRoom room).expression
        return formula :: (← moreFormulas room)
      else return []

def assertion : Pushing Nat := do
  let opening ← expect .lbrace
  if ← at? (· = .rbrace) then
    let closing ← advance
    fail .emptyAssertion (opening.span.through closing.span)
  else
    let first ← (Deeper.ofRoom maxNesting).expression
    let rest ← moreFormulas maxNesting
    let closing ← expect .rbrace
    node .assertion (opening.span.through closing.span) (first :: rest)

def statement : Pushing Nat := do
  let token ← advance
  match token.kind with
  | .kwSkip =>
      let semi ← expect .semi
      node .skip (token.span.through semi.span) []
  | .ident _ =>
      let name ← leaf .name token
      let assign ← expect .assign
      let op ← leaf .assignOp assign
      let value ← (Deeper.ofRoom maxNesting).expression
      let semi ← expect .semi
      node .assignment (token.span.through semi.span) [name, op, value]
  | other => fail (.notACommand other) token.span

def statements : Nat → Pushing (List Nat)
  | 0 => fail .endOfTokens ⟨0, 0⟩
  | rounds + 1 => do
      if ← at? (· = .eof) then return []
      else
        let first ← statement
        return first :: (← statements rounds)

def command : Pushing Nat := do
  let tokens ← (get : Parser (List Token))
  match ← statements (tokens.length + 1) with
  | [] => fail .nothing (← peekSpan)
  | first :: rest =>
      let start ← spanOf first
      let stop ← spanOf (rest.getLast?.getD first)
      node .command (start.through stop) (first :: rest)

def declaration : Pushing Unit := do
  let body ← if ← at? (· = .lbrace) then assertion else command
  if ← at? (· = .eof) then
    let root ← node .declaration (← spanOf body) [body]
    modify fun arena => arena.setRoot root
  else
    let token ← advance
    fail (.trailing token.kind) token.span

end Pushing

def Pushing.ofTokens (tokens : List Token) : Except SyntaxError SyntaxTree :=
  ((Pushing.declaration.run {}).run tokens).map fun result => result.1.2

end ProofOutline
