import ProofOutline.Tree.Parser

/-!
# The grammar of declarations

A derivation is a declaration taken apart down to its tokens.  The strata of
expressions are, loosest first: implications, disjunctions, conjunctions,
negations, comparisons, sums, products, unary expressions and primaries.  A
derivation has a yield, which is the list of its tokens, a tree and a cost,
which is the room for nesting that it takes.
-/

namespace ProofOutline

/-! ## Expressions -/

mutual

/-- An expression down to its tokens. -/
inductive Phrase where
  | atom (token : Token)
  | prefixed (op : Token) (body : Phrase)
  | infixed (left : Phrase) (op : Token) (right : Phrase)
  | bracketed (opening : Token) (inner : Phrase) (closing : Token)
  | emptyCall (name opening closing : Token)
  | call (name opening : Token) (args : Arguments)

inductive Arguments where
  | last (arg : Phrase) (closing : Token)
  | more (arg : Phrase) (comma : Token) (rest : Arguments)

end

inductive Stratum where
  | implication
  | disjunction
  | conjunction
  | negation
  | comparison
  | sum
  | product
  | unary
  | primary
  deriving DecidableEq, Repr

mutual

/-- The productions: what each stratum derives. -/
inductive Derives : Stratum → Phrase → Prop
  | implies {left right : Phrase} {op : Token} :
      Derives .disjunction left → op.kind = .implies →
      Derives .implication right →
      Derives .implication (.infixed left op right)
  | disjunction {phrase : Phrase} :
      Derives .disjunction phrase → Derives .implication phrase
  | or {left right : Phrase} {op : Token} :
      Derives .disjunction left → op.kind = .or →
      Derives .conjunction right →
      Derives .disjunction (.infixed left op right)
  | conjunction {phrase : Phrase} :
      Derives .conjunction phrase → Derives .disjunction phrase
  | and {left right : Phrase} {op : Token} :
      Derives .conjunction left → op.kind = .and → Derives .negation right →
      Derives .conjunction (.infixed left op right)
  | negation {phrase : Phrase} :
      Derives .negation phrase → Derives .conjunction phrase
  | not {op : Token} {body : Phrase} :
      op.kind = .bang → Derives .negation body →
      Derives .negation (.prefixed op body)
  | comparison {phrase : Phrase} :
      Derives .comparison phrase → Derives .negation phrase
  | compare {left right : Phrase} {op : Token} :
      Derives .sum left → op.kind.isComparison = true → Derives .sum right →
      Derives .comparison (.infixed left op right)
  | sum {phrase : Phrase} : Derives .sum phrase → Derives .comparison phrase
  | add {left right : Phrase} {op : Token} :
      Derives .sum left → op.kind.isSum = true → Derives .product right →
      Derives .sum (.infixed left op right)
  | product {phrase : Phrase} : Derives .product phrase → Derives .sum phrase
  | multiply {left right : Phrase} {op : Token} :
      Derives .product left → op.kind.isProduct = true →
      Derives .unary right → Derives .product (.infixed left op right)
  | unary {phrase : Phrase} : Derives .unary phrase → Derives .product phrase
  | sign {op : Token} {body : Phrase} :
      op.kind.isSum = true → Derives .unary body →
      Derives .unary (.prefixed op body)
  | primary {phrase : Phrase} :
      Derives .primary phrase → Derives .unary phrase
  | number {token : Token} {digits : String} :
      token.kind = .int digits → Derives .primary (.atom token)
  | truth {token : Token} :
      token.kind = .kwTrue ∨ token.kind = .kwFalse →
      Derives .primary (.atom token)
  | name {token : Token} {text : String} :
      token.kind = .ident text → Derives .primary (.atom token)
  | bracketed {opening closing : Token} {inner : Phrase} :
      opening.kind = .lparen → Derives .implication inner →
      closing.kind = .rparen →
      Derives .primary (.bracketed opening inner closing)
  | emptyCall {name opening closing : Token} {text : String} :
      name.kind = .ident text → opening.kind = .lparen →
      closing.kind = .rparen →
      Derives .primary (.emptyCall name opening closing)
  | call {name opening : Token} {text : String} {args : Arguments} :
      name.kind = .ident text → opening.kind = .lparen →
      DerivesArguments args → Derives .primary (.call name opening args)

inductive DerivesArguments : Arguments → Prop
  | last {arg : Phrase} {closing : Token} :
      Derives .implication arg → closing.kind = .rparen →
      DerivesArguments (.last arg closing)
  | more {arg : Phrase} {comma : Token} {rest : Arguments} :
      Derives .implication arg → comma.kind = .comma →
      DerivesArguments rest → DerivesArguments (.more arg comma rest)

end

/-! ## Yields -/

mutual

def Phrase.yield : Phrase → List Token
  | .atom token => [token]
  | .prefixed op body => op :: body.yield
  | .infixed left op right => left.yield ++ op :: right.yield
  | .bracketed opening inner closing => opening :: inner.yield ++ [closing]
  | .emptyCall name opening closing => [name, opening, closing]
  | .call name opening args => name :: opening :: args.yield

def Arguments.yield : Arguments → List Token
  | .last arg closing => arg.yield ++ [closing]
  | .more arg comma rest => arg.yield ++ comma :: rest.yield

end

@[simp] theorem Phrase.yield_ne_nil (phrase : Phrase) : phrase.yield ≠ [] := by
  cases phrase <;> simp [yield]

section ForAllTokens

variable {holds : Token → Prop} {left right inner arg : Phrase}
  {op opening closing name comma : Token} {args : Arguments}

@[simp] theorem Phrase.forall_yield_prefixed :
    (∀ token ∈ (Phrase.prefixed op inner).yield, holds token) ↔
      holds op ∧ ∀ token ∈ inner.yield, holds token := by
  rw [Phrase.yield, List.forall_mem_cons]

@[simp] theorem Phrase.forall_yield_infixed :
    (∀ token ∈ (Phrase.infixed left op right).yield, holds token) ↔
      (∀ token ∈ left.yield, holds token) ∧ holds op ∧
        ∀ token ∈ right.yield, holds token := by
  rw [Phrase.yield, List.forall_mem_append, List.forall_mem_cons]

@[simp] theorem Phrase.forall_yield_bracketed :
    (∀ token ∈ (Phrase.bracketed opening inner closing).yield,
      holds token) ↔
      holds opening ∧ (∀ token ∈ inner.yield, holds token) ∧
        holds closing := by
  simp [Phrase.yield, or_imp, forall_and]

@[simp] theorem Phrase.forall_yield_call :
    (∀ token ∈ (Phrase.call name opening args).yield, holds token) ↔
      holds name ∧ holds opening ∧ ∀ token ∈ args.yield, holds token := by
  rw [Phrase.yield, List.forall_mem_cons, List.forall_mem_cons]

@[simp] theorem Arguments.forall_yield_last :
    (∀ token ∈ (Arguments.last arg closing).yield, holds token) ↔
      (∀ token ∈ arg.yield, holds token) ∧ holds closing := by
  rw [Arguments.yield, List.forall_mem_append, List.forall_mem_singleton]

@[simp] theorem Arguments.forall_yield_more :
    (∀ token ∈ (Arguments.more arg comma args).yield, holds token) ↔
      (∀ token ∈ arg.yield, holds token) ∧ holds comma ∧
        ∀ token ∈ args.yield, holds token := by
  rw [Arguments.yield, List.forall_mem_append, List.forall_mem_cons]

end ForAllTokens

def Arguments.closing : Arguments → Token
  | .last _ closing => closing
  | .more _ _ rest => rest.closing

def Arguments.count : Arguments → Nat
  | .last _ _ => 1
  | .more _ _ rest => rest.count + 1

/-! ## Trees -/

namespace TokenKind

def leafKind : TokenKind → NodeKind
  | int _ => .number
  | kwTrue | kwFalse => .boolean
  | ident _ => .name
  | lparen => .lparen
  | rparen => .rparen
  | comma => .comma
  | assign => .assignOp
  | bang => .bang
  | and | or | implies => .logicOp
  | eq | ne | lt | le | gt | ge => .compareOp
  | _ => .arithOp

def infixKind : TokenKind → NodeKind
  | implies => .implication
  | or => .disjunction
  | and => .conjunction
  | eq | ne | lt | le | gt | ge => .comparison
  | _ => .operation

def prefixKind : TokenKind → NodeKind
  | bang => .negation
  | _ => .signed

end TokenKind

def Token.leaf (token : Token) : Tree := .leaf token.kind.leafKind token.span

mutual

def Phrase.tree : Phrase → Tree
  | .atom token => token.leaf
  | .prefixed op body =>
      .node op.kind.prefixKind (op.span.through body.tree.span)
        [op.leaf, body.tree]
  | .infixed left op right =>
      .node op.kind.infixKind (left.tree.span.through right.tree.span)
        [left.tree, op.leaf, right.tree]
  | .bracketed opening inner closing =>
      .node
        (if inner.tree.kind.isFormula then .formulaParens else .arithParens)
        (opening.span.through closing.span)
        [opening.leaf, inner.tree, closing.leaf]
  | .emptyCall name opening closing =>
      .node .application (name.span.through closing.span)
        [name.leaf,
          .node .arguments (opening.span.through closing.span)
            [opening.leaf, closing.leaf]]
  | .call name opening args =>
      .node .application (name.span.through args.closing.span)
        [name.leaf,
          .node .arguments (opening.span.through args.closing.span)
            (opening.leaf :: args.items)]

def Arguments.items : Arguments → List Tree
  | .last arg closing => [arg.tree, closing.leaf]
  | .more arg comma rest => arg.tree :: comma.leaf :: rest.items

end

/-! ## Costs -/

/-- The stratum whose operands the operator chains, to the left. -/
def TokenKind.chain? : TokenKind → Option Stratum
  | or => some .disjunction
  | and => some .conjunction
  | plus | minus => some .sum
  | star | slash | percent => some .product
  | _ => none

def Phrase.links (stratum : Stratum) : Phrase → Nat
  | .infixed left op _ =>
      if op.kind.chain? = some stratum then left.links stratum + 1 else 0
  | _ => 0

mutual

/--
The room that a phrase takes.  Whatever stands in brackets, behind a prefix
operator or to the right of `=>` takes one level, and an operand in a chain as
many as there are operators of the chain before it.
-/
def Phrase.cost : Phrase → Nat
  | .atom _ => 0
  | .prefixed _ body => body.cost + 1
  | .infixed left op right =>
      match op.kind.chain? with
      | some stratum => max left.cost (left.links stratum + 1 + right.cost)
      | none =>
          if op.kind = .implies then max left.cost (right.cost + 1)
          else max left.cost right.cost
  | .bracketed _ inner _ => inner.cost + 1
  | .emptyCall _ _ _ => 0
  | .call _ _ args => args.cost + 1

def Arguments.cost : Arguments → Nat
  | .last arg _ => arg.cost
  | .more arg _ rest => max arg.cost rest.cost

end

/-! ## Trees and costs by operator -/

theorem Parser.leaf_eq (token : Token) {kind : NodeKind}
    (h : token.kind.leafKind = kind) :
    Parser.leaf kind token = token.leaf := by
  subst h
  rfl

@[simp] theorem Arguments.getLast?_items (args : Arguments) (first : Tree) :
    (first :: args.items).getLast? = some args.closing.leaf := by
  cases args with
  | last arg closing => rfl
  | more arg comma rest =>
      have ih := rest.getLast?_items comma.leaf
      simpa [Arguments.items, Arguments.closing] using ih

namespace TokenKind

theorem leafKind_of_isSum {kind : TokenKind} (h : kind.isSum = true) :
    kind.leafKind = .arithOp := by
  cases kind <;> cases h <;> rfl

theorem prefixKind_of_isSum {kind : TokenKind} (h : kind.isSum = true) :
    kind.prefixKind = .signed := by
  cases kind <;> cases h <;> rfl

end TokenKind

namespace Phrase

variable {left right : Phrase} {op : Token}

theorem tree_comparison (h : op.kind.isComparison = true) :
    (infixed left op right).tree =
      Parser.binary .comparison .compareOp left.tree op right.tree := by
  obtain ⟨kind, span⟩ := op
  cases kind <;> cases h <;> rfl

theorem cost_comparison (h : op.kind.isComparison = true) :
    (infixed left op right).cost = max left.cost right.cost := by
  obtain ⟨kind, span⟩ := op
  cases kind <;> cases h <;> rfl

theorem tree_implication (h : op.kind = .implies) :
    (infixed left op right).tree =
      Parser.binary .implication .logicOp left.tree op right.tree := by
  obtain ⟨kind, span⟩ := op
  cases h
  rfl

theorem cost_implication (h : op.kind = .implies) :
    (infixed left op right).cost = max left.cost (right.cost + 1) := by
  obtain ⟨kind, span⟩ := op
  cases h
  rfl

end Phrase

/-! ## Declarations -/

inductive Statement where
  | skip (token semi : Token)
  | assign (name op : Token) (value : Phrase) (semi : Token)

namespace Statement

inductive Derived : Statement → Prop
  | skip {token semi : Token} :
      token.kind = .kwSkip → semi.kind = .semi → Derived (.skip token semi)
  | assign {name op semi : Token} {text : String} {value : Phrase} :
      name.kind = .ident text → op.kind = .assign →
      Derives .implication value → semi.kind = .semi →
      Derived (.assign name op value semi)

def yield : Statement → List Token
  | skip token semi => [token, semi]
  | assign name op value semi => name :: op :: value.yield ++ [semi]

@[simp] theorem yield_ne_nil (statement : Statement) : statement.yield ≠
    [] := by
  cases statement <;> simp [yield]

def tree : Statement → Tree
  | skip token semi => .leaf .skip (token.span.through semi.span)
  | assign name op value semi =>
      .node .assignment (name.span.through semi.span)
        [name.leaf, op.leaf, value.tree]

def cost : Statement → Nat
  | skip _ _ => 0
  | assign _ _ value _ => value.cost + 1

end Statement

structure FurtherFormula where
  comma : Token
  formula : Phrase

namespace FurtherFormula

structure Derived (further : FurtherFormula) : Prop where
  comma : further.comma.kind = .comma
  formula : Derives .implication further.formula

def yield (further : FurtherFormula) : List Token :=
  further.comma :: further.formula.yield

/-- Each comma takes one level for all the formulas behind it. -/
def costs : List FurtherFormula → Nat
  | [] => 0
  | further :: rest => max (further.formula.cost + 1) (costs rest) + 1

end FurtherFormula

inductive Sentence where
  | assertion (opening : Token) (first : Phrase)
      (rest : List FurtherFormula) (closing : Token)
  | command (first : Statement) (rest : List Statement)

namespace Sentence

inductive Derived : Sentence → Prop
  | assertion {opening closing : Token} {first : Phrase}
      {rest : List FurtherFormula} :
      opening.kind = .lbrace → Derives .implication first →
      (∀ further ∈ rest, further.Derived) → closing.kind = .rbrace →
      Derived (.assertion opening first rest closing)
  | command {first : Statement} {rest : List Statement} :
      first.Derived → (∀ statement ∈ rest, statement.Derived) →
      Derived (.command first rest)

def yield : Sentence → List Token
  | assertion opening first rest closing =>
      opening :: first.yield ++ rest.flatMap FurtherFormula.yield ++ [closing]
  | command first rest => (first :: rest).flatMap Statement.yield

def body : Sentence → Tree
  | assertion opening first rest closing =>
      .node .assertion (opening.span.through closing.span)
        (first.tree :: rest.map (·.formula.tree))
  | command first rest =>
      .node .command
        (first.tree.span.through
          ((rest.getLast?.map (·.tree.span)).getD first.tree.span))
        (first.tree :: rest.map Statement.tree)

def tree (sentence : Sentence) : Tree :=
  .node .declaration sentence.body.span [sentence.body]

def cost : Sentence → Nat
  | assertion _ first rest _ =>
      max (first.cost + 1) (FurtherFormula.costs rest)
  | command first rest => ((first :: rest).map Statement.cost).foldr max 0

end Sentence

end ProofOutline
