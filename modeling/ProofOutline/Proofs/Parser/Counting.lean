import ProofOutline.Proofs.Parser.Chain

/-!
# Parsing with a counter

The parsers take the room that is left as a parameter.  Here they are written
with a counter instead: a place among the tokens, and a depth that goes up when
a level is entered and down when it is left.  A chain of operators enters a
level at each link and leaves all of them at its end.

Nothing limits the recursion and the loops beforehand.  They are least fixed
points, and a run that does not end has no answer, `none`.  To leave more levels
than were entered is a fault of its own.  The last section relates such runs to
the parsers.
-/

namespace ProofOutline

structure Counter where
  index : Nat
  depth : Nat
  /-- The greatest depth so far. -/
  peak : Nat
  deriving DecidableEq, Repr

def Counter.atDepth (counter : Counter) (depth : Nat) : Counter :=
  { counter with depth, peak := max counter.peak depth }

/-- Why a run has ended without a result. -/
inductive Halt where
  | refused (error : SyntaxError)
  | belowZero
  deriving DecidableEq, Repr

abbrev Counting := ExceptT Halt (StateT Counter Option)

namespace Counting

open ProofOutline.Parser (leaf binary)

def refuse {α : Type} (cause : SyntaxCause) (span : Span) : Counting α :=
  throw (.refused ⟨cause, span⟩)

def leave (levels : Nat) : Counting Unit := do
  let counter ← get
  if levels ≤ counter.depth then set (counter.atDepth (counter.depth - levels))
  else throw .belowZero

section Primitives

variable (tokens : List Token)

def peek : Counting (Option Token) := do
  return tokens[(← get).index]?

def peekSpan : Counting Span := do
  return ((← peek tokens).map Token.span).getD ⟨0, 0⟩

def at? (isWanted : TokenKind → Bool) : Counting Bool := do
  return ((← peek tokens).map fun token => isWanted token.kind).getD false

def advance : Counting Token := do
  match ← peek tokens with
  | some token =>
      modify fun counter => { counter with index := counter.index + 1 }
      return token
  | none => refuse .endOfTokens ⟨0, 0⟩

def expect (kind : TokenKind) : Counting Token := do
  let token ← advance tokens
  if token.kind = kind then return token
  else refuse (.mismatch kind token.kind) token.span

def enter : Counting Unit := do
  let counter ← get
  if counter.depth < maxNesting then set (counter.atDepth (counter.depth + 1))
  else refuse .tooDeep (← peekSpan tokens)

end Primitives

/-! ## Expressions -/

/-- The procedures of the grammar belong to the tokens that they read. -/
abbrev Tokens := List Token

namespace Tokens

mutual

def nested (tokens : Tokens) (stratum : Stratum) : Counting Tree := do
  enter tokens
  let tree ← tokens |>.level stratum
  leave 1
  return tree
partial_fixpoint

def level (tokens : Tokens) (stratum : Stratum) : Counting Tree := do
  match stratum with
  | .implication =>
      let left ← tokens |>.level .disjunction
      if ← at? tokens (· = .implies) then
        let op ← advance tokens
        let right ← tokens |>.nested .implication
        return binary .implication .logicOp left op right
      else return left
  | .disjunction =>
      let first ← tokens |>.level .conjunction
      tokens |>.links .disjuncts first 0
  | .conjunction =>
      let first ← tokens |>.level .negation
      tokens |>.links .conjuncts first 0
  | .negation =>
      if ← at? tokens (· = .bang) then
        let bang ← advance tokens
        let negand ← tokens |>.nested .negation
        return .node .negation (bang.span.through negand.span)
          [leaf .bang bang, negand]
      else tokens |>.level .comparison
  | .comparison =>
      let left ← tokens |>.level .sum
      if ← at? tokens TokenKind.isComparison then
        let op ← advance tokens
        let right ← tokens |>.level .sum
        if ← at? tokens TokenKind.isComparison then
          refuse .chainedComparison (← peekSpan tokens)
        else return binary .comparison .compareOp left op right
      else return left
  | .sum =>
      let first ← tokens |>.level .product
      tokens |>.links .terms first 0
  | .product =>
      let first ← tokens |>.level .unary
      tokens |>.links .factors first 0
  | .unary =>
      if ← at? tokens TokenKind.isSum then
        let sign ← advance tokens
        let operand ← tokens |>.nested .unary
        return .node .signed (sign.span.through operand.span)
          [leaf .arithOp sign, operand]
      else tokens |>.level .primary
  | .primary => tokens |>.primary
partial_fixpoint

/-- The links of a chain after the first `count`, then all levels back up. -/
def links (tokens : Tokens) (chain : Chain) (left : Tree) (count : Nat) :
    Counting Tree := do
  if ← at? tokens chain.isLink then
    tokens |>.link chain left count
  else
    leave count
    return left
partial_fixpoint

def link (tokens : Tokens) (chain : Chain) (left : Tree) (count : Nat) :
    Counting Tree := do
  enter tokens
  let op ← advance tokens
  let right ← tokens |>.level chain.operand
  tokens |>.links chain (binary chain.kind chain.opKind left op right)
    (count + 1)
partial_fixpoint

def primary (tokens : Tokens) : Counting Tree := do
  let token ← advance tokens
  match token.kind with
  | .int _ => return leaf .number token
  | .kwTrue | .kwFalse => return leaf .boolean token
  | .ident _ =>
      let name := leaf .name token
      if ← at? tokens (· = .lparen) then
        let args ← tokens |>.argumentList
        return .node .application (token.span.through args.span) [name, args]
      else return name
  | .lparen =>
      if ← at? tokens (· = .rparen) then
        let closing ← advance tokens
        refuse .emptyParens (token.span.through closing.span)
      else
        let inner ← tokens |>.nested .implication
        let closing ← expect tokens .rparen
        let kind :=
          if inner.kind.isFormula then NodeKind.formulaParens
          else .arithParens
        return .node kind (token.span.through closing.span)
          [leaf .lparen token, inner, leaf .rparen closing]
  | other => refuse (.notAnExpression other) token.span
partial_fixpoint

def argumentList (tokens : Tokens) : Counting Tree := do
  let opening ← expect tokens .lparen
  if ← at? tokens (· = .rparen) then
    let closing ← advance tokens
    return .node .arguments (opening.span.through closing.span)
      [leaf .lparen opening, leaf .rparen closing]
  else tokens |>.arguments opening [leaf .lparen opening]
partial_fixpoint

def arguments (tokens : Tokens) (opening : Token) (children : List Tree) :
    Counting Tree := do
  let argument ← tokens |>.nested .implication
  let token ← advance tokens
  match token.kind with
  | .comma =>
      tokens |>.arguments opening
        (children ++ [argument, leaf .comma token])
  | .rparen =>
      return .node .arguments (opening.span.through token.span)
        (children ++ [argument, leaf .rparen token])
  | other => refuse (.argumentEnd other) token.span
partial_fixpoint

end

/-! ## Declarations -/

def moreFormulas (tokens : Tokens) (found : List Tree) :
    Counting (List Tree) := do
  if ← at? tokens (· = .comma) then
    let _ ← advance tokens
    enter tokens
    let formula ← tokens |>.nested .implication
    tokens |>.moreFormulas (found ++ [formula])
  else
    leave (found.length - 1)
    return found
partial_fixpoint

def assertion (tokens : Tokens) : Counting Tree := do
  let opening ← expect tokens .lbrace
  if ← at? tokens (· = .rbrace) then
    let closing ← advance tokens
    refuse .emptyAssertion (opening.span.through closing.span)
  else
    let first ← tokens |>.nested .implication
    let formulas ← tokens |>.moreFormulas [first]
    let closing ← expect tokens .rbrace
    return .node .assertion (opening.span.through closing.span) formulas

def statement (tokens : Tokens) : Counting Tree := do
  let token ← advance tokens
  match token.kind with
  | .kwSkip =>
      let semi ← expect tokens .semi
      return .leaf .skip (token.span.through semi.span)
  | .ident _ =>
      let op ← expect tokens .assign
      let value ← tokens |>.nested .implication
      let semi ← expect tokens .semi
      return .node .assignment (token.span.through semi.span)
        [leaf .name token, leaf .assignOp op, value]
  | other => refuse (.notACommand other) token.span

def statements (tokens : Tokens) (found : List Tree) :
    Counting (List Tree) := do
  if ← at? tokens (· = .eof) then return found
  else
    let next ← tokens |>.statement
    tokens |>.statements (found ++ [next])
partial_fixpoint

def command (tokens : Tokens) : Counting Tree := do
  match ← tokens |>.statements [] with
  | [] => refuse .nothing (← peekSpan tokens)
  | first :: rest =>
      let last := (rest.getLast?.map Tree.span).getD first.span
      return .node .command (first.span.through last) (first :: rest)

def declaration (tokens : Tokens) : Counting Tree := do
  let body ←
    if ← at? tokens (· = .lbrace) then tokens |>.assertion
    else tokens |>.command
  if ← at? tokens (· = .eof) then
    return .node .declaration body.span [body]
  else
    let token ← advance tokens
    refuse (.trailing token.kind) token.span

end Tokens

/-! ## Runs beside those of a parser -/

structure Reaches (tokens : List Token) (start final : Counter) : Prop where
  forward : start.index ≤ final.index
  inside : final.index ≤ max start.index tokens.length
  shallow : final.peak ≤ max start.peak maxNesting

/--
The run ends with the parser's answer.  If it has a result, it has come to the
tokens that the parser leaves over, at the given depth.
-/
inductive Runs (tokens : List Token) (start : Counter) (exit : Nat)
    {α : Type} : Except SyntaxError (α × List Token) →
      Option (Except Halt α × Counter) → Prop
  | ok {value : α} {final : Counter} :
      Reaches tokens start final → final.depth = exit →
      Runs tokens start exit (.ok (value, tokens.drop final.index))
        (some (.ok value, final))
  | error {error : SyntaxError} {final : Counter} :
      Reaches tokens start final →
      Runs tokens start exit (.error error)
        (some (.error (.refused error), final))

def Follows (tokens : List Token) (start : Counter) (exit : Nat) {α : Type}
    (counting : Counting α) (parser : Parser α) : Prop :=
  Runs tokens start exit (parser (tokens.drop start.index)) (counting start)

def FollowsAt (tokens : List Token) (depth exit : Nat) {α : Type}
    (counting : Counting α) (parser : Parser α) : Prop :=
  ∀ ⦃start : Counter⦄, start.depth = depth →
    Follows tokens start exit counting parser

section Steps

variable {tokens : List Token} {start : Counter} {depth middle exit : Nat}
  {α β : Type}

theorem Reaches.refl (start : Counter) : Reaches tokens start start :=
  ⟨Nat.le_refl _, Nat.le_max_left _ _, Nat.le_max_left _ _⟩

theorem Reaches.trans {next final : Counter} (h : Reaches tokens start next)
    (h' : Reaches tokens next final) : Reaches tokens start final := by
  obtain ⟨forward, inside, shallow⟩ := h
  obtain ⟨forward', inside', shallow'⟩ := h'
  exact ⟨by omega, by omega, by omega⟩

theorem Runs.of_reaches {next : Counter}
    {result : Except SyntaxError (α × List Token)}
    {answer : Option (Except Halt α × Counter)}
    (h : Runs tokens next exit result answer)
    (reaches : Reaches tokens start next) :
    Runs tokens start exit result answer := by
  cases h with
  | ok onward isExit => exact .ok (reaches.trans onward) isExit
  | error onward => exact .error (reaches.trans onward)

theorem bind_ok {counting : Counting α} {value : α} {next : Counter}
    (ran : counting start = some (.ok value, next)) (k : α → Counting β) :
    (counting >>= k) start = k value next := by
  show Option.bind (counting start) _ = _
  rw [ran]
  rfl

private theorem bind_error {counting : Counting α} {halt : Halt}
    {next : Counter}
    (ran : counting start = some (.error halt, next)) (k : α → Counting β) :
    (counting >>= k) start = some (.error halt, next) := by
  show Option.bind (counting start) _ = _
  rw [ran]
  rfl

theorem Follows.bind {counting : Counting α} {parser : Parser α}
    {k : α → Counting β} {q : α → Parser β}
    (h : Follows tokens start middle counting parser)
    (after : ∀ value next, Reaches tokens start next →
      parser (tokens.drop start.index) =
          .ok (value, tokens.drop next.index) →
        next.depth = middle → Follows tokens next exit (k value) (q value)) :
    Follows tokens start exit (counting >>= k) (parser >>= q) := by
  unfold Follows at h ⊢
  generalize parsed : parser (tokens.drop start.index) = result at h
  generalize ran : counting start = answer at h
  cases h with
  | @ok value next reaches isMiddle =>
      rw [Parser.bind_apply, parsed, ok_bind, bind_ok ran]
      exact (after value next reaches parsed isMiddle).of_reaches reaches
  | error reaches =>
      rw [Parser.bind_apply, parsed, bind_error ran]
      exact .error reaches

theorem FollowsAt.bind {counting : Counting α} {parser : Parser α}
    {k : α → Counting β} {q : α → Parser β}
    (h : FollowsAt tokens depth middle counting parser)
    (after : ∀ value, FollowsAt tokens middle exit (k value) (q value)) :
    FollowsAt tokens depth exit (counting >>= k) (parser >>= q) :=
  fun _ isDepth => (h isDepth).bind fun value _ _ _ isMiddle =>
    after value isMiddle

theorem followsAt_pure (value : α) :
    FollowsAt tokens depth depth (pure value) (pure value) :=
  fun start isDepth => .ok (.refl start) isDepth

theorem followsAt_refuse (cause : SyntaxCause) (span : Span) :
    FollowsAt tokens depth exit (refuse cause span : Counting α)
      (Parser.fail cause span) :=
  fun start _ => .error (.refl start)

theorem followsAt_peekSpan :
    FollowsAt tokens depth depth (peekSpan tokens) Parser.peekSpan := by
  intro start isDepth
  have ran : peekSpan tokens start =
      some (.ok ((tokens[start.index]?.map Token.span).getD ⟨0, 0⟩), start) :=
    rfl
  unfold Follows
  rw [ran, ← List.head?_drop]
  exact .ok (.refl start) isDepth

theorem followsAt_advance :
    FollowsAt tokens depth depth (advance tokens) Parser.advance := by
  intro start isDepth
  have peeked : peek tokens start = some (.ok tokens[start.index]?, start) :=
    rfl
  unfold Follows advance
  rw [bind_ok peeked]
  cases here : tokens[start.index]? with
  | none =>
      rw [List.drop_eq_nil_of_le (List.getElem?_eq_none_iff.mp here)]
      exact .error (.refl start)
  | some token =>
      obtain ⟨inside, isToken⟩ := List.getElem?_eq_some_iff.mp here
      rw [List.drop_eq_getElem_cons inside, isToken]
      have reaches : Reaches tokens start
          { start with index := start.index + 1 } :=
        ⟨Nat.le_succ _, Nat.le_trans inside (Nat.le_max_right _ _),
          Nat.le_max_left _ _⟩
      exact .ok reaches isDepth

theorem follows_ite {isWanted : TokenKind → Bool} {yes no : Counting α}
    {yes' no' : Parser α}
    (taken : Parser.startsWith isWanted (tokens.drop start.index) = true →
      Follows tokens start exit yes yes')
    (otherwise : Follows tokens start exit no no') :
    Follows tokens start exit
      (at? tokens isWanted >>= fun wanted => if wanted = true then yes else no)
      (Parser.at? isWanted >>= fun wanted =>
        if wanted = true then yes' else no') := by
  have looked : at? tokens isWanted start = some
      (.ok (Parser.startsWith isWanted (tokens.drop start.index)), start) := by
    rw [Parser.startsWith, List.head?_drop]
    rfl
  unfold Follows
  rw [Parser.at?_bind, bind_ok looked]
  cases starts : Parser.startsWith isWanted (tokens.drop start.index) with
  | true => exact taken starts
  | false => exact otherwise

theorem FollowsAt.ite {isWanted : TokenKind → Bool} {yes no : Counting α}
    {yes' no' : Parser α} (taken : FollowsAt tokens depth exit yes yes')
    (otherwise : FollowsAt tokens depth exit no no') :
    FollowsAt tokens depth exit
      (at? tokens isWanted >>= fun wanted => if wanted = true then yes else no)
      (Parser.at? isWanted >>= fun wanted =>
        if wanted = true then yes' else no') :=
  fun _ isDepth => follows_ite (fun _ => taken isDepth) (otherwise isDepth)

theorem followsAt_expect (kind : TokenKind) :
    FollowsAt tokens depth depth (expect tokens kind) (Parser.expect kind) := by
  refine followsAt_advance.bind fun token => ?_
  split
  · exact followsAt_pure token
  · exact followsAt_refuse _ _

/-! ## Levels -/

private theorem reaches_atDepth (bounded : depth ≤ maxNesting)
    (start : Counter) :
    Reaches tokens start (start.atDepth depth) := by
  refine ⟨Nat.le_refl _, Nat.le_max_left _ _, ?_⟩
  show max start.peak depth ≤ max start.peak maxNesting
  omega

theorem Follows.enter {k : Unit → Counting α} {parser : Parser α}
    (room : start.depth < maxNesting)
    (h : ∀ next : Counter, next.index = start.index →
      next.depth = start.depth + 1 → Follows tokens next exit (k ()) parser) :
    Follows tokens start exit (enter tokens >>= k) parser := by
  have entered : Counting.enter tokens start =
      some (.ok (), start.atDepth (start.depth + 1)) := by
    show (if start.depth < maxNesting then _ else _ : Counting Unit) start = _
    rw [if_pos room]
    rfl
  unfold Follows
  rw [bind_ok entered]
  exact (h (start.atDepth _) rfl rfl).of_reaches (reaches_atDepth room start)

theorem followsAt_tooDeep {k : Unit → Counting α} :
    FollowsAt tokens maxNesting exit (Counting.enter tokens >>= k)
      Parser.tooDeep := by
  intro start isDepth
  have refused : Counting.enter tokens start = some (.error (.refused
      ⟨.tooDeep, ((tokens.drop start.index).head?.map Token.span).getD ⟨0, 0⟩⟩),
      start) := by
    show (if start.depth < maxNesting then _ else _ : Counting Unit) start = _
    rw [if_neg (by omega), List.head?_drop]
    rfl
  unfold Follows
  rw [bind_error refused]
  exact .error (.refl start)

theorem FollowsAt.leave {levels : Nat} {k : Unit → Counting α}
    {parser : Parser α} (bounded : depth ≤ maxNesting)
    (entered : levels ≤ depth)
    (h : FollowsAt tokens (depth - levels) exit (k ()) parser) :
    FollowsAt tokens depth exit (leave levels >>= k) parser := by
  rintro start rfl
  have left : Counting.leave levels start =
      some (.ok (), start.atDepth (start.depth - levels)) := by
    show (if levels ≤ start.depth then _ else _ : Counting Unit) start = _
    rw [if_pos entered]
    rfl
  unfold Follows
  rw [bind_ok left]
  have below : start.depth - levels ≤ maxNesting :=
    Nat.le_trans (Nat.sub_le _ _) bounded
  exact (@h (start.atDepth _) rfl).of_reaches (reaches_atDepth below start)

end Steps

end Counting

end ProofOutline
