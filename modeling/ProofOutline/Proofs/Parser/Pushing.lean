import ProofOutline.Proofs.Arena
import ProofOutline.Tree.Pushing

/-!
# The pushing parser adds the parsed tree

The parser that fills an arena finds the same trees as the parser that builds
them, fails where that one fails, and leaves in the arena what adding the tree
at the end would leave there.
-/

namespace ProofOutline

namespace SyntaxTree

theorem Shows.kind {arena : SyntaxTree} {id : Nat} {tree : Tree}
    (h : arena.Shows id tree) : arena.kind id = tree.kind := by
  obtain ⟨kind, span, children⟩ := tree
  obtain ⟨node, found, isKind, -⟩ := h
  simp [SyntaxTree.kind, found, isKind, Tree.kind]

theorem Shows.span {arena : SyntaxTree} {id : Nat} {tree : Tree}
    (h : arena.Shows id tree) : arena.span id = tree.span := by
  obtain ⟨kind, span, children⟩ := tree
  obtain ⟨node, found, -, isSpan, -⟩ := h
  simp [SyntaxTree.span, found, isSpan, Tree.span]

theorem ShowsAll.last {arena : SyntaxTree} {id : Nat} {ids : List Nat}
    {tree : Tree} {trees : List Tree} (first : arena.Shows id tree)
    (h : arena.ShowsAll ids trees) :
    arena.Shows (ids.getLast?.getD id) (trees.getLast?.getD tree) := by
  induction trees generalizing id ids tree with
  | nil =>
      cases h
      exact first
  | cons next trees ih =>
      obtain ⟨here, others, rfl, shown, rest⟩ := h
      simpa [List.getLast?_cons] using ih shown rest

end SyntaxTree

namespace Tree

theorem shows_push (tree : Tree) (arena : SyntaxTree) :
    (tree.push arena).2.Shows (tree.push arena).1 tree :=
  (SyntaxTree.showsAll_cons.mp (tree.planted_push arena).shown).1

theorem keeps_push (tree : Tree) (arena : SyntaxTree) :
    arena.Keeps (tree.push arena).2 :=
  (tree.planted_push arena).grown.keeps

theorem push_inOrder {kind : NodeKind} (notOperator : kind.operator? = none)
    (span : Span) (children : List Tree) (arena : SyntaxTree) :
    (node kind span children).push arena =
      (pushAll children arena).2.push kind span (pushAll children arena).1 := by
  rcases children with _ | ⟨left, _ | ⟨middle, _ | ⟨right, _ | ⟨next, rest⟩⟩⟩⟩
  case cons.cons.cons.nil =>
    rw [push, notOperator]
    rfl
  all_goals rfl

private theorem push_binary {kind : NodeKind}
    (isOperator : kind.operator?.isSome)
    (opKind : NodeKind) (left : Tree) (op : Token) (right : Tree)
    (arena : SyntaxTree) :
    (Parser.binary kind opKind left op right).push arena =
      let first := left.push arena
      let last := right.push first.2
      let operator := (Parser.leaf opKind op).push last.2
      operator.2.push kind (left.span.through right.span)
        [first.1, operator.1, last.1] := by
  rw [Parser.binary, push, if_pos isOperator]

end Tree

namespace Pushing

open ProofOutline.Parser

variable {α β γ δ : Type}

/-- In this arena the one parser does as the other, and adds what that finds. -/
def Adds (pushing : Pushing α) (arena : SyntaxTree) (parser : Parser β)
    (added : β → α × SyntaxTree) : Prop :=
  pushing arena = added <$> parser

section Adds

variable {arena : SyntaxTree} {parser : Parser β} {added : β → α × SyntaxTree}

theorem Adds.bind {first : Pushing γ} {found : Parser δ}
    {between : δ → γ × SyntaxTree} {next : γ → Pushing α}
    {rest : δ → Parser β} (h : Adds first arena found between)
    (further : ∀ value, Adds (next (between value).1) (between value).2
      (rest value) added) :
    Adds (first >>= next) arena (found >>= rest) added := by
  have split : (first >>= next) arena =
      first arena >>= fun result => next result.1 result.2 := rfl
  rw [Adds, split, show first arena = _ from h, map_eq_pure_bind, bind_assoc,
    map_bind]
  refine bind_congr fun value => ?_
  rw [pure_bind]
  exact further value

theorem adds_lift (parser : Parser α) (arena : SyntaxTree) :
    Adds (liftM parser) arena parser fun value => (value, arena) := by
  rw [Adds, map_eq_pure_bind]
  rfl

theorem adds_fail (cause : SyntaxCause) (span : Span) :
    Adds (liftM (fail cause span : Parser α)) arena (fail cause span)
      added := rfl

theorem adds_pure {value : α} {result : β}
    (h : added result = (value, arena)) :
    Adds (pure value) arena (pure result) added := by
  rw [Adds, map_pure, h]
  rfl

theorem adds_node {kind : NodeKind} {span : Span} {children : List Nat}
    {result : β} {added : β → Nat × SyntaxTree}
    (h : added result = arena.push kind span children) :
    Adds (node kind span children) arena (pure result) added := by
  rw [Adds, map_pure, h]
  rfl

theorem adds_leaf_bind {kind : NodeKind} {token : Token}
    {next : Nat → Pushing α}
    (h : Adds (next ((Parser.leaf kind token).push arena).1)
      ((Parser.leaf kind token).push arena).2 parser added) :
    Adds (leaf kind token >>= next) arena parser added := h

theorem adds_spanOf_bind {id : Nat} {tree : Tree} {next : Span → Pushing α}
    (shown : arena.Shows id tree)
    (h : Adds (next tree.span) arena parser added) :
    Adds (spanOf id >>= next) arena parser added := by
  rw [← shown.span] at h
  exact h

private theorem adds_kindOf_bind {id : Nat} {tree : Tree}
    {next : NodeKind → Pushing α} (shown : arena.Shows id tree)
    (h : Adds (next tree.kind) arena parser added) :
    Adds (kindOf id >>= next) arena parser added := by
  rw [← shown.kind] at h
  exact h

theorem adds_ite {isWanted : TokenKind → Bool} {yes no : Pushing α}
    {yes' no' : Parser β} (hyes : Adds yes arena yes' added)
    (hno : Adds no arena no' added) :
    Adds (do if ← at? isWanted then yes else no) arena
      (do if ← at? isWanted then yes' else no') added := by
  refine (adds_lift (at? isWanted) arena).bind fun wanted => ?_
  cases wanted with
  | true => exact hyes
  | false => exact hno

end Adds

def Builds (pushing : Pushing Nat) (parser : Parser Tree) : Prop :=
  ∀ arena, Adds pushing arena parser fun tree => tree.push arena

def BuildsOn (pushing : Nat → Pushing Nat) (parser : Tree → Parser Tree) :
    Prop :=
  ∀ left arena, Adds (pushing (left.push arena).1) (left.push arena).2
    (parser left) fun tree => tree.push arena

def BuildsAll (pushing : Pushing (List Nat)) (parser : Parser (List Tree)) :
    Prop :=
  ∀ arena, Adds pushing arena parser fun trees => Tree.pushAll trees arena

variable {pushing : Pushing Nat} {parser : Parser Tree}

theorem Builds.andThen (h : Builds pushing parser) {next : Nat → Pushing Nat}
    {rest : Tree → Parser Tree} (further : BuildsOn next rest) :
    Builds (pushing >>= next) (parser >>= rest) :=
  fun arena => (h arena).bind fun tree => further tree arena

section Binary

variable {kind : NodeKind} (isOperator : kind.operator?.isSome)
  (opKind : NodeKind) (left : Tree) (op : Token) (right : Tree)
  (arena : SyntaxTree)
include isOperator

private theorem adds_binary :
    Adds (binary kind opKind (left.push arena).1 op
        (right.push (left.push arena).2).1)
      (right.push (left.push arena).2).2
      (pure (Parser.binary kind opKind left op right))
      fun tree => tree.push arena := by
  have grown := Tree.keeps_push (Parser.leaf opKind op)
    (right.push (left.push arena).2).2
  refine adds_leaf_bind ?_
  refine adds_spanOf_bind
    (((left.shows_push arena).kept (right.keeps_push _)).kept grown) ?_
  refine adds_spanOf_bind ((right.shows_push _).kept grown) ?_
  exact adds_node (Tree.push_binary isOperator opKind left op right arena)

private theorem adds_binary_bind {next : Nat → Pushing α} {parser : Parser β}
    {added : β → α × SyntaxTree}
    (h : let tree := Parser.binary kind opKind left op right
      Adds (next (tree.push arena).1) (tree.push arena).2 parser added) :
    Adds (binary kind opKind (left.push arena).1 op
        (right.push (left.push arena).2).1 >>= next)
      (right.push (left.push arena).2).2 parser added := by
  have tree := adds_binary isOperator opKind left op right arena
  rw [Adds, map_pure] at tree
  have split : (binary kind opKind (left.push arena).1 op
      (right.push (left.push arena).2).1 >>= next)
        (right.push (left.push arena).2).2 =
      binary kind opKind (left.push arena).1 op
        (right.push (left.push arena).2).1
        (right.push (left.push arena).2).2 >>=
          fun result => next result.1 result.2 := rfl
  rw [Adds, split, tree, pure_bind]
  exact h

end Binary

private theorem adds_prefixed {kind opKind : NodeKind}
    (notOperator : kind.operator? = none) (h : Builds pushing parser)
    (arena : SyntaxTree) :
    Adds (do
        let token ← advance
        let op ← leaf opKind token
        let operand ← pushing
        let last ← spanOf operand
        node kind (token.span.through last) [op, operand]) arena
      (do
        let op ← advance
        let operand ← parser
        return Tree.node kind (op.span.through operand.span)
          [Parser.leaf opKind op, operand])
      fun tree => tree.push arena := by
  refine (adds_lift advance arena).bind fun token => ?_
  refine adds_leaf_bind ?_
  refine (h _).bind fun operand => ?_
  refine adds_spanOf_bind (operand.shows_push _) ?_
  exact adds_node (Tree.push_inOrder notOperator _ _ _)

/-! ## The levels of an expression -/

structure Deeper.Builds (pushing : Deeper) (parser : Parser.Deeper) :
    Prop where
  expression : Pushing.Builds pushing.expression parser.expression
  negand : Pushing.Builds pushing.negand parser.negand
  operand : Pushing.Builds pushing.operand parser.operand
  moreDisjuncts : BuildsOn pushing.moreDisjuncts parser.moreDisjuncts
  moreConjuncts : BuildsOn pushing.moreConjuncts parser.moreConjuncts
  moreTerms : BuildsOn pushing.moreTerms parser.moreTerms
  moreFactors : BuildsOn pushing.moreFactors parser.moreFactors

private theorem buildsAll_arguments (h : Builds pushing parser) (rounds : Nat) :
    BuildsAll (arguments pushing rounds) (Parser.arguments parser rounds) := by
  induction rounds with
  | zero => exact fun arena => adds_fail _ _
  | succ rounds ih =>
      intro arena
      refine (h arena).bind fun argument => ?_
      refine (adds_lift advance _).bind fun token => ?_
      dsimp only
      generalize token.kind = kind
      cases kind with
      | comma =>
          refine adds_leaf_bind ((ih _).bind fun rest => adds_pure ?_)
          rfl
      | rparen =>
          refine adds_leaf_bind (adds_pure ?_)
          rfl
      | _ => exact adds_fail _ _

section Levels

variable {q : Deeper} {p : Parser.Deeper} (h : q.Builds p)
include h

private theorem builds_argumentList :
    Builds (argumentList q) (Parser.argumentList p) := by
  intro arena
  refine (adds_lift (expect .lparen) arena).bind fun opening => ?_
  refine adds_leaf_bind ?_
  dsimp only
  let first := (Parser.leaf .lparen opening).push arena
  have closed (items : List Tree) :
      let all := Tree.pushAll items first.2
      let last := (((Parser.leaf .lparen opening :: items).getLast?).map
        Tree.span).getD opening.span
      Adds (do
          let last ← spanOf (all.1.getLast?.getD first.1)
          node .arguments (opening.span.through last) (first.1 :: all.1))
        all.2
        (pure (Tree.node .arguments (opening.span.through last)
          (Parser.leaf .lparen opening :: items)))
        fun tree => tree.push arena := by
    intro all last
    have planted := Tree.planted_pushAll items first.2
    have shown := ((Tree.shows_push _ arena).kept planted.grown.keeps)
    refine adds_spanOf_bind (planted.shown.last shown) ?_
    have sameLast : last =
        (items.getLast?.getD (Parser.leaf .lparen opening)).span := by
      show (Option.map _ _).getD _ = _
      rw [List.getLast?_cons]
      rfl
    rw [sameLast]
    exact adds_node (Tree.push_inOrder rfl _ _ _)
  refine adds_ite ?_ ?_
  · refine (adds_lift advance _).bind fun closing => ?_
    exact adds_leaf_bind (closed [Parser.leaf .rparen closing])
  · refine (adds_lift get _).bind fun tokens => ?_
    exact (buildsAll_arguments h.expression _ _).bind closed

private theorem builds_primary : Builds (primary q) (Parser.primary p) := by
  intro arena
  refine (adds_lift advance arena).bind fun token => ?_
  dsimp only
  generalize token.kind = kind
  cases kind with
  | int digits => exact adds_node rfl
  | kwTrue => exact adds_node rfl
  | kwFalse => exact adds_node rfl
  | ident name =>
      refine adds_leaf_bind (adds_ite ?_ (adds_pure ?_))
      · refine (builds_argumentList h _).bind fun args => ?_
        refine adds_spanOf_bind (args.shows_push _) ?_
        exact adds_node (Tree.push_inOrder rfl _ _ _)
      · rfl
  | lparen =>
      refine adds_ite ?_ ?_
      · refine (adds_lift advance arena).bind fun closing => ?_
        exact adds_fail _ _
      · refine adds_leaf_bind ?_
        refine (h.expression _).bind fun inner => ?_
        refine (adds_lift (expect .rparen) _).bind fun closing => ?_
        refine adds_leaf_bind ?_
        refine adds_kindOf_bind
          ((inner.shows_push _).kept (Tree.keeps_push _ _)) ?_
        refine adds_node (Tree.push_inOrder ?_ _ _ _)
        split <;> rfl
  | _ => exact adds_fail _ _

theorem builds_unary : Builds (unary q) (Parser.unary p) :=
  fun arena =>
    adds_ite (adds_prefixed rfl h.operand arena) (builds_primary h arena)

omit h in
theorem buildsOn_chain {more : Nat → Pushing Nat}
    {more' : Tree → Parser Tree} (further : BuildsOn more more')
    (isWanted : TokenKind → Bool) :
    BuildsOn (fun left => do if ← at? isWanted then more left else return left)
      (fun left => do if ← at? isWanted then more' left else return left) :=
  fun left arena => adds_ite (further left arena) (adds_pure rfl)

private theorem buildsOn_factorChain :
    BuildsOn (factorChain q) (Parser.factorChain p) :=
  buildsOn_chain h.moreFactors _

private theorem builds_product : Builds (product q) (Parser.product p) :=
  (builds_unary h).andThen (buildsOn_factorChain h)

private theorem buildsOn_termChain : BuildsOn (termChain q)
    (Parser.termChain p) :=
  buildsOn_chain h.moreTerms _

private theorem builds_sum : Builds (sum q) (Parser.sum p) :=
  (builds_product h).andThen (buildsOn_termChain h)

private theorem builds_comparison :
    Builds (comparison q) (Parser.comparison p) := by
  refine (builds_sum h).andThen fun left arena => ?_
  refine adds_ite ?_ (adds_pure rfl)
  refine (adds_lift advance _).bind fun op => ?_
  refine (builds_sum h _).bind fun right => ?_
  refine adds_binary_bind rfl _ left op right arena ?_
  refine adds_ite ?_ (adds_pure rfl)
  exact (adds_lift peekSpan _).bind fun span => adds_fail _ _

theorem builds_negation : Builds (negation q) (Parser.negation p) :=
  fun arena =>
    adds_ite (adds_prefixed rfl h.negand arena) (builds_comparison h arena)

private theorem buildsOn_conjunctChain :
    BuildsOn (conjunctChain q) (Parser.conjunctChain p) :=
  buildsOn_chain h.moreConjuncts _

private theorem builds_conjunction :
    Builds (conjunction q) (Parser.conjunction p) :=
  (builds_negation h).andThen (buildsOn_conjunctChain h)

private theorem buildsOn_disjunctChain :
    BuildsOn (disjunctChain q) (Parser.disjunctChain p) :=
  buildsOn_chain h.moreDisjuncts _

private theorem builds_disjunction :
    Builds (disjunction q) (Parser.disjunction p) :=
  (builds_conjunction h).andThen (buildsOn_disjunctChain h)

private theorem builds_implication :
    Builds (implication q) (Parser.implication p) := by
  refine (builds_disjunction h).andThen fun left arena => ?_
  refine adds_ite ?_ (adds_pure rfl)
  refine (adds_lift advance _).bind fun op => ?_
  refine (h.expression _).bind fun right => ?_
  exact adds_binary rfl _ left op right arena

end Levels

/-! ## Room to nest -/

theorem buildsOn_link {kind : NodeKind} (isOperator : kind.operator?.isSome)
    (opKind : NodeKind) (operand : Builds pushing parser)
    {chain : Nat → Pushing Nat} {chain' : Tree → Parser Tree}
    (further : BuildsOn chain chain') :
    BuildsOn (link kind opKind pushing chain)
      (Parser.link kind opKind parser chain') := by
  intro left arena
  refine (adds_lift advance _).bind fun op => ?_
  refine (operand _).bind fun right => ?_
  exact adds_binary_bind isOperator opKind left op right arena
    (further _ arena)

theorem adds_tooDeep (arena : SyntaxTree) {added : Tree → Nat × SyntaxTree} :
    Adds (do fail .tooDeep (← peekSpan)) arena
      (do fail .tooDeep (← peekSpan)) added :=
  (adds_lift peekSpan arena).bind fun _ => adds_fail _ _

private theorem Deeper.builds_none : Deeper.none.Builds Parser.Deeper.none where
  expression arena := adds_tooDeep arena
  negand arena := adds_tooDeep arena
  operand arena := adds_tooDeep arena
  moreDisjuncts _ _ := adds_tooDeep _
  moreConjuncts _ _ := adds_tooDeep _
  moreTerms _ _ := adds_tooDeep _
  moreFactors _ _ := adds_tooDeep _

theorem Deeper.Builds.level {q : Deeper} {p : Parser.Deeper}
    (h : q.Builds p) : q.level.Builds p.level where
  expression := builds_implication h
  negand := builds_negation h
  operand := builds_unary h
  moreDisjuncts :=
    buildsOn_link rfl _ (builds_conjunction h) (buildsOn_disjunctChain h)
  moreConjuncts :=
    buildsOn_link rfl _ (builds_negation h) (buildsOn_conjunctChain h)
  moreTerms := buildsOn_link rfl _ (builds_product h) (buildsOn_termChain h)
  moreFactors := buildsOn_link rfl _ (builds_unary h) (buildsOn_factorChain h)

private theorem Deeper.builds_ofRoom (room : Nat) :
    (Deeper.ofRoom room).Builds (Parser.Deeper.ofRoom room) := by
  induction room with
  | zero => exact builds_none
  | succ room ih => exact ih.level

theorem builds_expression (room : Nat) :
    Builds (Deeper.ofRoom room).expression
      (Parser.Deeper.ofRoom room).expression :=
  (Deeper.builds_ofRoom room).expression

/-! ## Declarations -/

private theorem buildsAll_moreFormulas (room : Nat) :
    BuildsAll (moreFormulas room) (Parser.moreFormulas room) := by
  induction room with
  | zero =>
      intro arena
      refine adds_ite ?_ (adds_pure rfl)
      refine (adds_lift advance arena).bind fun _ => ?_
      exact (adds_lift peekSpan arena).bind fun _ => adds_fail _ _
  | succ room ih =>
      intro arena
      refine adds_ite ?_ (adds_pure rfl)
      refine (adds_lift advance arena).bind fun _ => ?_
      refine (builds_expression room arena).bind fun formula => ?_
      refine (ih _).bind fun rest => adds_pure ?_
      rfl

private theorem builds_assertion : Builds assertion Parser.assertion := by
  intro arena
  refine (adds_lift (expect .lbrace) arena).bind fun opening => ?_
  refine adds_ite ?_ ?_
  · refine (adds_lift advance arena).bind fun closing => ?_
    exact adds_fail _ _
  · refine (builds_expression maxNesting arena).bind fun first => ?_
    refine (buildsAll_moreFormulas maxNesting _).bind fun rest => ?_
    refine (adds_lift (expect .rbrace) _).bind fun closing => ?_
    exact adds_node (Tree.push_inOrder rfl _ _ _)

private theorem builds_statement : Builds statement Parser.statement := by
  intro arena
  refine (adds_lift advance arena).bind fun token => ?_
  dsimp only
  generalize token.kind = kind
  cases kind with
  | kwSkip =>
      refine (adds_lift (expect .semi) arena).bind fun semi => ?_
      exact adds_node rfl
  | ident name =>
      refine adds_leaf_bind ?_
      refine (adds_lift (expect .assign) _).bind fun assign => ?_
      refine adds_leaf_bind ?_
      refine (builds_expression maxNesting _).bind fun value => ?_
      refine (adds_lift (expect .semi) _).bind fun semi => ?_
      exact adds_node (Tree.push_inOrder rfl _ _ _)
  | _ => exact adds_fail _ _

private theorem buildsAll_statements (rounds : Nat) :
    BuildsAll (statements rounds) (Parser.statements rounds) := by
  induction rounds with
  | zero => exact fun arena => adds_fail _ _
  | succ rounds ih =>
      intro arena
      refine adds_ite (adds_pure rfl) ?_
      refine (builds_statement arena).bind fun first => ?_
      refine (ih _).bind fun rest => adds_pure ?_
      rfl

private theorem builds_command : Builds command Parser.command := by
  intro arena
  refine (adds_lift get arena).bind fun tokens => ?_
  refine (buildsAll_statements _ arena).bind fun trees => ?_
  cases trees with
  | nil => exact (adds_lift peekSpan _).bind fun _ => adds_fail _ _
  | cons first rest =>
      have planted := Tree.planted_pushAll rest (first.push arena).2
      have shown := (first.shows_push arena).kept planted.grown.keeps
      refine adds_spanOf_bind shown ?_
      refine adds_spanOf_bind (planted.shown.last shown) ?_
      have sameLast : (rest.getLast?.map Tree.span).getD first.span =
          (rest.getLast?.getD first).span := by
        cases rest.getLast? <;> rfl
      dsimp only
      rw [sameLast]
      exact adds_node (Tree.push_inOrder rfl _ _ _)

private theorem adds_declaration (arena : SyntaxTree) :
    Adds declaration arena Parser.declaration fun tree =>
      ((), (tree.push arena).2.setRoot (tree.push arena).1) := by
  have finish (body : Tree) : Adds (do
        if ← at? (· = .eof) then
          let root ← node .declaration (← spanOf (body.push arena).1)
            [(body.push arena).1]
          modify fun arena => arena.setRoot root
        else
          let token ← advance
          fail (.trailing token.kind) token.span) (body.push arena).2
      (do
        if ← at? (· = .eof) then
          return Tree.node .declaration body.span [body]
        else
          let token ← advance
          fail (.trailing token.kind) token.span)
      fun tree => ((), (tree.push arena).2.setRoot (tree.push arena).1) := by
    refine adds_ite ?_ ?_
    · refine adds_spanOf_bind (body.shows_push arena) ?_
      rfl
    · exact (adds_lift advance _).bind fun token => adds_fail _ _
  refine adds_ite ?_ ?_
  · exact (builds_assertion arena).bind finish
  · exact (builds_command arena).bind finish

/-- The arena that the parser has filled is that of the parsed tree. -/
theorem ofTokens_eq (tokens : List Token) :
    ofTokens tokens = SyntaxTree.ofTokens tokens := by
  have run := congrFun (adds_declaration {}) tokens
  have split : ((fun tree : Tree =>
      ((), (tree.push {}).2.setRoot (tree.push {}).1)) <$>
        Parser.declaration) tokens =
      (Parser.declaration tokens).map fun result =>
        (((), SyntaxTree.ofTree result.1), result.2) := rfl
  rw [ofTokens, StateT.run, StateT.run, run.trans split, SyntaxTree.ofTokens,
    Tree.ofTokens, StateT.run]
  cases Parser.declaration tokens with
  | error error => rfl
  | ok result => rfl

end Pushing

end ProofOutline
