import Mathlib.Data.List.Forall2
import ProofOutline.Proofs.Parser.Pushing
import ProofOutline.Proofs.Source
import ProofOutline.Proofs.Tours

/-!
# Trees of the parser

Every node of a parsed tree covers a stretch of the tokens, and its children
cover parts of that stretch one after the other; operators stand between their
operands.  Read from any of its nodes by moves between nodes, a parsed tree
gives what its subtree there gives by recursion.
-/

namespace ProofOutline

/-! ## Tokens in order -/

structure Token.InOrder (tokens : List Token) : Prop where
  proper : ∀ token ∈ tokens, token.span.start ≤ token.span.stop
  apart : tokens.Pairwise fun first second =>
    first.span.stop ≤ second.span.start

namespace Token.InOrder

variable {tokens part : List Token} {first last : Token}

theorem sublist (h : InOrder tokens) (sub : part.Sublist tokens) :
    InOrder part :=
  ⟨fun token mem => h.proper token (sub.subset mem), h.apart.sublist sub⟩

private theorem start_le (h : InOrder tokens)
    (head : tokens.head? = some first) :
    ∀ token ∈ tokens, first.span.start ≤ token.span.start := by
  obtain ⟨rest, rfl⟩ := List.head?_eq_some_iff.mp head
  rw [List.forall_mem_cons]
  refine ⟨Nat.le_refl _, fun token mem => ?_⟩
  have proper := h.proper first List.mem_cons_self
  have apart := (List.pairwise_cons.mp h.apart).1 token mem
  omega

theorem le_stop (h : InOrder tokens) (final : tokens.getLast? = some last) :
    ∀ token ∈ tokens, token.span.stop ≤ last.span.stop := by
  obtain ⟨front, rfl⟩ := List.getLast?_eq_some_iff.mp final
  intro token mem
  rcases List.mem_append.mp mem with before | here
  · have proper := h.proper last (by simp)
    have apart := (List.pairwise_append.mp h.apart).2.2 token before last
      List.mem_cons_self
    omega
  · cases List.mem_singleton.mp here
    exact Nat.le_refl _

end Token.InOrder

/-! ## Trees over tokens -/

namespace Tree

/-- The span of the tree goes from the first of the tokens to the last. -/
def Spans (tokens : List Token) (tree : Tree) : Prop :=
  ∃ first last, tokens.head? = some first ∧ tokens.getLast? = some last ∧
    tree.span = first.span.through last.span

structure Fitted (tree : Tree) : Prop where
  proper : tree.span.start ≤ tree.span.stop
  inside : ∀ child ∈ tree.children,
    tree.span.start ≤ child.span.start ∧ child.span.stop ≤ tree.span.stop
  apart : tree.children.Pairwise fun first second =>
    first.span.stop ≤ second.span.start

/-- The node covers some of the tokens, and its children pieces of these. -/
def LaidOver (tokens : List Token) (tree : Tree) : Prop :=
  ∃ part pieces, part.Sublist tokens ∧ tree.Spans part ∧
    List.Forall₂ Spans pieces tree.children ∧ pieces.flatten.Sublist part

structure Covers (tokens : List Token) (tree : Tree) : Prop where
  spans : tree.Spans tokens
  laid : tree.Everywhere (LaidOver tokens)

section Pieces

variable {children : List Tree} {pieces : List (List Token)}

theorem exists_piece {laid : List Token → Tree → Prop}
    (h : List.Forall₂ laid pieces children) {child : Tree}
    (mem : child ∈ children) : ∃ piece ∈ pieces, laid piece child := by
  induction h with
  | nil => cases mem
  | cons first _ ih =>
      rcases List.mem_cons.mp mem with rfl | later
      · exact ⟨_, List.mem_cons_self, first⟩
      · obtain ⟨piece, isPiece, found⟩ := ih later
        exact ⟨piece, List.mem_cons_of_mem _ isPiece, found⟩

theorem covers_node {tokens : List Token} {kind : NodeKind} {span : Span}
    (spans : (node kind span children).Spans tokens)
    (laid : List.Forall₂ Covers pieces children)
    (inside : pieces.flatten.Sublist tokens) :
    (node kind span children).Covers tokens := by
  refine ⟨spans, everywhere_iff.mpr ⟨⟨tokens, pieces, .refl _, spans,
    laid.imp fun _ _ => Covers.spans, inside⟩, fun child mem => ?_⟩⟩
  obtain ⟨piece, isPiece, covers⟩ := exists_piece laid mem
  apply covers.laid.mono
  rintro tree ⟨part, parts, sub, rest⟩
  refine ⟨part, parts, ?_, rest⟩
  exact sub.trans ((List.sublist_flatten_of_mem isPiece).trans inside)

theorem covers_leaf (token : Token) : token.leaf.Covers [token] :=
  covers_node ⟨token, token, rfl, rfl, rfl⟩ .nil (List.nil_sublist _)

variable {tokens : List Token} {tree : Tree}

theorem Spans.proper (h : tree.Spans tokens) (ordered : Token.InOrder tokens) :
    tree.span.start ≤ tree.span.stop := by
  obtain ⟨first, last, head, final, span⟩ := h
  have mem := List.mem_of_mem_head? head
  have proper := ordered.proper first mem
  have within := ordered.le_stop final first mem
  rw [span]
  exact Nat.le_trans proper within

theorem Spans.inside {child : Tree} {part : List Token}
    (h : tree.Spans tokens) (ordered : Token.InOrder tokens)
    (sub : part.Sublist tokens) (spans : child.Spans part) :
    tree.span.start ≤ child.span.start ∧
      child.span.stop ≤ tree.span.stop := by
  obtain ⟨first, last, head, final, span⟩ := h
  obtain ⟨first', last', head', final', span'⟩ := spans
  rw [span, span']
  constructor
  · exact ordered.start_le head first'
      (sub.subset (List.mem_of_mem_head? head'))
  · exact ordered.le_stop final last'
      (sub.subset (List.mem_of_getLast? final'))

theorem Spans.apart {other : Tree} {part rest : List Token}
    (h : tree.Spans part) (spans : other.Spans rest)
    (apart : ∀ first ∈ part, ∀ second ∈ rest,
      first.span.stop ≤ second.span.start) :
    tree.span.stop ≤ other.span.start := by
  obtain ⟨_, last, -, final, span⟩ := h
  obtain ⟨first, _, head, -, span'⟩ := spans
  rw [span, span']
  exact apart last (List.mem_of_getLast? final) first
    (List.mem_of_mem_head? head)

private theorem pairwise_of_pieces (laid : List.Forall₂ Spans pieces children)
    (ordered : Token.InOrder pieces.flatten) :
    children.Pairwise fun first second =>
      first.span.stop ≤ second.span.start := by
  induction laid with
  | nil => exact .nil
  | @cons piece child pieces children spans laid ih =>
      rw [List.flatten_cons] at ordered
      obtain ⟨-, -, apart⟩ := List.pairwise_append.mp ordered.apart
      rw [List.pairwise_cons]
      refine ⟨fun other mem => ?_,
        ih (ordered.sublist (List.sublist_append_right _ _))⟩
      obtain ⟨rest, isPiece, found⟩ := exists_piece laid mem
      refine spans.apart found fun first mem second later => ?_
      exact apart first mem second
        (List.mem_flatten.mpr ⟨rest, isPiece, later⟩)

theorem LaidOver.fitted (h : tree.LaidOver tokens)
    (ordered : Token.InOrder tokens) : tree.Fitted := by
  obtain ⟨part, pieces, sub, spans, laid, inside⟩ := h
  have ordered := ordered.sublist sub
  refine ⟨spans.proper ordered, fun child mem => ?_,
    pairwise_of_pieces laid (ordered.sublist inside)⟩
  obtain ⟨piece, isPiece, found⟩ := exists_piece laid mem
  exact spans.inside ordered
    ((List.sublist_flatten_of_mem isPiece).trans inside) found

end Pieces

end Tree

/-! ## Phrases over their yields -/

@[simp] theorem Arguments.getLast?_yield (args : Arguments) :
    args.yield.getLast? = some args.closing := by
  cases args with
  | last arg closing => simp [yield, Arguments.closing]
  | more arg comma rest =>
      have ih := rest.getLast?_yield
      simp [yield, Arguments.closing, List.getLast?_cons, ih]

def Arguments.pieces : Arguments → List (List Token)
  | .last arg closing => [arg.yield, [closing]]
  | .more arg comma rest => arg.yield :: [comma] :: rest.pieces

@[simp] theorem Arguments.flatten_pieces (args : Arguments) :
    args.pieces.flatten = args.yield := by
  cases args with
  | last arg closing => simp [pieces, yield]
  | more arg comma rest => simp [pieces, yield, rest.flatten_pieces]

open ProofOutline.Tree

mutual

theorem Phrase.covers_tree :
    ∀ phrase : Phrase, phrase.tree.Covers phrase.yield
  | .atom token => covers_leaf token
  | .prefixed op body => by
      have inner := body.covers_tree
      obtain ⟨_, last, -, final, span⟩ := inner.spans
      refine covers_node ⟨op, last, rfl, ?_, ?_⟩
        (.cons (covers_leaf op) (.cons inner .nil)) (by simp [Phrase.yield])
      · simp [Phrase.yield, List.getLast?_cons, final]
      · show op.span.through body.tree.span = op.span.through last.span
        rw [span]
        rfl
  | .infixed left op right => by
      have first := left.covers_tree
      have second := right.covers_tree
      obtain ⟨start, _, head, -, span⟩ := first.spans
      obtain ⟨_, last, -, final, span'⟩ := second.spans
      refine covers_node ⟨start, last, ?_, ?_, ?_⟩
        (.cons first (.cons (covers_leaf op) (.cons second .nil)))
        (by simp [Phrase.yield])
      · simp [Phrase.yield, head]
      · simp [Phrase.yield, List.getLast?_cons, final]
      · show left.tree.span.through right.tree.span =
          start.span.through last.span
        rw [span, span']
        rfl
  | .bracketed opening inner closing => by
      refine covers_node ⟨opening, closing, rfl, ?_, rfl⟩
        (.cons (covers_leaf opening)
          (.cons inner.covers_tree (.cons (covers_leaf closing) .nil)))
        (by simp [Phrase.yield])
      simp [Phrase.yield, List.getLast?_cons]
  | .emptyCall name opening closing => by
      have args : (node .arguments (opening.span.through closing.span)
          [opening.leaf, closing.leaf]).Covers [opening, closing] :=
        covers_node ⟨opening, closing, rfl, rfl, rfl⟩
          (.cons (covers_leaf opening) (.cons (covers_leaf closing) .nil))
          (.refl _)
      exact covers_node ⟨name, closing, rfl, rfl, rfl⟩
        (.cons (covers_leaf name) (.cons args .nil)) (.refl _)
  | .call name opening args => by
      have list : (node .arguments
          (opening.span.through args.closing.span)
          (opening.leaf :: args.items)).Covers (opening :: args.yield) := by
        refine covers_node ⟨opening, args.closing, rfl, ?_, rfl⟩
          (.cons (covers_leaf opening) args.covers_items) ?_
        · simp [List.getLast?_cons, args.getLast?_yield]
        · simp [args.flatten_pieces]
      refine covers_node ⟨name, args.closing, rfl, ?_, rfl⟩
        (.cons (covers_leaf name) (.cons list .nil)) (by simp [Phrase.yield])
      simp [Phrase.yield, List.getLast?_cons, args.getLast?_yield]

private theorem Arguments.covers_items :
    ∀ args : Arguments, List.Forall₂ Covers args.pieces args.items
  | .last arg closing =>
      .cons arg.covers_tree (.cons (covers_leaf closing) .nil)
  | .more arg comma rest =>
      .cons arg.covers_tree (.cons (covers_leaf comma) rest.covers_items)

end

/-! ## Declarations over their yields -/

theorem Statement.covers_tree (statement : Statement) :
    statement.tree.Covers statement.yield := by
  cases statement with
  | skip token semi =>
      exact covers_node ⟨token, semi, rfl, rfl, rfl⟩ .nil
        (List.nil_sublist _)
  | assign name op value semi =>
      refine covers_node ⟨name, semi, rfl, ?_, rfl⟩
        (.cons (covers_leaf name) (.cons (covers_leaf op)
          (.cons value.covers_tree .nil))) (by simp [yield])
      simp [yield, List.getLast?_cons]

private theorem forall₂_covers_map {α : Type} {yield : α → List Token}
    {tree : α → Tree} (items : List α)
    (each : ∀ item, (tree item).Covers (yield item)) :
    List.Forall₂ Covers (items.map yield) (items.map tree) := by
  induction items with
  | nil => exact .nil
  | cons item items ih => exact .cons (each item) ih

private theorem FurtherFormula.flatten_sublist (further : List FurtherFormula) :
    (further.map (·.formula.yield)).flatten.Sublist
      (further.flatMap FurtherFormula.yield) := by
  induction further with
  | nil => exact .refl _
  | cons first rest ih =>
      rw [List.map_cons, List.flatten_cons, List.flatMap_cons]
      exact (List.sublist_cons_self _ _).append ih

private theorem Sentence.covers_body (sentence : Sentence) :
    sentence.body.Covers sentence.yield := by
  cases sentence with
  | assertion opening first rest closing =>
      refine covers_node ⟨opening, closing, rfl, ?_, rfl⟩
        (.cons first.covers_tree (forall₂_covers_map rest
          fun further => further.formula.covers_tree)) ?_
      · simp [yield, List.getLast?_cons]
      · have formulas := FurtherFormula.flatten_sublist rest
        have inner := (List.Sublist.refl first.yield).append formulas
        simp only [List.flatten_cons, yield, List.cons_append]
        exact (inner.trans (List.sublist_append_left _ [closing])).cons opening
  | command first rest =>
      have statements :=
        forall₂_covers_map (first :: rest) Statement.covers_tree
      refine covers_node ?_ statements (by simp [yield, List.flatMap_def])
      obtain ⟨start, stop, head, final, span⟩ := first.covers_tree.spans
      rcases rest.eq_nil_or_concat with rfl | ⟨middle, last, rfl⟩
      · refine ⟨start, stop, by simpa [yield] using head,
          by simpa [yield] using final, ?_⟩
        show first.tree.span.through first.tree.span = _
        rw [span]
        rfl
      · obtain ⟨_, stop, -, final, span'⟩ := last.covers_tree.spans
        refine ⟨start, stop, by simp [yield, head], by simp [yield, final],
          ?_⟩
        show first.tree.span.through (((middle.concat last).getLast?.map
          (·.tree.span)).getD first.tree.span) = _
        simp [span, span', Span.through]

theorem Sentence.covers_tree (sentence : Sentence) :
    sentence.tree.Covers sentence.yield :=
  covers_node sentence.covers_body.spans (.cons sentence.covers_body .nil)
    (by simp)

/-! ## Operators and operands -/

def NodeKind.isExpression (kind : NodeKind) : Bool :=
  kind.isFormula ||
    kind ∈ [.operation, .signed, .arithParens, .number, .name]

namespace Tree

def Operated (tree : Tree) : Prop :=
  ∀ kind, tree.kind.operator? = some kind →
    ∃ left op right, tree.children = [left, op, right] ∧
      op.kind = kind ∧ op.children = [] ∧
      left.kind.isExpression = true ∧ right.kind.isExpression = true

theorem everywhere_operated {kind : NodeKind} {span : Span}
    {children : List Tree} (h : kind.operator? = none)
    (below : ∀ child ∈ children, child.Everywhere Operated) :
    (node kind span children).Everywhere Operated := by
  refine everywhere_iff.mpr ⟨fun opKind isOp => ?_, below⟩
  cases h.symm.trans isOp

end Tree

theorem Token.operated_leaf (token : Token) :
    token.leaf.Everywhere Operated := by
  have noOp : token.kind.leafKind.operator? = none := by
    cases token.kind <;> rfl
  exact everywhere_operated noOp (List.forall_mem_nil _)

structure Phrase.Operated (phrase : Phrase) : Prop where
  everywhere : phrase.tree.Everywhere Tree.Operated
  isExpression : phrase.tree.kind.isExpression = true

def Arguments.Operated (args : Arguments) : Prop :=
  ∀ item ∈ args.items, item.Everywhere Tree.Operated

namespace Phrase

variable {left right body : Phrase} {op opening closing name : Token}

theorem operated_infixed
    (isOp : op.kind.infixKind.operator? = some op.kind.leafKind)
    (isExpression : op.kind.infixKind.isExpression = true)
    (hleft : left.Operated) (hright : right.Operated) :
    (infixed left op right).Operated := by
  refine ⟨everywhere_iff.mpr ⟨fun kind eq => ?_, ?_⟩, isExpression⟩
  · cases isOp.symm.trans eq
    exact ⟨left.tree, op.leaf, right.tree, rfl, rfl, rfl,
      hleft.isExpression, hright.isExpression⟩
  · show ∀ child ∈ [left.tree, op.leaf, right.tree], _
    simp [hleft.everywhere, op.operated_leaf, hright.everywhere]

private theorem operated_prefixed (h : body.Operated) :
    (prefixed op body).Operated := by
  have kinds : op.kind.prefixKind.operator? = none ∧
      op.kind.prefixKind.isExpression = true := by
    cases op.kind <;> exact ⟨rfl, rfl⟩
  refine ⟨everywhere_operated kinds.1 ?_, kinds.2⟩
  simp [op.operated_leaf, h.everywhere]

private theorem operated_bracketed (h : body.Operated) :
    (bracketed opening body closing).Operated := by
  have below : ∀ child ∈ [opening.leaf, body.tree, closing.leaf],
      child.Everywhere Tree.Operated := by
    simp [opening.operated_leaf, h.everywhere, closing.operated_leaf]
  constructor
  · rw [Phrase.tree]
    split
    all_goals exact everywhere_operated rfl below
  · rw [Phrase.tree]
    split
    all_goals rfl

private theorem operated_application {items : List Tree} {span inner : Span}
    (below : ∀ item ∈ items, item.Everywhere Tree.Operated) :
    (node .application span
      [name.leaf, node .arguments inner (opening.leaf :: items)]).Everywhere
        Tree.Operated := by
  have args : (node .arguments inner (opening.leaf :: items)).Everywhere
      Tree.Operated :=
    everywhere_operated rfl
      (List.forall_mem_cons.mpr ⟨opening.operated_leaf, below⟩)
  exact everywhere_operated rfl (by simp [name.operated_leaf, args])

private theorem inherited_operated :
    Inherited (fun _ => True) Operated Arguments.Operated where
  connective {_ _ op _} isOp _ := by
    apply operated_infixed
    all_goals cases kind : op.kind <;> simp_all [TokenKind.connective?] <;> rfl
  compare {_ _ op _} isOp _ := by
    apply operated_infixed
    all_goals cases kind : op.kind <;> simp_all [TokenKind.compareOp?] <;> rfl
  operation {_ _ op _} isOp _ := by
    apply operated_infixed
    all_goals cases kind : op.kind <;> simp_all [TokenKind.arithOp?] <;> rfl
  not _ _ := operated_prefixed
  sign _ _ := operated_prefixed
  number {token _} isNumber _ := by
    refine ⟨token.operated_leaf, ?_⟩
    rw [Phrase.tree, Token.leaf, isNumber]
    rfl
  truth {token} isTruth _ := by
    refine ⟨token.operated_leaf, ?_⟩
    rw [Phrase.tree, Token.leaf]
    rcases isTruth with eq | eq <;> rw [eq] <;> rfl
  name {token _} isName _ := by
    refine ⟨token.operated_leaf, ?_⟩
    rw [Phrase.tree, Token.leaf, isName]
    rfl
  bracketed _ _ := operated_bracketed
  emptyCall {_ _ closing _} _ _ _ _ := by
    refine ⟨operated_application ?_, rfl⟩
    simp [closing.operated_leaf]
  call _ _ _ args := ⟨operated_application args, rfl⟩
  last {arg closing} _ h := by
    show ∀ item ∈ [arg.tree, closing.leaf], _
    simp [h.everywhere, closing.operated_leaf]
  more {arg comma rest} _ h further := by
    show ∀ item ∈ arg.tree :: comma.leaf :: rest.items, _
    rw [List.forall_mem_cons, List.forall_mem_cons]
    exact ⟨h.everywhere, comma.operated_leaf, further⟩

end Phrase

theorem Derives.operated {stratum : Stratum} {phrase : Phrase}
    (derived : Derives stratum phrase) :
    phrase.tree.Everywhere Tree.Operated :=
  (derived.inherit Phrase.inherited_operated fun _ _ => trivial).everywhere

theorem Statement.Derived.operated {statement : Statement}
    (derived : statement.Derived) :
    statement.tree.Everywhere Tree.Operated := by
  cases derived with
  | skip _ _ => exact everywhere_operated rfl (List.forall_mem_nil _)
  | @assign name op semi text value isName isAssign derived isSemi =>
      exact everywhere_operated rfl
        (by simp [name.operated_leaf, op.operated_leaf, derived.operated])

theorem Sentence.Derived.operated {sentence : Sentence}
    (derived : sentence.Derived) :
    sentence.tree.Everywhere Tree.Operated := by
  have body : sentence.body.Everywhere Tree.Operated := by
    cases derived with
    | @assertion opening closing first further isOpening derived allDerived
        isClosing =>
        refine everywhere_operated rfl ?_
        rw [List.forall_mem_cons, List.forall_mem_map]
        exact ⟨derived.operated,
          fun formula mem => (allDerived formula mem).formula.operated⟩
    | @command first others derived allDerived =>
        refine everywhere_operated rfl ?_
        rw [List.forall_mem_cons, List.forall_mem_map]
        exact ⟨derived.operated,
          fun statement mem => (allDerived statement mem).operated⟩
  exact everywhere_operated rfl (by simp [body])

/-! ## Well-formed trees -/

namespace SyntaxTree

/-- The node hangs below that one, once and at its index, and below no other. -/
structure HangsBelow (tree : SyntaxTree) (id : Nat) (node : SyntaxNode)
    (parent : Nat) : Prop where
  recorded : node.parent = some parent
  earlier : id < parent
  once : ∃ above, tree.nodes[parent]? = some above ∧
    ∀ index, above.children[index]? = some id ↔ index = node.index
  only : ∀ {other : Nat} {above : SyntaxNode},
    tree.nodes[other]? = some above → id ∈ above.children → other = parent

/-- The spans of the children lie in the node's, one behind the other. -/
structure Fitted (tree : SyntaxTree) (node : SyntaxNode) : Prop where
  proper : node.span.start ≤ node.span.stop
  inside : ∀ child ∈ node.children,
    node.span.start ≤ (tree.span child).start ∧
      (tree.span child).stop ≤ node.span.stop
  apart : node.children.Pairwise fun first second =>
    (tree.span first).stop ≤ (tree.span second).start

/-- An operation has its operator for a leaf between its two operands. -/
def Operated (tree : SyntaxTree) (node : SyntaxNode) : Prop :=
  ∀ kind, node.kind.operator? = some kind →
    ∃ left op right leaf, node.children = [left, op, right] ∧
      tree.nodes[op]? = some leaf ∧ leaf.kind = kind ∧ leaf.children = [] ∧
      (tree.kind left).isExpression = true ∧
      (tree.kind right).isExpression = true

/--
A whole declaration, with the nodes in their places and in their order, that
moves go round as a tree.
-/
structure WellFormed (tree : SyntaxTree) : Prop where
  root : ∃ root node body, tree.root = some root ∧
    tree.nodes[root]? = some node ∧ node.parent = none ∧
    node.kind = .declaration ∧ node.children = [body]
  parents : ∀ {id : Nat} {node : SyntaxNode}, tree.nodes[id]? = some node →
    tree.root ≠ some id → ∃ parent, tree.HangsBelow id node parent
  children : ∀ {id index child : Nat} {node : SyntaxNode},
    tree.nodes[id]? = some node → node.children[index]? = some child →
    ∃ below, tree.nodes[child]? = some below ∧ below.parent = some id ∧
      below.index = index
  reached : ∀ id < tree.nodes.size, ∃ cursor moves,
    tree.cursor? = some cursor ∧ cursor.follow moves = ⟨tree, id⟩
  ranges : ∀ {id : Nat} {node : SyntaxNode}, tree.nodes[id]? = some node →
    tree.Fitted node
  operators : ∀ {id : Nat} {node : SyntaxNode}, tree.nodes[id]? = some node →
    tree.Operated node
  moves : ∀ id < tree.nodes.size, (⟨tree, id⟩ : Cursor).MovesInTree
  tour : ∃ cursor entered, tree.cursor? = some cursor ∧
    Cursor.Tour .entered cursor entered ∧ entered.Nodup ∧
    ∀ id, id ∈ entered ↔ id < tree.nodes.size

private theorem Linked.exists_hangsBelow {tree : SyntaxTree} {root id : Nat}
    {node : SyntaxNode} (linked : tree.Linked root)
    (found : tree.nodes[id]? = some node) (below : tree.root ≠ some id) :
    ∃ parent, tree.HangsBelow id node parent := by
  cases isParent : node.parent with
  | none =>
      rw [linked.isRoot, (linked.parentless found).mp isParent] at below
      exact absurd rfl below
  | some parent =>
      obtain ⟨above, isAbove, isChild⟩ := linked.up found isParent
      refine ⟨parent, isParent, linked.lt_parent found isParent,
        ⟨above, isAbove, fun index => ⟨fun here => ?_, ?_⟩⟩, ?_⟩
      · obtain ⟨-, other, isOther, -, position⟩ := linked.down isAbove here
        cases found.symm.trans isOther
        exact position.symm
      · rintro rfl
        exact isChild
      · intro other _ isOther mem
        obtain ⟨index, here⟩ := List.mem_iff_getElem?.mp mem
        obtain ⟨-, again, isAgain, sameParent, -⟩ := linked.down isOther here
        cases found.symm.trans isAgain
        exact Option.some.inj (sameParent.symm.trans isParent)

section Shown

variable {arena : SyntaxTree} {id : Nat} {node : SyntaxNode} {tree : Tree}

private theorem ShowsAll.map_span {ids : List Nat} {trees : List Tree}
    (h : arena.ShowsAll ids trees) :
    ids.map arena.span = trees.map Tree.span := by
  induction trees generalizing ids with
  | nil =>
      cases h
      rfl
  | cons tree trees ih =>
      obtain ⟨id, others, rfl, shown, rest⟩ := h
      rw [List.map_cons, List.map_cons, shown.span, ih rest]

theorem Shows.fitted (shown : arena.Shows id tree)
    (found : arena.nodes[id]? = some node) (h : tree.Fitted) :
    arena.Fitted node := by
  obtain ⟨kind, span, children⟩ := tree
  obtain ⟨other, isOther, -, rfl, all⟩ := shown
  cases found.symm.trans isOther
  have spans := all.map_span
  obtain ⟨proper, inside, apart⟩ := h
  refine ⟨proper, ?_, ?_⟩
  · have inside : ∀ span ∈ children.map Tree.span,
        node.span.start ≤ span.start ∧ span.stop ≤ node.span.stop :=
      List.forall_mem_map.mpr inside
    rw [← spans] at inside
    exact List.forall_mem_map.mp inside
  · have apart : (children.map Tree.span).Pairwise fun first second =>
        first.stop ≤ second.start :=
      List.pairwise_map.mpr apart
    rw [← spans] at apart
    exact List.pairwise_map.mp apart

theorem Shows.operated (shown : arena.Shows id tree)
    (found : arena.nodes[id]? = some node) (h : tree.Operated) :
    arena.Operated node := by
  obtain ⟨kind, span, children⟩ := tree
  obtain ⟨other, isOther, rfl, -, all⟩ := shown
  cases found.symm.trans isOther
  intro kind isOperator
  obtain ⟨left, op, right, rfl, opKind, noChildren, hleft, hright⟩ :=
    h kind isOperator
  obtain ⟨first, _, eq, shownLeft, middle, _, rfl, shownOp, last, _, rfl,
    shownRight, rfl⟩ := all
  obtain ⟨opTree, span, children⟩ := op
  cases noChildren
  obtain ⟨leaf, isLeaf, isKind, -, none⟩ := shownOp
  exact ⟨first, middle, last, leaf, eq, isLeaf, isKind.trans opKind, none,
    shownLeft.kind ▸ hleft, shownRight.kind ▸ hright⟩

end Shown

/-- The parser fills an arena with a well-formed tree for tokens in order. -/
theorem wellFormed_of_pushing {tokens : List Token} {tree : SyntaxTree}
    (ordered : Token.InOrder tokens)
    (parsed : Pushing.ofTokens tokens = .ok tree) : tree.WellFormed := by
  rw [Pushing.ofTokens_eq] at parsed
  obtain ⟨_, grown, rfl⟩ := map_eq_ok_iff.mp parsed
  obtain ⟨sentence, rest, derived, rfl, -, -, rfl⟩ :=
    Tree.ofTokens_eq_ok_iff.mp grown
  have ordered := ordered.sublist (List.sublist_append_left _ rest)
  have fitted : sentence.tree.Everywhere Tree.Fitted :=
    sentence.covers_tree.laid.mono fun _ laid => laid.fitted ordered
  have linked := linked_ofTree sentence.tree
  constructor
  case root =>
    obtain ⟨node, found, isKind, -, all⟩ := shows_ofTree sentence.tree
    obtain ⟨body, _, eq, -, rfl⟩ := all
    exact ⟨_, node, body, rfl, found, (linked.parentless found).mpr rfl,
      isKind, eq⟩
  case parents => exact linked.exists_hangsBelow
  case children => exact fun found isChild => (linked.down found isChild).2
  case reached =>
    intro id within
    obtain ⟨moves, reached⟩ := Cursor.exists_follow linked id within
    exact ⟨_, moves, rfl, reached⟩
  case ranges =>
    intro id node found
    obtain ⟨below, shown, fitted⟩ :=
      exists_shows_ofTree fitted id (lt_size_of_getElem? found)
    exact shown.fitted found fitted
  case operators =>
    intro id node found
    obtain ⟨below, shown, operated⟩ :=
      exists_shows_ofTree derived.operated id (lt_size_of_getElem? found)
    exact shown.operated found operated
  case moves => exact fun id _ => Cursor.movesInTree linked
  case tour =>
    obtain ⟨entered, tour, perm⟩ := Cursor.exists_tour sentence.tree
    refine ⟨_, entered, rfl, tour, perm.nodup_iff.mpr List.nodup_range, ?_⟩
    intro id
    rw [perm.mem_iff, List.mem_range]

private theorem ofTokens_twoFormulas :
    ofTokens (Sentence.twoFormulas.yield ++ [⟨.eof, ⟨25, 25⟩⟩]) =
      .ok (.ofTree Sentence.twoFormulas.tree) :=
  map_eq_ok_iff.mpr ⟨_, Tree.ofTokens_eq_ok_iff.mpr
    ⟨Sentence.twoFormulas, [⟨.eof, ⟨25, 25⟩⟩], Sentence.derived_twoFormulas,
      rfl, rfl, by decide, rfl⟩, rfl⟩

theorem wellFormed_twoFormulas :
    let tokens := Sentence.twoFormulas.yield ++ [⟨.eof, ⟨25, 25⟩⟩]
    Token.InOrder tokens ∧
    Pushing.ofTokens tokens = .ok (.ofTree Sentence.twoFormulas.tree) ∧
    (SyntaxTree.ofTree Sentence.twoFormulas.tree).WellFormed := by
  intro tokens
  have ordered : Token.InOrder tokens := ⟨by decide, by decide⟩
  have parsed : Pushing.ofTokens tokens =
      .ok (.ofTree Sentence.twoFormulas.tree) :=
    (Pushing.ofTokens_eq tokens).trans ofTokens_twoFormulas
  exact ⟨ordered, parsed, wellFormed_of_pushing ordered parsed⟩

end SyntaxTree

/-! ## Reading from a node on -/

theorem Tree.Shaped.everywhere {tree : Tree} (h : tree.Shaped) :
    tree.Everywhere fun below => below.Shaped ∧ below.size ≤ tree.size := by
  refine everywhere_of_inherited ?_ ⟨h, Nat.le_refl _⟩
  rintro ⟨kind, span, trees⟩ ⟨shaped, bound⟩ child mem
  exact ⟨allShaped_iff.mp shaped.2 child mem,
    Nat.le_trans (Nat.le_of_lt (size_lt_of_mem mem)) bound⟩

/--
From any node of a parsed tree on, and over any text at all, walking gives what
recursion on the subtree gives, value or error, and comes back to the node.
-/
theorem Cursor.walk_eq_recursion {tokens : List Token} {tree : SyntaxTree}
    (parsed : SyntaxTree.ofTokens tokens = .ok tree) {id : Nat}
    (within : id < tree.nodes.size) :
    ∃ below, tree.Shows id below ∧ ∀ source : List Char,
      let node : Cursor := ⟨tree, id⟩
      node.readDecl source =
        (below.readDecl source).map (fun decl => (decl, node)) ∧
      node.readFormula source =
        (below.readFormula source).map (fun formula => (formula, node)) ∧
      node.readArith source =
        (below.readArith source).map (fun arith => (arith, node)) := by
  obtain ⟨_, grown, rfl⟩ := map_eq_ok_iff.mp parsed
  obtain ⟨sentence, rest, -, rfl, -, -, rfl⟩ :=
    Tree.ofTokens_eq_ok_iff.mp grown
  obtain ⟨below, shown, shaped, deep⟩ :=
    SyntaxTree.exists_shows_ofTree sentence.shaped_tree.everywhere id within
  rw [← SyntaxTree.size_ofTree sentence.tree] at deep
  refine ⟨below, shown, ?_⟩
  intro source node
  have stands : node.Stands below :=
    ⟨⟨_, SyntaxTree.linked_ofTree sentence.tree⟩, shown⟩
  exact ⟨Walk.reads_declaration _ shaped deep node stands,
    Walk.reads_formula _ _ shaped deep node stands,
    Walk.reads_arith _ _ shaped deep node stands⟩

/--
The implication in `{x < -1 => p(x, y), true}` over another text of the same
layout, where it is a conjunction, and over no text.
-/
theorem Cursor.walk_twoFormulas :
    let tree := SyntaxTree.ofTree Sentence.twoFormulas.tree
    let node : Cursor := ⟨tree, 15⟩
    let source := "\x7by > +2 && q(y, x), true\x7d".toList
    SyntaxTree.ofTokens
      (Sentence.twoFormulas.yield ++ [⟨.eof, ⟨25, 25⟩⟩]) = .ok tree ∧
    node.kind = .implication ∧
    (∃ below formula, tree.Shows 15 below ∧
      below.readFormula source = .ok formula ∧
      node.readFormula source = .ok (formula, node)) ∧
    node.readFormula [] = .error ⟨.name, ⟨1, 2⟩, ""⟩ := by
  intro tree node source
  have parsed := SyntaxTree.ofTokens_twoFormulas
  have within : 15 < tree.nodes.size := by decide +kernel
  obtain ⟨below, shown, walks⟩ := walk_eq_recursion parsed within
  refine ⟨parsed, by decide +kernel, ?_, ?_⟩
  · have walked := (walks source).2.1
    cases read : below.readFormula source with
    | ok formula =>
        rw [read] at walked
        exact ⟨below, formula, shown, read, walked⟩
    | error error =>
        have isOk : (node.readFormula source).isOk = true := by decide +kernel
        rw [read] at walked
        rw [show node.readFormula source = _ from walked] at isOk
        cases isOk
  · rfl

end ProofOutline
