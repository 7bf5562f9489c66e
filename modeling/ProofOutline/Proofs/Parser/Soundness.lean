import ProofOutline.Proofs.Parser.Chain

/-!
# What the parsers accept

Every expression that a parser accepts is derived by its stratum, has the tree
that the parser gives and does not cost more room than the parser had.  The
proof goes up the strata of one level and then, level by level, along the room
that is left.
-/

namespace ProofOutline

open ProofOutline.Parser

/-- What the parser accepts is derived, at a cost below `bound`. -/
def SoundFor (stratum : Stratum) (bound : Nat) (parser : Parser Tree) :
    Prop :=
  ∀ ⦃tokens rest : List Token⦄ ⦃tree : Tree⦄,
    parser tokens = .ok (tree, rest) →
      ∃ phrase, Derives stratum phrase ∧ phrase.yield ++ rest = tokens ∧
        phrase.tree = tree ∧ phrase.cost < bound

/--
A chain goes on from `left` through the tokens up to `rest`.  The bound is for
the operands still to come; those of `left` have their own costs.
-/
def Chain.Extends (chain : Chain) (bound : Nat) (left : Phrase)
    (tokens : List Token) (tree : Tree) (rest : List Token) : Prop :=
  ∃ phrase, Derives chain.stratum phrase ∧
    phrase.yield ++ rest = left.yield ++ tokens ∧ phrase.tree = tree ∧
    ∀ limit, left.cost < limit →
      left.links chain.stratum + bound ≤ limit → phrase.cost < limit

structure DeeperSound (deeper : Deeper) (room : Nat) : Prop where
  expression : SoundFor .implication room deeper.expression
  negand : SoundFor .negation room deeper.negand
  operand : SoundFor .unary room deeper.operand
  more : ∀ (chain : Chain) ⦃left : Phrase⦄ ⦃op : Token⦄
    ⦃tokens rest : List Token⦄ ⦃tree : Tree⦄,
    Derives chain.stratum left → chain.isLink op.kind = true →
      chain.more deeper left.tree (op :: tokens) = .ok (tree, rest) →
        chain.Extends (room + 1) left (op :: tokens) tree rest

theorem argumentsNode_items {opening : Token} (args : Arguments)
    (isOpening : opening.kind = .lparen) :
    argumentsNode opening args.items =
      .node .arguments (opening.span.through args.closing.span)
        (opening.leaf :: args.items) := by
  have isLeaf : Parser.leaf .lparen opening = opening.leaf :=
    leaf_eq opening (by rw [isOpening]; rfl)
  rw [argumentsNode, isLeaf, args.getLast?_items]
  rfl

section Level

variable {deeper : Deeper} {room : Nat} (sound : DeeperSound deeper room)

include sound

/-! ## Primaries -/

theorem sound_arguments {rounds : Nat} {tokens rest : List Token}
    {items : List Tree}
    (h : arguments deeper.expression rounds tokens = .ok (items, rest)) :
    ∃ args, DerivesArguments args ∧ args.yield ++ rest = tokens ∧
      args.items = items ∧ args.cost < room := by
  induction rounds generalizing tokens items with
  | zero => cases h
  | succ rounds ih =>
      rw [arguments_apply] at h
      obtain ⟨⟨tree, middle⟩, read, h⟩ := bind_eq_ok_iff.mp h
      obtain ⟨⟨token, after⟩, taken, h⟩ := bind_eq_ok_iff.mp h
      obtain ⟨arg, derived, rfl, rfl, below⟩ := sound.expression read
      cases advance_eq_ok_iff.mp taken
      simp only at h
      split at h
      case h_1 isComma =>
        obtain ⟨⟨others, last⟩, more, h⟩ := bind_eq_ok_iff.mp h
        cases h
        obtain ⟨args, derivedArgs, rfl, rfl, belowArgs⟩ := ih more
        rw [leaf_eq token (by rw [isComma]; rfl)]
        refine ⟨.more arg token args, .more derived isComma derivedArgs, ?_,
          rfl, ?_⟩
        · simp [Arguments.yield]
        · exact Nat.max_lt.mpr ⟨below, belowArgs⟩
      case h_2 isClosing =>
        cases h
        rw [leaf_eq token (by rw [isClosing]; rfl)]
        refine ⟨.last arg token, .last derived isClosing, ?_, rfl, below⟩
        simp [Arguments.yield]
      case h_3 => cases h

private theorem sound_argumentList {tokens rest : List Token} {tree : Tree}
    {name opening : Token} {text : String} (isName : name.kind = .ident text)
    (isOpening : opening.kind = .lparen)
    (h : argumentList deeper (opening :: tokens) = .ok (tree, rest)) :
    ∃ phrase, Derives .primary phrase ∧
      phrase.yield ++ rest = name :: opening :: tokens ∧
      phrase.tree = .node .application (name.span.through tree.span)
        [name.leaf, tree] ∧
      phrase.cost < room + 1 := by
  cases empty : startsWith (· = .rparen) tokens with
  | true =>
      obtain ⟨closing, after, rfl, isClosing⟩ := exists_of_startsWith empty
      have isClosing := of_decide_eq_true isClosing
      rw [argumentList_empty deeper after isOpening isClosing] at h
      cases h
      rw [leaf_eq opening (by rw [isOpening]; rfl),
        leaf_eq closing (by rw [isClosing]; rfl)]
      exact ⟨.emptyCall name opening closing,
        .emptyCall isName isOpening isClosing, rfl, rfl, Nat.succ_pos room⟩
  | false =>
      rw [argumentList_items deeper isOpening empty] at h
      obtain ⟨⟨items, last⟩, read, h⟩ := bind_eq_ok_iff.mp h
      obtain ⟨args, derived, rfl, rfl, below⟩ := sound_arguments sound read
      cases h
      rw [argumentsNode_items args isOpening]
      exact ⟨.call name opening args, .call isName isOpening derived, rfl,
        rfl, Nat.succ_lt_succ below⟩

private theorem sound_primary : SoundFor .primary (room + 1)
    (primary deeper) := by
  intro tokens rest tree h
  cases tokens with
  | nil => cases h
  | cons token after =>
      rw [primary_apply] at h
      have isLeaf (kind : NodeKind) (eq : token.kind.leafKind = kind) :
          Parser.leaf kind token = token.leaf := leaf_eq token eq
      split at h
      case h_1 digits isNumber =>
        rw [isLeaf _ (by rw [isNumber]; rfl)] at h
        cases h
        exact ⟨.atom token, .number isNumber, rfl, rfl, Nat.succ_pos room⟩
      case h_2 isTrue =>
        rw [isLeaf _ (by rw [isTrue]; rfl)] at h
        cases h
        exact ⟨.atom token, .truth (.inl isTrue), rfl, rfl,
          Nat.succ_pos room⟩
      case h_3 isFalse =>
        rw [isLeaf _ (by rw [isFalse]; rfl)] at h
        cases h
        exact ⟨.atom token, .truth (.inr isFalse), rfl, rfl,
          Nat.succ_pos room⟩
      case h_4 text isName =>
        rw [isLeaf _ (by rw [isName]; rfl)] at h
        split at h
        case isTrue call =>
          obtain ⟨opening, inner, rfl, isOpening⟩ := exists_of_startsWith call
          obtain ⟨⟨args, last⟩, read, h⟩ := bind_eq_ok_iff.mp h
          cases h
          exact sound_argumentList sound isName (of_decide_eq_true isOpening)
            read
        case isFalse =>
          cases h
          exact ⟨.atom token, .name isName, rfl, rfl, Nat.succ_pos room⟩
      case h_5 isOpening =>
        rw [isLeaf _ (by rw [isOpening]; rfl)] at h
        split at h
        case isTrue =>
          obtain ⟨closing, -, h⟩ := bind_eq_ok_iff.mp h
          cases h
        case isFalse =>
          obtain ⟨⟨inner, middle⟩, read, h⟩ := bind_eq_ok_iff.mp h
          obtain ⟨⟨closing, last⟩, taken, h⟩ := bind_eq_ok_iff.mp h
          obtain ⟨phrase, derived, rfl, rfl, below⟩ := sound.expression read
          obtain ⟨rfl, isClosing⟩ := expect_eq_ok_iff.mp taken
          rw [leaf_eq closing (by rw [isClosing]; rfl)] at h
          cases h
          refine ⟨.bracketed token phrase closing,
            .bracketed isOpening derived isClosing, ?_, rfl,
            Nat.succ_lt_succ below⟩
          simp [Phrase.yield]
      case h_6 => cases h

/-! ## The strata of one level -/

private theorem sound_unary : SoundFor .unary (room + 1) (unary deeper) := by
  intro tokens rest tree h
  rw [unary_apply] at h
  split at h
  case isTrue signed =>
    obtain ⟨sign, after, rfl, isSign⟩ := exists_of_startsWith signed
    rw [advance_cons, ok_bind] at h
    obtain ⟨⟨operand, last⟩, read, h⟩ := bind_eq_ok_iff.mp h
    obtain ⟨phrase, derived, rfl, rfl, below⟩ := sound.operand read
    cases h
    refine ⟨.prefixed sign phrase, .sign isSign derived, rfl, ?_,
      Nat.succ_lt_succ below⟩
    rw [leaf_eq sign (TokenKind.leafKind_of_isSum isSign), Phrase.tree,
      TokenKind.prefixKind_of_isSum isSign]
  case isFalse =>
    obtain ⟨phrase, derived, rest⟩ := sound_primary sound h
    exact ⟨phrase, .primary derived, rest⟩

private theorem extends_goOn (chain : Chain) {left : Phrase}
    {tokens rest : List Token} {tree : Tree}
    (derived : Derives chain.stratum left)
    (h : chain.goOn deeper left.tree tokens = .ok (tree, rest)) :
    chain.Extends (room + 1) left tokens tree rest := by
  rw [Chain.goOn] at h
  split at h
  case isTrue link =>
    obtain ⟨op, after, rfl, isLink⟩ := exists_of_startsWith link
    exact sound.more chain derived isLink h
  case isFalse =>
    cases h
    exact ⟨left, derived, rfl, rfl, fun _ below _ => below⟩

theorem sound_chain (chain : Chain)
    (operands : SoundFor chain.operand (room + 1)
      (ofStratum chain.operand deeper)) :
    SoundFor chain.stratum (room + 1) (ofStratum chain.stratum deeper) := by
  intro tokens rest tree h
  rw [chain.parser] at h
  obtain ⟨⟨first, middle⟩, read, h⟩ := bind_eq_ok_iff.mp h
  obtain ⟨left, derived, rfl, rfl, below⟩ := operands read
  obtain ⟨phrase, derivedPhrase, yield, rfl, within⟩ :=
    extends_goOn sound chain (chain.ofOperand derived) h
  have noLinks : left.links chain.stratum = 0 :=
    derived.links_eq_zero chain.tighter
  exact ⟨phrase, derivedPhrase, yield, rfl,
    within (room + 1) below (by omega)⟩

private theorem extends_more_level (chain : Chain) {left : Phrase} {op : Token}
    {tokens rest : List Token} {tree : Tree}
    (operands : SoundFor chain.operand (room + 1)
      (ofStratum chain.operand deeper))
    (derived : Derives chain.stratum left) (link : chain.isLink op.kind = true)
    (h : chain.more deeper.level left.tree (op :: tokens) =
      .ok (tree, rest)) :
    chain.Extends (room + 2) left (op :: tokens) tree rest := by
  rw [chain.more_level] at h
  obtain ⟨⟨operand, middle⟩, read, h⟩ := bind_eq_ok_iff.mp h
  obtain ⟨right, derivedRight, rfl, rfl, below⟩ := operands read
  have whole : Derives chain.stratum (.infixed left op right) :=
    chain.derives derived link derivedRight
  rw [← chain.tree_infixed link] at h
  obtain ⟨phrase, derivedPhrase, yield, rfl, within⟩ :=
    extends_goOn sound chain whole h
  refine ⟨phrase, derivedPhrase, ?_, rfl, fun limit leftBelow enough => ?_⟩
  · rw [yield]
    simp [Phrase.yield]
  · apply within
    · rw [chain.cost_infixed link]
      omega
    · rw [chain.links_infixed link]
      omega

omit sound in
private theorem sound_comparison
    (sums : SoundFor .sum (room + 1) (sum deeper)) :
    SoundFor .comparison (room + 1) (comparison deeper) := by
  intro tokens rest tree h
  rw [comparison_apply] at h
  obtain ⟨⟨first, middle⟩, read, h⟩ := bind_eq_ok_iff.mp h
  obtain ⟨left, derived, rfl, rfl, below⟩ := sums read
  simp only at h
  split at h
  case isTrue compared =>
    obtain ⟨op, after, rfl, isOp⟩ := exists_of_startsWith compared
    rw [advance_cons, ok_bind] at h
    obtain ⟨⟨second, last⟩, readRight, h⟩ := bind_eq_ok_iff.mp h
    obtain ⟨right, derivedRight, rfl, rfl, belowRight⟩ := sums readRight
    simp only at h
    split at h
    case isTrue => cases h
    case isFalse =>
      cases h
      refine ⟨.infixed left op right, .compare derived isOp derivedRight,
        ?_, ?_, ?_⟩
      · simp [Phrase.yield]
      · rw [Phrase.tree_comparison isOp]
      · rw [Phrase.cost_comparison isOp]
        exact Nat.max_lt.mpr ⟨below, belowRight⟩
  case isFalse =>
    cases h
    exact ⟨left, .sum derived, rfl, rfl, below⟩

private theorem sound_negation
    (comparisons : SoundFor .comparison (room + 1) (comparison deeper)) :
    SoundFor .negation (room + 1) (negation deeper) := by
  intro tokens rest tree h
  rw [negation_apply] at h
  split at h
  case isTrue negated =>
    obtain ⟨bang, after, rfl, isBang⟩ := exists_of_startsWith negated
    have isBang := of_decide_eq_true isBang
    rw [advance_cons, ok_bind] at h
    obtain ⟨⟨negand, last⟩, read, h⟩ := bind_eq_ok_iff.mp h
    obtain ⟨phrase, derived, rfl, rfl, below⟩ := sound.negand read
    cases h
    refine ⟨.prefixed bang phrase, .not isBang derived, rfl, ?_,
      Nat.succ_lt_succ below⟩
    rw [leaf_eq bang (by rw [isBang]; rfl), Phrase.tree, isBang]
    rfl
  case isFalse =>
    obtain ⟨phrase, derived, rest⟩ := comparisons h
    exact ⟨phrase, .comparison derived, rest⟩

private theorem sound_implication
    (disjunctions : SoundFor .disjunction (room + 1) (disjunction deeper)) :
    SoundFor .implication (room + 1) (implication deeper) := by
  intro tokens rest tree h
  rw [implication_apply] at h
  obtain ⟨⟨first, middle⟩, read, h⟩ := bind_eq_ok_iff.mp h
  obtain ⟨left, derived, rfl, rfl, below⟩ := disjunctions read
  simp only at h
  split at h
  case isTrue implies =>
    obtain ⟨op, after, rfl, isOp⟩ := exists_of_startsWith implies
    have isOp := of_decide_eq_true isOp
    rw [advance_cons, ok_bind] at h
    obtain ⟨⟨second, last⟩, readRight, h⟩ := bind_eq_ok_iff.mp h
    obtain ⟨right, derivedRight, rfl, rfl, belowRight⟩ :=
      sound.expression readRight
    cases h
    refine ⟨.infixed left op right, .implies derived isOp derivedRight,
      ?_, ?_, ?_⟩
    · simp [Phrase.yield]
    · rw [Phrase.tree_implication isOp]
    · rw [Phrase.cost_implication isOp]
      exact Nat.max_lt.mpr ⟨below, Nat.succ_lt_succ belowRight⟩
  case isFalse =>
    cases h
    exact ⟨left, .disjunction derived, rfl, rfl, below⟩

theorem sound_ofStratum (stratum : Stratum) :
    SoundFor stratum (room + 1) (ofStratum stratum deeper) := by
  have unaries := sound_unary sound
  have products := sound_chain sound .factors unaries
  have sums := sound_chain sound .terms products
  have comparisons := sound_comparison sums
  have negations := sound_negation sound comparisons
  have conjunctions := sound_chain sound .conjuncts negations
  have disjunctions := sound_chain sound .disjuncts conjunctions
  cases stratum with
  | implication => exact sound_implication sound disjunctions
  | disjunction => exact disjunctions
  | conjunction => exact conjunctions
  | negation => exact negations
  | comparison => exact comparisons
  | sum => exact sums
  | product => exact products
  | unary => exact unaries
  | primary => exact sound_primary sound

theorem DeeperSound.level : DeeperSound deeper.level (room + 1) where
  expression := sound_ofStratum sound .implication
  negand := sound_ofStratum sound .negation
  operand := sound_ofStratum sound .unary
  more chain _ _ _ _ _ derived link h :=
    extends_more_level sound chain (sound_ofStratum sound chain.operand)
      derived link h

end Level

/-! ## All levels -/

private theorem deeperSound_none : DeeperSound .none 0 where
  expression _ _ _ h := nomatch h
  negand _ _ _ h := nomatch h
  operand _ _ _ h := nomatch h
  more chain _ _ _ _ _ _ _ h := by
    rw [chain.more_none] at h
    cases h

theorem deeperSound_ofRoom (room : Nat) :
    DeeperSound (.ofRoom room) room := by
  induction room with
  | zero => exact deeperSound_none
  | succ room ih => exact ih.level

end ProofOutline
