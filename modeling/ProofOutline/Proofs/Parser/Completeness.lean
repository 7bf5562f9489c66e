import ProofOutline.Proofs.Parser.Soundness

/-!
# What the grammar derives

A derived phrase is accepted, with its tree, by the parser of its stratum when
there is room for its cost and nothing behind it goes on with it; when there
is no room, the parser fails for that reason and for no other.
-/

namespace ProofOutline

open ProofOutline.Parser

/-! ## Outcomes -/

/-- The result is the expected one, or there was too little room. -/
def IfRoom {α : Type} (fits : Prop) (result expected : Except SyntaxError α) :
    Prop :=
  (fits → result = expected) ∧
    (¬fits → ∃ span, result = .error ⟨.tooDeep, span⟩)

namespace IfRoom

variable {α β : Type} {fits fits' : Prop}
  {result expected : Except SyntaxError α}

theorem congr (h : IfRoom fits result expected) (same : fits' ↔ fits) :
    IfRoom fits' result expected := by
  rwa [propext same]

theorem of_eq (h : result = expected) : IfRoom True result expected :=
  ⟨fun _ => h, fun no => absurd trivial no⟩

theorem trans {final : Except SyntaxError α}
    (first : IfRoom fits result expected)
    (second : IfRoom fits' expected final) :
    IfRoom (fits ∧ fits') result final := by
  by_cases fit : fits
  · rw [first.1 fit]
    exact second.congr (by simp [fit])
  · exact ⟨fun both => absurd both.1 fit, fun _ => first.2 fit⟩

theorem bind {value : α} {next : α → Except SyntaxError β}
    {final : Except SyntaxError β} (first : IfRoom fits result (.ok value))
    (second : IfRoom fits' (next value) final) :
    IfRoom (fits ∧ fits') (result >>= next) final := by
  by_cases fit : fits
  · rw [first.1 fit, ok_bind]
    exact second.congr (by simp [fit])
  · obtain ⟨span, failed⟩ := first.2 fit
    refine ⟨fun both => absurd both.1 fit, fun _ => ⟨span, ?_⟩⟩
    rw [failed]
    rfl

theorem map {value : α} {next : α → Except SyntaxError β}
    {final : Except SyntaxError β} (first : IfRoom fits result (.ok value))
    (second : next value = final) :
    IfRoom fits (result >>= next) final :=
  (first.bind (of_eq second)).congr (by simp)

end IfRoom

/-- The parser one level down needs one level more. -/
theorem ifRoom_deeper {α : Type} {cost : Nat}
    {expected : Except SyntaxError α}
    (result : Nat → Except SyntaxError α)
    (none : ∃ span, result 0 = .error ⟨.tooDeep, span⟩)
    (level : ∀ room, IfRoom (cost ≤ room) (result (room + 1)) expected)
    (room : Nat) : IfRoom (cost + 1 ≤ room) (result room) expected := by
  cases room with
  | zero => exact ⟨fun fit => by omega, fun _ => none⟩
  | succ room => exact (level room).congr (by omega)

/-! ## First tokens -/

def TokenKind.opens : TokenKind → Nat
  | int _ | kwTrue | kwFalse | ident _ | lparen => 0
  | plus | minus => 1
  | bang => 5
  | _ => 9

private theorem TokenKind.opens_le_of_isSum {kind : TokenKind}
    (h : kind.isSum = true) : kind.opens ≤ 1 := by
  cases kind <;> cases h <;> exact Nat.le_refl 1

def Phrase.first : Phrase → Token
  | .atom token => token
  | .prefixed op _ => op
  | .infixed left _ _ => left.first
  | .bracketed opening _ _ => opening
  | .emptyCall name _ _ => name
  | .call name _ _ => name

private theorem Phrase.startsWith_yield (isWanted : TokenKind → Bool)
    (rest : List Token) : ∀ phrase : Phrase,
    startsWith isWanted (phrase.yield ++ rest) = isWanted phrase.first.kind
  | .atom _ => rfl
  | .prefixed _ _ => rfl
  | .infixed left op right => by
      rw [Phrase.yield, List.append_assoc]
      exact left.startsWith_yield isWanted _
  | .bracketed _ _ _ => rfl
  | .emptyCall _ _ _ => rfl
  | .call _ _ _ => rfl

theorem Derives.opens_first :
    ∀ {stratum : Stratum} {phrase : Phrase}, Derives stratum phrase →
      phrase.first.kind.opens ≤ stratum.rank
  | _, _, .implies left _ _ => Nat.le_succ_of_le left.opens_first
  | _, _, .disjunction h => Nat.le_succ_of_le h.opens_first
  | _, _, .or left _ _ => left.opens_first
  | _, _, .conjunction h => Nat.le_succ_of_le h.opens_first
  | _, _, .and left _ _ => left.opens_first
  | _, _, .negation h => Nat.le_succ_of_le h.opens_first
  | _, _, .not op _ => by
      simp [Phrase.first, op, TokenKind.opens, Stratum.rank]
  | _, _, .comparison h => Nat.le_succ_of_le h.opens_first
  | _, _, .compare left _ _ => Nat.le_succ_of_le left.opens_first
  | _, _, .sum h => Nat.le_succ_of_le h.opens_first
  | _, _, .add left _ _ => left.opens_first
  | _, _, .product h => Nat.le_succ_of_le h.opens_first
  | _, _, .multiply left _ _ => left.opens_first
  | _, _, .unary h => Nat.le_succ_of_le h.opens_first
  | _, _, .sign op _ => TokenKind.opens_le_of_isSum op
  | _, _, .primary h => Nat.le_succ_of_le h.opens_first
  | _, _, .number token => by simp [Phrase.first, token, TokenKind.opens]
  | _, _, .truth token => by
      rcases token with token | token <;>
        simp [Phrase.first, token, TokenKind.opens]
  | _, _, .name token => by simp [Phrase.first, token, TokenKind.opens]
  | _, _, .bracketed opening _ _ => by
      simp [Phrase.first, opening, TokenKind.opens]
  | _, _, .emptyCall isName _ _ => by
      simp [Phrase.first, isName, TokenKind.opens]
  | _, _, .call isName _ _ => by
      simp [Phrase.first, isName, TokenKind.opens]

theorem Derives.startsWith_eq_false {stratum : Stratum} {phrase : Phrase}
    {isWanted : TokenKind → Bool} (h : Derives stratum phrase)
    (wanted : ∀ kind : TokenKind, isWanted kind = true →
      stratum.rank < kind.opens) (rest : List Token) :
    startsWith isWanted (phrase.yield ++ rest) = false := by
  rw [phrase.startsWith_yield]
  cases isFirst : isWanted phrase.first.kind with
  | false => rfl
  | true =>
      have above := wanted _ isFirst
      have below := h.opens_first
      omega

theorem Derives.startsWith_rparen {phrase : Phrase}
    (h : Derives .implication phrase) (rest : List Token) :
    startsWith (· = .rparen) (phrase.yield ++ rest) = false := by
  refine h.startsWith_eq_false (fun kind isClosing => ?_) rest
  cases of_decide_eq_true isClosing
  decide

theorem DerivesArguments.startsWith_rparen {args : Arguments}
    (h : DerivesArguments args) (rest : List Token) :
    startsWith (· = .rparen) (args.yield ++ rest) = false := by
  cases h with
  | last arg _ =>
      rw [Arguments.yield, List.append_assoc]
      exact arg.startsWith_rparen _
  | more arg _ _ =>
      rw [Arguments.yield, List.append_assoc]
      exact arg.startsWith_rparen _

private theorem Arguments.count_le_length_yield :
    ∀ args : Arguments, args.count ≤ args.yield.length
  | .last _ _ => by simp [Arguments.count, Arguments.yield]
  | .more _ _ rest => by
      have := rest.count_le_length_yield
      simp [Arguments.count, Arguments.yield]
      omega

/-! ## One lemma for each production -/

def Closed (stratum : Stratum) (phrase : Phrase) : Prop :=
  ∀ (room : Nat) (rest : List Token), Stops stratum rest →
    IfRoom (phrase.cost ≤ room)
      (ofStratum stratum (.ofRoom room) (phrase.yield ++ rest))
      (.ok (phrase.tree, rest))

/-- The parser of the chain takes the phrase and looks for further links. -/
def Chain.Open (chain : Chain) (phrase : Phrase) : Prop :=
  ∀ (room : Nat) (rest : List Token), Stops chain.operand rest →
    IfRoom (phrase.cost ≤ room)
      (ofStratum chain.stratum (.ofRoom room) (phrase.yield ++ rest))
      (chain.goOn (.ofRoom (room - phrase.links chain.stratum)) phrase.tree
        rest)

def ClosedArguments (args : Arguments) : Prop :=
  ∀ (room rounds : Nat) (rest : List Token), args.count ≤ rounds →
    IfRoom (args.cost + 1 ≤ room)
      (arguments (Deeper.ofRoom room).expression rounds (args.yield ++ rest))
      (.ok (args.items, rest))

theorem Closed.expression {phrase : Phrase} (h : Closed .implication phrase)
    (room : Nat) {rest : List Token} (stops : Stops .implication rest) :
    IfRoom (phrase.cost + 1 ≤ room)
      ((Deeper.ofRoom room).expression (phrase.yield ++ rest))
      (.ok (phrase.tree, rest)) :=
  ifRoom_deeper
    (fun room => (Deeper.ofRoom room).expression (phrase.yield ++ rest))
    ⟨_, rfl⟩ (fun room => h room rest stops) room

namespace Chain

variable {chain : Chain}

theorem startsWith_eq_false {rest : List Token}
    (h : Stops chain.stratum rest) : startsWith chain.isLink rest = false := by
  refine h.startsWith_eq_false fun kind isLink => ?_
  exact Nat.le_of_eq (TokenKind.rank_of_chain? (chain.chain? isLink))

theorem Open.closed {phrase : Phrase} (h : chain.Open phrase) :
    Closed chain.stratum phrase := by
  intro room rest stops
  have outcome := h room rest (stops.mono (Nat.le_of_lt chain.tighter))
  rw [goOn, startsWith_eq_false stops] at outcome
  exact outcome

theorem open_ofOperand {phrase : Phrase}
    (derived : Derives chain.operand phrase)
    (h : Closed chain.operand phrase) : chain.Open phrase := by
  intro room rest stops
  rw [chain.parser, derived.links_eq_zero chain.tighter]
  exact (h room rest stops).map rfl

private theorem ifRoom_more (left : Phrase) {right : Phrase} {op : Token}
    (link : chain.isLink op.kind = true) (h : Closed chain.operand right)
    (room : Nat) {rest : List Token} (stops : Stops chain.operand rest) :
    IfRoom (right.cost + 1 ≤ room)
      (chain.more (.ofRoom room) left.tree (op :: (right.yield ++ rest)))
      (chain.goOn (.ofRoom (room - 1)) (Phrase.infixed left op right).tree
        rest) := by
  cases room with
  | zero =>
      refine ⟨fun fit => by omega, fun _ => ?_⟩
      rw [Deeper.ofRoom, chain.more_none, tooDeep_apply]
      exact ⟨_, rfl⟩
  | succ room =>
      rw [Deeper.ofRoom, chain.more_level, chain.tree_infixed link]
      exact ((h room rest stops).map rfl).congr (by omega)

theorem open_infixed {left right : Phrase} {op : Token}
    (hleft : chain.Open left) (link : chain.isLink op.kind = true)
    (hright : Closed chain.operand right) :
    chain.Open (.infixed left op right) := by
  intro room rest stops
  have before : Stops chain.operand (op :: (right.yield ++ rest)) := by
    apply stops_cons
    rw [TokenKind.rank_of_chain? (chain.chain? link)]
    exact chain.tighter
  have taken := hleft room _ before
  have more := ifRoom_more left link hright
    (room - left.links chain.stratum) stops
  rw [goOn, startsWith_cons, if_pos link] at taken
  rw [Phrase.yield, List.append_assoc, List.cons_append,
    chain.links_infixed link, chain.cost_infixed link, Nat.sub_add_eq]
  exact (taken.trans more).congr (by omega)

end Chain

namespace Closed

variable {left right phrase : Phrase} {op : Token}

theorem disjunction (h : Closed .disjunction phrase) :
    Closed .implication phrase := by
  intro room rest stops
  have noImplies : startsWith (· = .implies) rest = false :=
    stops.startsWith_eq_false fun kind isOp => by
      cases of_decide_eq_true isOp
      exact Nat.le_refl 8
  rw [ofStratum, implication_apply]
  refine (h room rest (stops.mono (by decide))).map ?_
  rw [noImplies]
  rfl

theorem implies (hleft : Closed .disjunction left) (isOp : op.kind = .implies)
    (hright : Closed .implication right) :
    Closed .implication (.infixed left op right) := by
  intro room rest stops
  have before : Stops .disjunction (op :: (right.yield ++ rest)) :=
    stops_cons _ (by rw [isOp]; decide)
  rw [ofStratum, implication_apply, Phrase.yield, List.append_assoc,
    List.cons_append, Phrase.tree_implication isOp,
    Phrase.cost_implication isOp]
  refine ((hleft room _ before).bind ?_).congr Nat.max_le
  simp only [startsWith_cons, isOp, decide_true, if_true, advance_cons,
    ok_bind]
  exact (hright.expression room stops).map rfl

theorem comparison (derived : Derives .comparison phrase)
    (h : Closed .comparison phrase) : Closed .negation phrase := by
  intro room rest stops
  have noBang : startsWith (· = .bang) (phrase.yield ++ rest) = false :=
    derived.startsWith_eq_false
      (fun kind isBang => by
        cases of_decide_eq_true isBang
        decide)
      rest
  rw [ofStratum, negation_apply, noBang]
  exact h room rest (stops.mono (by decide))

theorem not (isBang : op.kind = .bang) (h : Closed .negation phrase) :
    Closed .negation (.prefixed op phrase) := by
  intro room rest stops
  have below := ifRoom_deeper
    (fun room => (Deeper.ofRoom room).negand (phrase.yield ++ rest))
    ⟨_, rfl⟩ (fun room => h room rest stops) room
  rw [ofStratum, negation_apply, Phrase.yield, List.cons_append,
    startsWith_cons, isBang]
  refine below.map ?_
  rw [leaf_eq op (by rw [isBang]; rfl), Phrase.tree, isBang]
  rfl

theorem sum (h : Closed .sum phrase) : Closed .comparison phrase := by
  intro room rest stops
  have noCompare : startsWith TokenKind.isComparison rest = false :=
    stops.startsWith_eq_false fun kind isOp =>
      Nat.le_of_eq (TokenKind.rank_of_isComparison isOp)
  rw [ofStratum, comparison_apply]
  refine (h room rest (stops.mono (by decide))).map ?_
  rw [noCompare]
  rfl

theorem compare (hleft : Closed .sum left)
    (isOp : op.kind.isComparison = true) (hright : Closed .sum right) :
    Closed .comparison (.infixed left op right) := by
  intro room rest stops
  have before : Stops .sum (op :: (right.yield ++ rest)) :=
    stops_cons _ (by rw [TokenKind.rank_of_isComparison isOp]; decide)
  have noCompare : startsWith TokenKind.isComparison rest = false :=
    stops.startsWith_eq_false fun kind isOp =>
      Nat.le_of_eq (TokenKind.rank_of_isComparison isOp)
  rw [ofStratum, comparison_apply, Phrase.yield, List.append_assoc,
    List.cons_append, Phrase.tree_comparison isOp,
    Phrase.cost_comparison isOp]
  refine ((hleft room _ before).bind ?_).congr Nat.max_le
  simp only [startsWith_cons, isOp, if_true, advance_cons, ok_bind]
  refine (hright room rest (stops.mono (by decide))).map ?_
  rw [noCompare]
  rfl

theorem primary (derived : Derives .primary phrase)
    (h : Closed .primary phrase) : Closed .unary phrase := by
  intro room rest stops
  have noSign : startsWith TokenKind.isSum (phrase.yield ++ rest) = false :=
    derived.startsWith_eq_false
      (fun kind isSign => by cases kind <;> cases isSign <;> decide) rest
  rw [ofStratum, unary_apply, noSign]
  exact h room rest (stops.mono (by decide))

theorem sign (isSign : op.kind.isSum = true) (h : Closed .unary phrase) :
    Closed .unary (.prefixed op phrase) := by
  intro room rest stops
  have below := ifRoom_deeper
    (fun room => (Deeper.ofRoom room).operand (phrase.yield ++ rest))
    ⟨_, rfl⟩ (fun room => h room rest stops) room
  rw [ofStratum, unary_apply, Phrase.yield, List.cons_append,
    startsWith_cons, isSign]
  refine below.map ?_
  rw [leaf_eq op (TokenKind.leafKind_of_isSum isSign), Phrase.tree,
    TokenKind.prefixKind_of_isSum isSign]

theorem constant {token : Token}
    (h : ∀ (deeper : Deeper) (rest : List Token),
      Parser.primary deeper (token :: rest) = .ok (token.leaf, rest)) :
    Closed .primary (.atom token) := by
  intro room rest _
  exact (IfRoom.of_eq (h (.ofRoom room) rest)).congr (by simp [Phrase.cost])

theorem number {token : Token} {digits : String}
    (isNumber : token.kind = .int digits) : Closed .primary (.atom token) := by
  refine constant fun deeper rest => ?_
  rw [primary_apply, Token.leaf, isNumber]
  rfl

theorem truth {token : Token}
    (isTruth : token.kind = .kwTrue ∨ token.kind = .kwFalse) :
    Closed .primary (.atom token) := by
  refine constant fun deeper rest => ?_
  rcases isTruth with isTruth | isTruth
  · rw [primary_apply, Token.leaf, isTruth]
    rfl
  · rw [primary_apply, Token.leaf, isTruth]
    rfl

theorem name {token : Token} {text : String}
    (isName : token.kind = .ident text) : Closed .primary (.atom token) := by
  intro room rest stops
  have noCall : startsWith (· = .lparen) rest = false :=
    stops.startsWith_eq_false fun kind isOpening => by
      cases of_decide_eq_true isOpening
      exact Nat.le_refl 0
  refine (IfRoom.of_eq ?_).congr (by simp [Phrase.cost])
  rw [ofStratum, Phrase.yield, List.cons_append, primary_apply, isName]
  simp only [List.nil_append, noCall]
  rw [leaf_eq token (by rw [isName]; rfl)]
  rfl

theorem bracketed {opening closing : Token}
    (isOpening : opening.kind = .lparen)
    (derived : Derives .implication phrase) (h : Closed .implication phrase)
    (isClosing : closing.kind = .rparen) :
    Closed .primary (.bracketed opening phrase closing) := by
  intro room rest _
  have stops : Stops .implication (closing :: rest) :=
    stops_cons _ (by rw [isClosing]; decide)
  have nonempty := derived.startsWith_rparen (closing :: rest)
  rw [ofStratum, Phrase.yield, List.cons_append, List.cons_append,
    List.append_assoc, List.singleton_append, primary_apply, isOpening]
  simp only [nonempty, Phrase.cost]
  refine (h.expression room stops).map ?_
  rw [expect_cons rest isClosing, ok_bind,
    leaf_eq opening (by rw [isOpening]; rfl),
    leaf_eq closing (by rw [isClosing]; rfl)]
  rfl

theorem emptyCall {name opening closing : Token} {text : String}
    (isName : name.kind = .ident text) (isOpening : opening.kind = .lparen)
    (isClosing : closing.kind = .rparen) :
    Closed .primary (.emptyCall name opening closing) := by
  intro room rest _
  refine (IfRoom.of_eq ?_).congr (by simp [Phrase.cost])
  rw [ofStratum, Phrase.yield, List.cons_append, primary_apply, isName]
  simp only [List.cons_append, List.nil_append, startsWith_cons, isOpening,
    decide_true, if_true]
  rw [argumentList_empty _ rest isOpening isClosing, ok_bind,
    leaf_eq name (by rw [isName]; rfl),
    leaf_eq opening (by rw [isOpening]; rfl),
    leaf_eq closing (by rw [isClosing]; rfl)]
  rfl

theorem call {name opening : Token} {text : String} {args : Arguments}
    (isName : name.kind = .ident text) (isOpening : opening.kind = .lparen)
    (derived : DerivesArguments args) (h : ClosedArguments args) :
    Closed .primary (.call name opening args) := by
  intro room rest _
  have nonempty := derived.startsWith_rparen rest
  have rounds : args.count ≤ (args.yield ++ rest).length + 1 := by
    have := args.count_le_length_yield
    simp
    omega
  have listed : IfRoom (args.cost + 1 ≤ room)
      (argumentList (.ofRoom room) (opening :: (args.yield ++ rest)))
      (.ok (argumentsNode opening args.items, rest)) := by
    rw [argumentList_items _ isOpening nonempty]
    exact (h room _ rest rounds).map rfl
  rw [ofStratum, Phrase.yield, List.cons_append, primary_apply, isName]
  simp only [List.cons_append, startsWith_cons, isOpening, decide_true,
    if_true]
  refine listed.map ?_
  rw [argumentsNode_items args isOpening,
    leaf_eq name (by rw [isName]; rfl)]
  rfl

end Closed

private theorem closedArguments_last {arg : Phrase} {closing : Token}
    (h : Closed .implication arg) (isClosing : closing.kind = .rparen) :
    ClosedArguments (.last arg closing) := by
  intro room rounds rest enough
  have stops : Stops .implication (closing :: rest) :=
    stops_cons _ (by rw [isClosing]; decide)
  cases rounds with
  | zero => simp [Arguments.count] at enough
  | succ rounds =>
      rw [Arguments.yield, List.append_assoc, List.singleton_append,
        arguments_apply]
      refine (h.expression room stops).map ?_
      simp only [advance_cons, ok_bind, isClosing]
      rw [leaf_eq closing (by rw [isClosing]; rfl)]
      rfl

private theorem closedArguments_more {arg : Phrase} {comma : Token}
    {args : Arguments}
    (h : Closed .implication arg) (isComma : comma.kind = .comma)
    (more : ClosedArguments args) :
    ClosedArguments (.more arg comma args) := by
  intro room rounds rest enough
  have stops : Stops .implication (comma :: (args.yield ++ rest)) :=
    stops_cons _ (by rw [isComma]; decide)
  cases rounds with
  | zero => simp [Arguments.count] at enough
  | succ rounds =>
      rw [Arguments.yield, List.append_assoc, List.cons_append,
        arguments_apply, Arguments.cost]
      refine ((h.expression room stops).bind ?_).congr
        (by rw [← Nat.add_max_add_right]; exact Nat.max_le)
      simp only [advance_cons, ok_bind, isComma]
      rw [leaf_eq comma (by rw [isComma]; rfl)]
      exact (more room rounds rest (Nat.le_of_succ_le_succ enough)).map rfl

/-! ## All derivations -/

def Complete : Stratum → Phrase → Prop
  | .disjunction => Chain.disjuncts.Open
  | .conjunction => Chain.conjuncts.Open
  | .sum => Chain.terms.Open
  | .product => Chain.factors.Open
  | stratum => Closed stratum

theorem Complete.closed {stratum : Stratum} {phrase : Phrase}
    (h : Complete stratum phrase) : Closed stratum phrase := by
  cases stratum with
  | disjunction => exact Chain.Open.closed h
  | conjunction => exact Chain.Open.closed h
  | sum => exact Chain.Open.closed h
  | product => exact Chain.Open.closed h
  | _ => exact h

mutual

theorem Derives.complete :
    ∀ {stratum : Stratum} {phrase : Phrase}, Derives stratum phrase →
      Complete stratum phrase
  | _, _, .implies left op right =>
      Closed.implies left.complete.closed op right.complete
  | _, _, .disjunction h => Closed.disjunction h.complete.closed
  | _, _, .or left op right =>
      Chain.open_infixed left.complete (decide_eq_true op)
        right.complete.closed
  | _, _, .conjunction h => Chain.open_ofOperand h h.complete.closed
  | _, _, .and left op right =>
      Chain.open_infixed left.complete (decide_eq_true op)
        right.complete.closed
  | _, _, .negation h => Chain.open_ofOperand h h.complete.closed
  | _, _, .not op h => Closed.not op h.complete
  | _, _, .comparison h => Closed.comparison h h.complete
  | _, _, .compare left op right =>
      Closed.compare left.complete.closed op right.complete.closed
  | _, _, .sum h => Closed.sum h.complete.closed
  | _, _, .add left op right =>
      Chain.open_infixed left.complete op right.complete.closed
  | _, _, .product h => Chain.open_ofOperand h h.complete.closed
  | _, _, .multiply left op right =>
      Chain.open_infixed left.complete op right.complete
  | _, _, .unary h => Chain.open_ofOperand h h.complete
  | _, _, .sign op h => Closed.sign op h.complete
  | _, _, .primary h => Closed.primary h h.complete
  | _, _, .number token => Closed.number token
  | _, _, .truth token => Closed.truth token
  | _, _, .name token => Closed.name token
  | _, _, .bracketed opening h closing =>
      Closed.bracketed opening h h.complete closing
  | _, _, .emptyCall isName opening closing =>
      Closed.emptyCall isName opening closing
  | _, _, .call isName opening args =>
      Closed.call isName opening args args.complete

theorem DerivesArguments.complete :
    ∀ {args : Arguments}, DerivesArguments args → ClosedArguments args
  | _, .last arg closing => closedArguments_last arg.complete closing
  | _, .more arg comma rest =>
      closedArguments_more arg.complete comma rest.complete

end

theorem Derives.closed {stratum : Stratum} {phrase : Phrase}
    (h : Derives stratum phrase) : Closed stratum phrase :=
  h.complete.closed

end ProofOutline
