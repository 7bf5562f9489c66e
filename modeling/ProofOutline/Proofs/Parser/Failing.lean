import ProofOutline.Proofs.Parser.Declaration

/-!
# Where the parsers fail

A parser that takes only tokens before the end of input has always one more to
look at.  So on tokens that end with the end of input it never runs out of
them, and where it fails it points at one of them, or from one to a later one.
-/

namespace ProofOutline

open ProofOutline.Parser

def EndsWithEof (tokens : List Token) : Prop :=
  ∃ eof, tokens.getLast? = some eof ∧ eof.kind = .eof

/-- From the start of one of the tokens to the end of that or a later one. -/
def Span.Stretches (tokens : List Token) (span : Span) : Prop :=
  ∃ (part : List Token) (first last : Token), part.Sublist tokens ∧
    part.head? = some first ∧ part.getLast? = some last ∧
    span = first.span.through last.span

/-- A single token is picked out, or two brackets with nothing in between. -/
inductive Span.Picks (tokens : List Token) : Span → Prop
  | token {token : Token} : token ∈ tokens → Picks tokens token.span
  | brackets {opening closing : Token} :
      [opening, closing].Sublist tokens →
      closing.kind = .rparen ∨ closing.kind = .rbrace →
      Picks tokens (opening.span.through closing.span)

structure SyntaxError.PointsInto (tokens : List Token)
    (error : SyntaxError) : Prop where
  picks : error.span.Picks tokens
  cause : error.cause ≠ .endOfTokens ∧ error.cause ≠ .emptyTree

/-- The tokens left over are the last of these, or these are pointed at. -/
inductive Settled {α : Type} (tokens : List Token) :
    Except SyntaxError (α × List Token) → Prop
  | ok {value : α} {rest : List Token} :
      EndsWithEof rest → rest <:+ tokens → Settled tokens (.ok (value, rest))
  | error {error : SyntaxError} :
      error.PointsInto tokens → Settled tokens (.error error)

def Settles {α : Type} (parser : Parser α) : Prop :=
  ∀ ⦃tokens : List Token⦄, EndsWithEof tokens → Settled tokens (parser tokens)

/-! ## Steps -/

section Steps

variable {α β : Type} {tokens rest : List Token}

theorem EndsWithEof.tail {token : Token} (h : EndsWithEof (token :: rest))
    (notEof : token.kind ≠ .eof) : EndsWithEof rest := by
  obtain ⟨eof, last, isEof⟩ := h
  cases rest with
  | nil =>
      cases last
      exact absurd isEof notEof
  | cons next others => exact ⟨eof, by simpa using last, isEof⟩

theorem EndsWithEof.exists_cons (h : EndsWithEof tokens) :
    ∃ token rest, tokens = token :: rest := by
  cases tokens with
  | nil =>
      obtain ⟨eof, last, -⟩ := h
      cases last
  | cons token rest => exact ⟨token, rest, rfl⟩

theorem Span.Picks.stretches {span : Span} (h : span.Picks tokens) :
    span.Stretches tokens := by
  cases h with
  | @token token mem =>
      exact ⟨[token], token, token, List.singleton_sublist.mpr mem, rfl, rfl,
        rfl⟩
  | @brackets opening closing sub _ =>
      exact ⟨[opening, closing], opening, closing, sub, rfl, rfl, rfl⟩

theorem Span.Picks.mono {part : List Token} {span : Span}
    (h : span.Picks part) (sub : part.Sublist tokens) :
    span.Picks tokens := by
  cases h with
  | token mem => exact .token (sub.subset mem)
  | brackets inside isClosing => exact .brackets (inside.trans sub) isClosing

theorem SyntaxError.PointsInto.span {error : SyntaxError}
    (h : error.PointsInto tokens) : error.span.Stretches tokens :=
  h.picks.stretches

theorem Settled.mono {result : Except SyntaxError (α × List Token)}
    (h : Settled rest result) (suffix : rest <:+ tokens) :
    Settled tokens result := by
  cases h with
  | ok closed left => exact .ok closed (left.trans suffix)
  | error points =>
      exact .error ⟨points.picks.mono suffix.sublist, points.cause⟩

theorem Settled.bind {result : Except SyntaxError (α × List Token)}
    {next : α × List Token → Except SyntaxError (β × List Token)}
    (h : Settled tokens result)
    (after : ∀ value rest, EndsWithEof rest → rest <:+ tokens →
      Settled tokens (next (value, rest))) :
    Settled tokens (result >>= next) := by
  cases h with
  | ok closed suffix => exact after _ _ closed suffix
  | error points => exact .error points

theorem settled_at {token : Token} {cause : SyntaxCause}
    (mem : token ∈ tokens)
    (h : cause ≠ .endOfTokens ∧ cause ≠ .emptyTree) :
    Settled tokens (.error ⟨cause, token.span⟩ :
      Except SyntaxError (α × List Token)) :=
  .error ⟨.token mem, h⟩

theorem settled_next {cause : SyntaxCause} (closed : EndsWithEof rest)
    (suffix : rest <:+ tokens)
    (h : cause ≠ .endOfTokens ∧ cause ≠ .emptyTree) :
    Settled tokens
      (.error ⟨cause, (rest.head?.map Token.span).getD ⟨0, 0⟩⟩ :
        Except SyntaxError (α × List Token)) := by
  obtain ⟨token, others, rfl⟩ := closed.exists_cons
  exact settled_at (suffix.subset List.mem_cons_self) h

theorem Settles.on {parser : Parser α} (h : Settles parser)
    (closed : EndsWithEof rest) (suffix : rest <:+ tokens) :
    Settled tokens (parser rest) :=
  (h closed).mono suffix

theorem suffix_of_cons_suffix {token : Token}
    (h : token :: rest <:+ tokens) : rest <:+ tokens :=
  (List.suffix_cons token rest).trans h

theorem settled_ite_advance {isWanted : TokenKind → Bool}
    {next : Token × List Token → Except SyntaxError (β × List Token)}
    {other : Except SyntaxError (β × List Token)}
    (noEof : isWanted .eof = false) (closed : EndsWithEof rest)
    (suffix : rest <:+ tokens)
    (taken : ∀ token after, rest = token :: after →
      isWanted token.kind = true → EndsWithEof after → after <:+ tokens →
      Settled tokens (next (token, after)))
    (not : Settled tokens other) :
    Settled tokens
      (if startsWith isWanted rest then advance rest >>= next else other) := by
  split
  case isTrue starts =>
    obtain ⟨token, after, rfl, wanted⟩ := exists_of_startsWith starts
    have notEof : token.kind ≠ .eof := by
      intro isEof
      rw [isEof, noEof] at wanted
      cases wanted
    exact taken token after rfl wanted (closed.tail notEof)
      (suffix_of_cons_suffix suffix)
  case isFalse => exact not

theorem settled_expect {kind : TokenKind} (noEof : kind ≠ .eof) :
    Settles (expect kind) := by
  intro tokens closed
  obtain ⟨token, rest, rfl⟩ := closed.exists_cons
  rw [expect_apply]
  split
  case isTrue isKind =>
    exact .ok (closed.tail (isKind ▸ noEof)) (List.suffix_cons _ _)
  case isFalse => exact settled_at List.mem_cons_self (by simp)

end Steps

/-! ## Expressions -/

structure DeeperSettles (deeper : Deeper) : Prop where
  expression : Settles deeper.expression
  negand : Settles deeper.negand
  operand : Settles deeper.operand
  more : ∀ (chain : Chain) (left : Tree) {op : Token} {tokens : List Token},
    chain.isLink op.kind = true → EndsWithEof (op :: tokens) →
      Settled (op :: tokens) (chain.more deeper left (op :: tokens))

section Level

variable {deeper : Deeper} (settles : DeeperSettles deeper)

include settles

private theorem settled_arguments {rounds : Nat} {tokens : List Token}
    (closed : EndsWithEof tokens) (enough : tokens.length < rounds) :
    Settled tokens (arguments deeper.expression rounds tokens) := by
  induction rounds generalizing tokens with
  | zero => cases enough
  | succ rounds ih =>
      rw [arguments_apply]
      refine (settles.expression closed).bind fun argument left closed
        suffix => ?_
      obtain ⟨token, rest, rfl⟩ := closed.exists_cons
      have mem : token ∈ tokens := suffix.subset List.mem_cons_self
      have shorter := suffix.length_le
      have suffix := suffix_of_cons_suffix suffix
      simp only [advance_cons, ok_bind]
      split
      case h_1 isComma =>
        have closed := closed.tail (by simp [isComma])
        simp only [List.length_cons] at shorter
        exact ((ih closed (by omega)).mono suffix).bind
          fun _ _ closed suffix => .ok closed suffix
      case h_2 isClosing =>
        exact .ok (closed.tail (by simp [isClosing])) suffix
      case h_3 => exact settled_at mem (by simp)

private theorem settled_argumentList {opening : Token} {tokens : List Token}
    (isOpening : opening.kind = .lparen) (closed : EndsWithEof tokens) :
    Settled tokens (argumentList deeper (opening :: tokens)) := by
  cases empty : startsWith (· = .rparen) tokens with
  | true =>
      obtain ⟨closing, rest, rfl, isClosing⟩ := exists_of_startsWith empty
      have isClosing := of_decide_eq_true isClosing
      rw [argumentList_empty deeper rest isOpening isClosing]
      exact .ok (closed.tail (by simp [isClosing])) (List.suffix_cons _ _)
  | false =>
      rw [argumentList_items deeper isOpening empty]
      exact (settled_arguments settles closed (Nat.lt_succ_self _)).bind
        fun _ _ closed suffix => .ok closed suffix

private theorem settles_primary : Settles (primary deeper) := by
  intro tokens closed
  obtain ⟨token, rest, rfl⟩ := closed.exists_cons
  have suffix : rest <:+ token :: rest := List.suffix_cons _ _
  rw [primary_apply]
  split
  case h_1 digits isNumber =>
    exact .ok (closed.tail (by simp [isNumber])) suffix
  case h_2 isTrue => exact .ok (closed.tail (by simp [isTrue])) suffix
  case h_3 isFalse => exact .ok (closed.tail (by simp [isFalse])) suffix
  case h_4 text isName =>
    have closed := closed.tail (by simp [isName])
    split
    case isTrue call =>
      obtain ⟨opening, inner, rfl, isOpening⟩ := exists_of_startsWith call
      have isOpening := of_decide_eq_true isOpening
      have inside := closed.tail (by simp [isOpening])
      have args := settled_argumentList settles isOpening inside
      exact (args.mono (suffix_of_cons_suffix suffix)).bind
        fun _ _ closed suffix => .ok closed suffix
    case isFalse => exact .ok closed suffix
  case h_5 isOpening =>
    have closed := closed.tail (by simp [isOpening])
    refine settled_ite_advance rfl closed suffix ?_ ?_
    · rintro closing after rfl isClosing - -
      refine .error ⟨.brackets ?_ (.inl (of_decide_eq_true isClosing)),
        by simp⟩
      simp
    · refine (settles.expression.on closed suffix).bind fun inner left closed
        suffix => ?_
      exact ((settled_expect (by decide)).on closed suffix).bind
        fun _ _ closed suffix => .ok closed suffix
  case h_6 => exact settled_at List.mem_cons_self (by simp)

private theorem settles_unary : Settles (unary deeper) := by
  intro tokens closed
  rw [unary_apply]
  refine settled_ite_advance rfl closed (List.suffix_refl _) ?_
    (settles_primary settles closed)
  intro sign after _ _ closed suffix
  exact (settles.operand.on closed suffix).bind
    fun _ _ closed suffix => .ok closed suffix

private theorem settled_goOn (chain : Chain) (left : Tree) {tokens : List Token}
    (closed : EndsWithEof tokens) :
    Settled tokens (chain.goOn deeper left tokens) := by
  rw [Chain.goOn]
  split
  case isTrue link =>
    obtain ⟨op, after, rfl, isLink⟩ := exists_of_startsWith link
    exact settles.more chain left isLink closed
  case isFalse => exact .ok closed (List.suffix_refl _)

theorem settles_chain (chain : Chain)
    (operands : Settles (ofStratum chain.operand deeper)) :
    Settles (ofStratum chain.stratum deeper) := by
  intro tokens closed
  rw [chain.parser]
  refine (operands closed).bind fun left rest closed suffix => ?_
  exact (settled_goOn settles chain left closed).mono suffix

private theorem settled_more_level (chain : Chain) (left : Tree) {op : Token}
    {tokens : List Token} (operands : Settles (ofStratum chain.operand deeper))
    (link : chain.isLink op.kind = true)
    (closed : EndsWithEof (op :: tokens)) :
    Settled (op :: tokens) (chain.more deeper.level left (op :: tokens)) := by
  have notEof : op.kind ≠ .eof := by
    intro isEof
    have isLink := chain.chain? link
    rw [isEof] at isLink
    cases isLink
  rw [chain.more_level]
  refine (operands.on (closed.tail notEof) (List.suffix_cons _ _)).bind
    fun right rest closed suffix => ?_
  exact (settled_goOn settles chain _ closed).mono suffix

omit settles in
private theorem settles_comparison (sums : Settles (sum deeper)) :
    Settles (comparison deeper) := by
  intro tokens closed
  rw [comparison_apply]
  refine (sums closed).bind fun left rest closed suffix => ?_
  refine settled_ite_advance rfl closed suffix ?_ (.ok closed suffix)
  intro op after _ _ closed suffix
  refine (sums.on closed suffix).bind fun right last closed suffix => ?_
  split
  case isTrue => exact settled_next closed suffix (by simp)
  case isFalse => exact .ok closed suffix

private theorem settles_negation (comparisons : Settles (comparison deeper)) :
    Settles (negation deeper) := by
  intro tokens closed
  rw [negation_apply]
  refine settled_ite_advance rfl closed (List.suffix_refl _) ?_
    (comparisons closed)
  intro bang after _ _ closed suffix
  exact (settles.negand.on closed suffix).bind
    fun _ _ closed suffix => .ok closed suffix

private theorem settles_implication
    (disjunctions : Settles (disjunction deeper)) :
    Settles (implication deeper) := by
  intro tokens closed
  rw [implication_apply]
  refine (disjunctions closed).bind fun left rest closed suffix => ?_
  refine settled_ite_advance rfl closed suffix ?_ (.ok closed suffix)
  intro op after _ _ closed suffix
  exact (settles.expression.on closed suffix).bind
    fun _ _ closed suffix => .ok closed suffix

theorem settles_ofStratum (stratum : Stratum) :
    Settles (ofStratum stratum deeper) := by
  have unaries := settles_unary settles
  have products := settles_chain settles .factors unaries
  have sums := settles_chain settles .terms products
  have comparisons := settles_comparison sums
  have negations := settles_negation settles comparisons
  have conjunctions := settles_chain settles .conjuncts negations
  have disjunctions := settles_chain settles .disjuncts conjunctions
  cases stratum with
  | implication => exact settles_implication settles disjunctions
  | disjunction => exact disjunctions
  | conjunction => exact conjunctions
  | negation => exact negations
  | comparison => exact comparisons
  | sum => exact sums
  | product => exact products
  | unary => exact unaries
  | primary => exact settles_primary settles

theorem DeeperSettles.level : DeeperSettles deeper.level where
  expression := settles_ofStratum settles .implication
  negand := settles_ofStratum settles .negation
  operand := settles_ofStratum settles .unary
  more chain left _ _ :=
    settled_more_level settles chain left
      (settles_ofStratum settles chain.operand)

end Level

theorem settles_tooDeep {α : Type} : Settles (tooDeep : Parser α) :=
  fun _ closed => settled_next closed (List.suffix_refl _) (by simp)

private theorem deeperSettles_ofRoom (room : Nat) :
    DeeperSettles (.ofRoom room) := by
  induction room with
  | zero =>
      refine ⟨settles_tooDeep, settles_tooDeep, settles_tooDeep, ?_⟩
      intro chain left op tokens _ closed
      show Settled _ (chain.more .none left _)
      rw [chain.more_none]
      exact settles_tooDeep closed
  | succ room ih => exact ih.level

/-! ## Declarations -/

theorem settles_expression (room : Nat) :
    Settles (Deeper.ofRoom room).expression :=
  (deeperSettles_ofRoom room).expression

private theorem settles_moreFormulas (room : Nat) : Settles
    (moreFormulas room) := by
  induction room with
  | zero =>
      intro tokens closed
      rw [moreFormulas_zero]
      refine settled_ite_advance rfl closed (List.suffix_refl _) ?_
        (.ok closed (List.suffix_refl _))
      intro comma after _ _ closed suffix
      exact settled_next closed suffix (by simp)
  | succ room ih =>
      intro tokens closed
      rw [moreFormulas_succ]
      refine settled_ite_advance rfl closed (List.suffix_refl _) ?_
        (.ok closed (List.suffix_refl _))
      intro comma after _ _ closed suffix
      refine ((settles_expression room).on closed suffix).bind
        fun formula rest closed suffix => ?_
      exact (ih.on closed suffix).bind fun _ _ closed suffix =>
        .ok closed suffix

private theorem settled_assertion {opening : Token} {tokens : List Token}
    (isOpening : opening.kind = .lbrace) (closed : EndsWithEof tokens) :
    Settled (opening :: tokens) (assertion (opening :: tokens)) := by
  rw [assertion_apply, expect_cons tokens isOpening, ok_bind]
  refine settled_ite_advance rfl closed (List.suffix_cons _ _) ?_ ?_
  · rintro closing after rfl isClosing - -
    refine .error ⟨.brackets ?_ (.inr (of_decide_eq_true isClosing)),
      by simp⟩
    simp
  · refine ((settles_expression _).on closed (List.suffix_cons _ _)).bind
      fun first rest closed suffix => ?_
    refine ((settles_moreFormulas _).on closed suffix).bind
      fun further rest closed suffix => ?_
    exact ((settled_expect (by decide)).on closed suffix).bind
      fun _ _ closed suffix => .ok closed suffix

private theorem settles_statement : Settles statement := by
  intro tokens closed
  obtain ⟨token, rest, rfl⟩ := closed.exists_cons
  have suffix : rest <:+ token :: rest := List.suffix_cons _ _
  rw [statement_apply]
  split
  case h_1 isSkip =>
    have closed := closed.tail (by simp [isSkip])
    exact ((settled_expect (by decide)).on closed suffix).bind
      fun _ _ closed suffix => .ok closed suffix
  case h_2 text isName =>
    have closed := closed.tail (by simp [isName])
    refine ((settled_expect (by decide)).on closed suffix).bind
      fun op rest closed suffix => ?_
    refine ((settles_expression _).on closed suffix).bind
      fun value rest closed suffix => ?_
    exact ((settled_expect (by decide)).on closed suffix).bind
      fun _ _ closed suffix => .ok closed suffix
  case h_3 => exact settled_at List.mem_cons_self (by simp)

/-- A statement takes a token at least, so the rounds suffice. -/
theorem settled_statements {rounds : Nat} {tokens : List Token}
    (closed : EndsWithEof tokens) (enough : tokens.length < rounds) :
    Settled tokens (statements rounds tokens) := by
  induction rounds generalizing tokens with
  | zero => cases enough
  | succ rounds ih =>
      rw [statements_apply]
      split
      case isTrue => exact .ok closed (List.suffix_refl _)
      case isFalse =>
        have settled := settles_statement closed
        cases parsed : statement tokens with
        | error error =>
            rw [parsed] at settled
            cases settled with
            | error points => exact .error points
        | ok found =>
            obtain ⟨tree, rest⟩ := found
            rw [parsed] at settled
            cases settled with
            | ok left suffix =>
                obtain ⟨statement, -, rfl, -⟩ := sound_statement parsed
                have taken := List.length_pos_iff.mpr statement.yield_ne_nil
                rw [List.length_append] at enough
                exact ((ih left (by omega)).mono suffix).bind
                  fun _ _ closed suffix => .ok closed suffix

private theorem settles_command : Settles command := by
  intro tokens closed
  rw [command_apply]
  refine (settled_statements closed (Nat.lt_succ_self _)).bind
    fun trees rest closed suffix => ?_
  cases trees with
  | nil => exact settled_next closed suffix (by simp)
  | cons first others => exact .ok closed suffix

private theorem settles_declaration : Settles declaration := by
  intro tokens closed
  have body : Settled tokens
      (if startsWith (· = .lbrace) tokens then assertion tokens
        else command tokens) := by
    split
    case isTrue braced =>
      obtain ⟨opening, rest, rfl, isOpening⟩ := exists_of_startsWith braced
      have isOpening := of_decide_eq_true isOpening
      exact settled_assertion isOpening (closed.tail (by simp [isOpening]))
    case isFalse => exact settles_command closed
  rw [declaration_apply]
  refine body.bind fun tree rest closed suffix => ?_
  simp only
  split
  case isTrue => exact .ok closed suffix
  case isFalse =>
    obtain ⟨token, after, rfl⟩ := closed.exists_cons
    exact settled_at (suffix.subset List.mem_cons_self) (by simp)

theorem Tree.pointsInto_of_ofTokens {tokens : List Token}
    {error : SyntaxError} (closed : EndsWithEof tokens)
    (failed : Tree.ofTokens tokens = .error error) :
    error.PointsInto tokens := by
  have settled := settles_declaration closed
  cases parsed : declaration tokens with
  | ok found =>
      rw [Tree.ofTokens, StateT.run, parsed] at failed
      cases failed
  | error cause =>
      rw [Tree.ofTokens, StateT.run, parsed] at failed
      cases failed
      rw [parsed] at settled
      cases settled with
      | error points => exact points

end ProofOutline
