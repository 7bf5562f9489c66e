import ProofOutline.Proofs.Results
import ProofOutline.Tree.Parser

/-!
# The parsers, one step at a time

Each parser as a function of the tokens in front of it.  An equation says
which tokens a parser looks at and takes, and which parsers it leaves the rest
to.
-/

namespace ProofOutline.Parser

def startsWith (isWanted : TokenKind → Bool) (tokens : List Token) : Bool :=
  (tokens.head?.map fun token => isWanted token.kind).getD false

@[simp] theorem startsWith_nil (isWanted : TokenKind → Bool) :
    startsWith isWanted [] = false := rfl

@[simp] theorem startsWith_cons (isWanted : TokenKind → Bool) (token : Token)
    (rest : List Token) :
    startsWith isWanted (token :: rest) = isWanted token.kind := rfl

theorem exists_of_startsWith {isWanted : TokenKind → Bool}
    {tokens : List Token} (h : startsWith isWanted tokens = true) :
    ∃ token rest, tokens = token :: rest ∧ isWanted token.kind = true := by
  cases tokens with
  | nil => cases h
  | cons token rest => exact ⟨token, rest, rfl, h⟩

/-! ## Steps -/

theorem bind_apply {α β : Type} (first : Parser α) (next : α → Parser β)
    (tokens : List Token) :
    (first >>= next) tokens =
      (first tokens >>= fun result => next result.1 result.2) := rfl

@[simp] theorem at?_bind {α : Type} (isWanted : TokenKind → Bool)
    (next : Bool → Parser α) (tokens : List Token) :
    (at? isWanted >>= next) tokens =
      next (startsWith isWanted tokens) tokens := rfl

theorem ite_at?_apply {α : Type} (isWanted : TokenKind → Bool)
    (yes no : Parser α) (tokens : List Token) :
    (at? isWanted >>= fun wanted => if wanted = true then yes else no)
        tokens =
      if startsWith isWanted tokens then yes tokens else no tokens := by
  rw [at?_bind]
  split <;> rfl

theorem ite_at?_bind {α β : Type} (isWanted : TokenKind → Bool)
    (yes no : Parser α) (next : α → Parser β) :
    (at? isWanted >>= fun wanted => if wanted = true then yes else no) >>=
        next =
      (at? isWanted >>= fun wanted =>
        if wanted = true then yes >>= next else no >>= next) := by
  rw [bind_assoc]
  congr 1
  funext wanted
  split <;> rfl

@[simp] theorem advance_nil :
    advance [] = .error ⟨.endOfTokens, ⟨0, 0⟩⟩ := rfl

@[simp] theorem advance_cons (token : Token) (rest : List Token) :
    advance (token :: rest) = .ok (token, rest) := rfl

@[simp] theorem advance_eq_ok_iff {tokens rest : List Token} {token : Token} :
    advance tokens = .ok (token, rest) ↔ tokens = token :: rest := by
  cases tokens with
  | nil => simp
  | cons first others => simp [eq_comm]

@[simp] theorem expect_apply (kind : TokenKind) (token : Token)
    (rest : List Token) :
    expect kind (token :: rest) =
      if token.kind = kind then .ok (token, rest)
      else .error ⟨.mismatch kind token.kind, token.span⟩ := by
  show (if token.kind = kind then pure token
    else fail (.mismatch kind token.kind) token.span : Parser Token) rest = _
  split <;> rfl

@[simp] theorem expect_eq_ok_iff {kind : TokenKind} {tokens rest : List Token}
    {token : Token} :
    expect kind tokens = .ok (token, rest) ↔
      tokens = token :: rest ∧ token.kind = kind := by
  cases tokens with
  | nil =>
      refine ⟨fun h => ?_, fun h => nomatch h.1⟩
      cases (show Except.error _ = Except.ok (token, rest) from h)
  | cons first others =>
      rw [expect_apply]
      constructor
      · intro h
        split at h
        · cases h
          exact ⟨rfl, ‹_›⟩
        · cases h
      · rintro ⟨eq, rfl⟩
        cases eq
        rw [if_pos rfl]

theorem expect_cons {kind : TokenKind} {token : Token} (rest : List Token)
    (h : token.kind = kind) :
    expect kind (token :: rest) = .ok (token, rest) :=
  expect_eq_ok_iff.mpr ⟨rfl, h⟩

/-! ## Arguments -/

theorem arguments_apply (expression : Parser Tree) (rounds : Nat)
    (tokens : List Token) :
    arguments expression (rounds + 1) tokens =
      (expression tokens >>= fun argument =>
        advance argument.2 >>= fun token =>
          match token.1.kind with
          | .comma =>
              arguments expression rounds token.2 >>= fun rest =>
                .ok (argument.1 :: leaf .comma token.1 :: rest.1, rest.2)
          | .rparen => .ok ([argument.1, leaf .rparen token.1], token.2)
          | other => .error ⟨.argumentEnd other, token.1.span⟩) := by
  rw [arguments, bind_apply]
  congr 1
  funext argument
  rw [bind_apply]
  congr 1
  funext token
  obtain ⟨⟨kind, span⟩, rest⟩ := token
  cases kind <;> rfl

theorem argumentList_empty (deeper : Deeper) {opening closing : Token}
    (rest : List Token) (isOpening : opening.kind = .lparen)
    (isClosing : closing.kind = .rparen) :
    argumentList deeper (opening :: closing :: rest) =
      .ok (.node .arguments (opening.span.through closing.span)
        [leaf .lparen opening, leaf .rparen closing], rest) := by
  obtain ⟨kind, span⟩ := opening
  obtain ⟨kind', span'⟩ := closing
  cases isOpening
  cases isClosing
  rfl

def argumentsNode (opening : Token) (items : List Tree) : Tree :=
  .node .arguments
    (opening.span.through
      (((leaf .lparen opening :: items).getLast?.map Tree.span).getD
        opening.span))
    (leaf .lparen opening :: items)

theorem argumentList_items (deeper : Deeper) {opening : Token}
    {tokens : List Token} (isOpening : opening.kind = .lparen)
    (nonempty : startsWith (· = .rparen) tokens = false) :
    argumentList deeper (opening :: tokens) =
      (arguments deeper.expression (tokens.length + 1) tokens >>= fun items =>
        .ok (argumentsNode opening items.1, items.2)) := by
  rw [argumentList, bind_apply, expect_cons _ isOpening, ok_bind]
  refine (ite_at?_apply _ _ _ tokens).trans ?_
  rw [nonempty]
  rfl

theorem primary_apply (deeper : Deeper) (token : Token)
    (rest : List Token) :
    primary deeper (token :: rest) =
      match token.kind with
      | .int _ => .ok (leaf .number token, rest)
      | .kwTrue | .kwFalse => .ok (leaf .boolean token, rest)
      | .ident _ =>
          if startsWith (· = .lparen) rest then
            argumentList deeper rest >>= fun args =>
              .ok (.node .application (token.span.through args.1.span)
                [leaf .name token, args.1], args.2)
          else .ok (leaf .name token, rest)
      | .lparen =>
          if startsWith (· = .rparen) rest then
            advance rest >>= fun closing =>
              .error ⟨.emptyParens, token.span.through closing.1.span⟩
          else
            deeper.expression rest >>= fun inner =>
              expect .rparen inner.2 >>= fun closing =>
                .ok (.node
                  (if inner.1.kind.isFormula then .formulaParens
                    else .arithParens)
                  (token.span.through closing.1.span)
                  [leaf .lparen token, inner.1, leaf .rparen closing.1],
                  closing.2)
      | other => .error ⟨.notAnExpression other, token.span⟩ := by
  obtain ⟨kind, span⟩ := token
  rw [primary, bind_apply, advance_cons, ok_bind]
  cases kind with
  | ident text => exact ite_at?_apply _ _ _ rest
  | lparen => exact ite_at?_apply _ _ _ rest
  | _ => rfl

theorem unary_apply (deeper : Deeper) (tokens : List Token) :
    unary deeper tokens =
      if startsWith TokenKind.isSum tokens then
        advance tokens >>= fun sign =>
          deeper.operand sign.2 >>= fun operand =>
            .ok (.node .signed (sign.1.span.through operand.1.span)
              [leaf .arithOp sign.1, operand.1], operand.2)
      else primary deeper tokens := by
  exact ite_at?_apply _ _ _ tokens

theorem comparison_apply (deeper : Deeper) (tokens : List Token) :
    comparison deeper tokens =
      (sum deeper tokens >>= fun left =>
        if startsWith TokenKind.isComparison left.2 then
          advance left.2 >>= fun op =>
            sum deeper op.2 >>= fun right =>
              if startsWith TokenKind.isComparison right.2 then
                .error ⟨.chainedComparison,
                  (right.2.head?.map Token.span).getD ⟨0, 0⟩⟩
              else
                .ok (binary .comparison .compareOp left.1 op.1 right.1,
                  right.2)
        else .ok left) := by
  rw [comparison, bind_apply]
  congr 1
  funext left
  refine (ite_at?_apply _ _ _ left.2).trans ?_
  congr 1
  rw [bind_apply]
  congr 1
  funext op
  rw [bind_apply]
  congr 1
  funext right
  exact ite_at?_apply _ _ _ right.2

theorem negation_apply (deeper : Deeper) (tokens : List Token) :
    negation deeper tokens =
      if startsWith (· = .bang) tokens then
        advance tokens >>= fun bang =>
          deeper.negand bang.2 >>= fun negand =>
            .ok (.node .negation (bang.1.span.through negand.1.span)
              [leaf .bang bang.1, negand.1], negand.2)
      else comparison deeper tokens := by
  exact ite_at?_apply _ _ _ tokens

theorem implication_apply (deeper : Deeper) (tokens : List Token) :
    implication deeper tokens =
      (disjunction deeper tokens >>= fun left =>
        if startsWith (· = .implies) left.2 then
          advance left.2 >>= fun op =>
            deeper.expression op.2 >>= fun right =>
              .ok (binary .implication .logicOp left.1 op.1 right.1, right.2)
        else .ok left) := by
  rw [implication, bind_apply]
  congr 1
  funext left
  exact ite_at?_apply _ _ _ left.2

/-! ## Declarations -/

theorem moreFormulas_zero (tokens : List Token) :
    moreFormulas 0 tokens =
      if startsWith (· = .comma) tokens then
        advance tokens >>= fun comma =>
          .error ⟨.tooDeep, (comma.2.head?.map Token.span).getD ⟨0, 0⟩⟩
      else .ok ([], tokens) := by
  exact ite_at?_apply _ _ _ tokens

theorem moreFormulas_succ (room : Nat) (tokens : List Token) :
    moreFormulas (room + 1) tokens =
      if startsWith (· = .comma) tokens then
        advance tokens >>= fun comma =>
          (Deeper.ofRoom room).expression comma.2 >>= fun formula =>
            moreFormulas room formula.2 >>= fun rest =>
              .ok (formula.1 :: rest.1, rest.2)
      else .ok ([], tokens) := by
  exact ite_at?_apply _ _ _ tokens

theorem assertion_apply (tokens : List Token) :
    assertion tokens =
      (expect .lbrace tokens >>= fun opening =>
        if startsWith (· = .rbrace) opening.2 then
          advance opening.2 >>= fun closing =>
            .error ⟨.emptyAssertion,
              opening.1.span.through closing.1.span⟩
        else
          (Deeper.ofRoom maxNesting).expression opening.2 >>= fun first =>
            moreFormulas maxNesting first.2 >>= fun rest =>
              expect .rbrace rest.2 >>= fun closing =>
                .ok (.node .assertion
                  (opening.1.span.through closing.1.span)
                  (first.1 :: rest.1), closing.2)) := by
  rw [assertion, bind_apply]
  congr 1
  funext opening
  exact ite_at?_apply _ _ _ opening.2

theorem statement_apply (token : Token) (rest : List Token) :
    statement (token :: rest) =
      match token.kind with
      | .kwSkip =>
          expect .semi rest >>= fun semi =>
            .ok (.leaf .skip (token.span.through semi.1.span), semi.2)
      | .ident _ =>
          expect .assign rest >>= fun op =>
            (Deeper.ofRoom maxNesting).expression op.2 >>= fun value =>
              expect .semi value.2 >>= fun semi =>
                .ok (.node .assignment (token.span.through semi.1.span)
                  [leaf .name token, leaf .assignOp op.1, value.1], semi.2)
      | other => .error ⟨.notACommand other, token.span⟩ := by
  obtain ⟨kind, span⟩ := token
  rw [statement, bind_apply, advance_cons, ok_bind]
  cases kind <;> rfl

theorem statements_apply (rounds : Nat) (tokens : List Token) :
    statements (rounds + 1) tokens =
      if startsWith (· = .eof) tokens then .ok ([], tokens)
      else
        statement tokens >>= fun first =>
          statements rounds first.2 >>= fun rest =>
            .ok (first.1 :: rest.1, rest.2) := by
  exact ite_at?_apply _ _ _ tokens

theorem command_apply (tokens : List Token) :
    command tokens =
      (statements (tokens.length + 1) tokens >>= fun items =>
        match items.1 with
        | [] =>
            .error ⟨.nothing, (items.2.head?.map Token.span).getD ⟨0, 0⟩⟩
        | first :: rest =>
            .ok (.node .command
              (first.span.through
                ((rest.getLast?.map Tree.span).getD first.span))
              (first :: rest), items.2)) := by
  show (statements (tokens.length + 1) tokens >>= fun items => _) = _
  congr 1
  funext items
  obtain ⟨trees, rest⟩ := items
  cases trees <;> rfl

theorem declaration_apply (tokens : List Token) :
    declaration tokens =
      ((if startsWith (· = .lbrace) tokens then assertion tokens
        else command tokens) >>= fun body =>
        if startsWith (· = .eof) body.2 then
          .ok (.node .declaration body.1.span [body.1], body.2)
        else
          advance body.2 >>= fun token =>
            .error ⟨.trailing token.1.kind, token.1.span⟩) := by
  have whole (body : Tree × List Token) :=
    ite_at?_apply (· = .eof)
      (pure (Tree.node .declaration body.1.span [body.1]))
      (advance >>= fun token => fail (.trailing token.kind) token.span)
      body.2
  rw [declaration, ite_at?_apply]
  split
  · rw [bind_apply]
    congr 1
    funext body
    exact whole body
  · rw [bind_apply]
    congr 1
    funext body
    exact whole body

end ProofOutline.Parser
