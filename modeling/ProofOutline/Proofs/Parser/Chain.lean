import ProofOutline.Proofs.Grammar
import ProofOutline.Proofs.Parser.Equations

/-!
# Chains of operators

Disjunctions, conjunctions, sums and products are built alike: an operand of
the next tighter stratum, and then as many links as there are operators, each
one level deeper than the one before.  `Chain` has what the four have in
common, so that each fact about them is proved once.
-/

namespace ProofOutline

/-! ## Tightness -/

def Stratum.rank : Stratum → Nat
  | primary => 0
  | unary => 1
  | product => 2
  | sum => 3
  | comparison => 4
  | negation => 5
  | conjunction => 6
  | disjunction => 7
  | implication => 8

private theorem Stratum.eq_of_rank_eq {first second : Stratum}
    (h : first.rank = second.rank) : first = second := by
  cases first <;> cases second <;> first | rfl | cases h

private theorem Stratum.rank_le (stratum : Stratum) :
    stratum.rank ≤ Stratum.implication.rank := by
  cases stratum <;> decide

def Stratum.looser : Stratum → Stratum
  | primary => unary
  | unary => product
  | product => sum
  | sum => comparison
  | comparison => negation
  | negation => conjunction
  | conjunction => disjunction
  | disjunction => implication
  | implication => implication

private theorem Stratum.rank_looser {stratum : Stratum}
    (h : stratum ≠ .implication) : stratum.looser.rank = stratum.rank + 1 := by
  cases stratum <;> first | rfl | exact absurd rfl h

theorem Derives.looser {stratum : Stratum} {phrase : Phrase}
    (h : Derives stratum phrase) : Derives stratum.looser phrase := by
  cases stratum with
  | primary => exact .primary h
  | unary => exact .unary h
  | product => exact .product h
  | sum => exact .sum h
  | comparison => exact .comparison h
  | negation => exact .negation h
  | conjunction => exact .conjunction h
  | disjunction => exact .disjunction h
  | implication => exact h

theorem Derives.mono {tight loose : Stratum} {phrase : Phrase}
    (h : Derives tight phrase) (le : tight.rank ≤ loose.rank) :
    Derives loose phrase := by
  obtain ⟨steps, eq⟩ := Nat.exists_eq_add_of_le le
  induction steps generalizing tight with
  | zero => exact Stratum.eq_of_rank_eq eq ▸ h
  | succ steps ih =>
      have notLoosest : tight ≠ .implication := by
        rintro rfl
        have := loose.rank_le
        omega
      have rank := Stratum.rank_looser notLoosest
      exact ih h.looser (by omega) (by omega)

/--
The rank of the tightest stratum whose phrases go on when the token follows
them; above all ranks if there is none.
-/
def TokenKind.rank : TokenKind → Nat
  | lparen => 0
  | star | slash | percent => 2
  | plus | minus => 3
  | eq | ne | lt | le | gt | ge => 4
  | and => 6
  | or => 7
  | implies => 8
  | _ => 9

/-- A phrase of the stratum that ends before these tokens is complete. -/
def Stops (stratum : Stratum) (tokens : List Token) : Prop :=
  ∀ token ∈ tokens.head?, stratum.rank < token.kind.rank

theorem Stops.mono {tight loose : Stratum} {tokens : List Token}
    (h : Stops loose tokens) (le : tight.rank ≤ loose.rank) :
    Stops tight tokens :=
  fun token mem => Nat.lt_of_le_of_lt le (h token mem)

theorem stops_cons {stratum : Stratum} {token : Token} (rest : List Token)
    (h : stratum.rank < token.kind.rank) : Stops stratum (token :: rest) := by
  intro head mem
  cases mem
  exact h

theorem Stops.startsWith_eq_false {stratum : Stratum} {tokens : List Token}
    {isWanted : TokenKind → Bool} (h : Stops stratum tokens)
    (ranks : ∀ kind : TokenKind, isWanted kind = true →
      kind.rank ≤ stratum.rank) :
    Parser.startsWith isWanted tokens = false := by
  cases starts : Parser.startsWith isWanted tokens with
  | false => rfl
  | true =>
      obtain ⟨token, rest, rfl, wanted⟩ := Parser.exists_of_startsWith starts
      have above := h token rfl
      have below := ranks token.kind wanted
      omega

namespace TokenKind

theorem rank_of_chain? {kind : TokenKind} {stratum : Stratum}
    (h : kind.chain? = some stratum) : kind.rank = stratum.rank := by
  cases kind <;> cases h <;> rfl

private theorem rank_of_isProduct {kind : TokenKind}
    (h : kind.isProduct = true) :
    kind.rank = 2 := by
  cases kind <;> cases h <;> rfl

private theorem rank_of_isSum {kind : TokenKind} (h : kind.isSum = true) :
    kind.rank = 3 := by
  cases kind <;> cases h <;> rfl

theorem rank_of_isComparison {kind : TokenKind}
    (h : kind.isComparison = true) : kind.rank = 4 := by
  cases kind <;> cases h <;> rfl

end TokenKind

theorem Phrase.links_infixed_eq_zero {left right : Phrase} {op : Token}
    {stratum : Stratum} (h : op.kind.rank < stratum.rank) :
    (Phrase.infixed left op right).links stratum = 0 := by
  have other : op.kind.chain? ≠ some stratum := by
    intro same
    have := TokenKind.rank_of_chain? same
    omega
  simp [links, other]

theorem Derives.links_eq_zero {looser : Stratum} :
    ∀ {stratum : Stratum} {phrase : Phrase}, Derives stratum phrase →
      stratum.rank < looser.rank → phrase.links looser = 0
  | _, _, .implies _ op _, lt =>
      Phrase.links_infixed_eq_zero (by rw [op]; exact lt)
  | _, _, .or _ op _, lt =>
      Phrase.links_infixed_eq_zero (by rw [op]; exact lt)
  | _, _, .and _ op _, lt =>
      Phrase.links_infixed_eq_zero (by rw [op]; exact lt)
  | _, _, .compare _ op _, lt =>
      Phrase.links_infixed_eq_zero
        (by rw [TokenKind.rank_of_isComparison op]; exact lt)
  | _, _, .add _ op _, lt =>
      Phrase.links_infixed_eq_zero
        (by rw [TokenKind.rank_of_isSum op]; exact lt)
  | _, _, .multiply _ op _, lt =>
      Phrase.links_infixed_eq_zero
        (by rw [TokenKind.rank_of_isProduct op]; exact lt)
  | _, _, .disjunction h, lt => h.links_eq_zero (Nat.lt_of_succ_lt lt)
  | _, _, .conjunction h, lt => h.links_eq_zero (Nat.lt_of_succ_lt lt)
  | _, _, .negation h, lt => h.links_eq_zero (Nat.lt_of_succ_lt lt)
  | _, _, .comparison h, lt => h.links_eq_zero (Nat.lt_of_succ_lt lt)
  | _, _, .sum h, lt => h.links_eq_zero (Nat.lt_of_succ_lt lt)
  | _, _, .product h, lt => h.links_eq_zero (Nat.lt_of_succ_lt lt)
  | _, _, .unary h, lt => h.links_eq_zero (Nat.lt_of_succ_lt lt)
  | _, _, .primary h, lt => h.links_eq_zero (Nat.lt_of_succ_lt lt)
  | _, _, .not _ _, _ => rfl
  | _, _, .sign _ _, _ => rfl
  | _, _, .number _, _ => rfl
  | _, _, .truth _, _ => rfl
  | _, _, .name _, _ => rfl
  | _, _, .bracketed _ _ _, _ => rfl
  | _, _, .emptyCall _ _ _, _ => rfl
  | _, _, .call _ _ _, _ => rfl

/-! ## What chains have in common -/

namespace Parser

def ofStratum : Stratum → Deeper → Parser Tree
  | .implication => implication
  | .disjunction => disjunction
  | .conjunction => conjunction
  | .negation => negation
  | .comparison => comparison
  | .sum => sum
  | .product => product
  | .unary => unary
  | .primary => primary

def tooDeep {α : Type} : Parser α := do
  fail .tooDeep (← peekSpan)

@[simp] theorem tooDeep_apply {α : Type} (tokens : List Token) :
    (tooDeep : Parser α) tokens =
      .error ⟨.tooDeep, (tokens.head?.map Token.span).getD ⟨0, 0⟩⟩ := rfl

end Parser

open ProofOutline.Parser

/-- A stratum of chains, with its operators and its parsers. -/
structure Chain where
  stratum : Stratum
  operand : Stratum
  isLink : TokenKind → Bool
  kind : NodeKind
  opKind : NodeKind
  /-- The parser of a link and of all after it, one level down. -/
  more : Deeper → Tree → Parser Tree
  tighter : operand.rank < stratum.rank
  chain? : ∀ {kind : TokenKind}, isLink kind = true →
    kind.chain? = some stratum
  infixKind : ∀ {token : TokenKind}, isLink token = true →
    token.infixKind = kind
  leafKind : ∀ {token : TokenKind}, isLink token = true →
    token.leafKind = opKind
  derives : ∀ {left right : Phrase} {op : Token}, Derives stratum left →
    isLink op.kind = true → Derives operand right →
    Derives stratum (.infixed left op right)
  ofOperand : ∀ {phrase : Phrase}, Derives operand phrase →
    Derives stratum phrase
  parser : ∀ (deeper : Deeper) (tokens : List Token),
    ofStratum stratum deeper tokens =
      (ofStratum operand deeper tokens >>= fun left =>
        if startsWith isLink left.2 then more deeper left.1 left.2
        else .ok left)
  more_none : ∀ left : Tree, more .none left = tooDeep
  more_level : ∀ (deeper : Deeper) (left : Tree) (op : Token)
    (tokens : List Token),
    more deeper.level left (op :: tokens) =
      (ofStratum operand deeper tokens >>= fun right =>
        if startsWith isLink right.2 then
          more deeper (binary kind opKind left op right.1) right.2
        else .ok (binary kind opKind left op right.1, right.2))

namespace Chain

def goOn (chain : Chain) (deeper : Deeper) (left : Tree)
    (tokens : List Token) : Except SyntaxError (Tree × List Token) :=
  if startsWith chain.isLink tokens then chain.more deeper left tokens
  else .ok (left, tokens)

section Infixed

variable (chain : Chain) {left right : Phrase} {op : Token}
  (link : chain.isLink op.kind = true)

include link

theorem links_infixed :
    (Phrase.infixed left op right).links chain.stratum =
      left.links chain.stratum + 1 := by
  simp [Phrase.links, chain.chain? link]

theorem cost_infixed :
    (Phrase.infixed left op right).cost =
      max left.cost (left.links chain.stratum + 1 + right.cost) := by
  simp [Phrase.cost, chain.chain? link]

theorem tree_infixed :
    (Phrase.infixed left op right).tree =
      binary chain.kind chain.opKind left.tree op right.tree := by
  simp [Phrase.tree, binary, Token.leaf, Parser.leaf, chain.infixKind link,
    chain.leafKind link]

end Infixed

def disjuncts : Chain where
  stratum := .disjunction
  operand := .conjunction
  isLink := (· = .or)
  kind := .disjunction
  opKind := .logicOp
  more := Deeper.moreDisjuncts
  tighter := by decide
  chain? h := by
    cases of_decide_eq_true h
    rfl
  infixKind h := by
    cases of_decide_eq_true h
    rfl
  leafKind h := by
    cases of_decide_eq_true h
    rfl
  derives left op right := .or left (of_decide_eq_true op) right
  ofOperand := .conjunction
  parser deeper tokens := by
    rw [ofStratum, disjunction, bind_apply]
    congr 1
    funext left
    exact ite_at?_apply _ _ _ left.2
  more_none _ := rfl
  more_level deeper left op tokens := by
    show (ofStratum .conjunction deeper tokens >>= fun right => _) = _
    congr 1
    funext right
    exact ite_at?_apply _ _ _ right.2

def conjuncts : Chain where
  stratum := .conjunction
  operand := .negation
  isLink := (· = .and)
  kind := .conjunction
  opKind := .logicOp
  more := Deeper.moreConjuncts
  tighter := by decide
  chain? h := by
    cases of_decide_eq_true h
    rfl
  infixKind h := by
    cases of_decide_eq_true h
    rfl
  leafKind h := by
    cases of_decide_eq_true h
    rfl
  derives left op right := .and left (of_decide_eq_true op) right
  ofOperand := .negation
  parser deeper tokens := by
    rw [ofStratum, conjunction, bind_apply]
    congr 1
    funext left
    exact ite_at?_apply _ _ _ left.2
  more_none _ := rfl
  more_level deeper left op tokens := by
    show (ofStratum .negation deeper tokens >>= fun right => _) = _
    congr 1
    funext right
    exact ite_at?_apply _ _ _ right.2

def terms : Chain where
  stratum := .sum
  operand := .product
  isLink := TokenKind.isSum
  kind := .operation
  opKind := .arithOp
  more := Deeper.moreTerms
  tighter := by decide
  chain? := @fun kind h => by cases kind <;> cases h <;> rfl
  infixKind := @fun kind h => by cases kind <;> cases h <;> rfl
  leafKind := @fun kind h => by cases kind <;> cases h <;> rfl
  derives := .add
  ofOperand := .product
  parser deeper tokens := by
    rw [ofStratum, sum, bind_apply]
    congr 1
    funext left
    exact ite_at?_apply _ _ _ left.2
  more_none _ := rfl
  more_level deeper left op tokens := by
    show (ofStratum .product deeper tokens >>= fun right => _) = _
    congr 1
    funext right
    exact ite_at?_apply _ _ _ right.2

def factors : Chain where
  stratum := .product
  operand := .unary
  isLink := TokenKind.isProduct
  kind := .operation
  opKind := .arithOp
  more := Deeper.moreFactors
  tighter := by decide
  chain? := @fun kind h => by cases kind <;> cases h <;> rfl
  infixKind := @fun kind h => by cases kind <;> cases h <;> rfl
  leafKind := @fun kind h => by cases kind <;> cases h <;> rfl
  derives := .multiply
  ofOperand := .unary
  parser deeper tokens := by
    rw [ofStratum, product, bind_apply]
    congr 1
    funext left
    exact ite_at?_apply _ _ _ left.2
  more_none _ := rfl
  more_level deeper left op tokens := by
    show (ofStratum .unary deeper tokens >>= fun right => _) = _
    congr 1
    funext right
    exact ite_at?_apply _ _ _ right.2

end Chain

end ProofOutline
