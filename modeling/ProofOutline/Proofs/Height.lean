import ProofOutline.Proofs.Parser.Declaration
import ProofOutline.Proofs.Printable

/-!
# How tall denoted syntax is

The parser goes one level deeper for brackets, prefix operators, the right of
`=>` and every further link of a chain, and it comes back to the level of the
chain when the chain ends.  So a chain of products may be the first operand of
a chain of sums, and both of them use the room in full; with every bracket they
start anew.  The height of what a derivation denotes is thus bounded by a square
in its cost, and not by the cost itself.
-/

namespace ProofOutline

/-! ## Heights -/

/-- The longest way down, counted in operations. -/
def Arith.height : Arith → Nat
  | lit _ | var _ => 0
  | binary _ left right => max left.height right.height + 1

def Formula.height : Formula → Nat
  | truth _ => 0
  | predicate _ args => (args.map Arith.height).foldr max 0 + 1
  | neg body => body.height + 1
  | connect _ left right => max left.height right.height + 1
  | compare _ left right => max left.height right.height + 1

def Primitive.height : Primitive → Nat
  | assign _ value => value.height
  | skip => 0

/-! ## The tallest syntax in so much room -/

namespace Tallest

/-- A bracket starts two chains anew, each as long as the room inside. -/
def unary : Nat → Nat
  | 0 => 0
  | 1 => 1
  | room + 2 => unary (room + 1) + 2 * (room + 1)

def sum (room : Nat) : Nat := unary room + 2 * room

def negation (room : Nat) : Nat := sum room + 1

def implication (room : Nat) : Nat := negation room + 2 * room + 1

private theorem sum_le_unary (room : Nat) : sum room ≤ unary (room + 1) := by
  cases room with
  | zero => simp [sum, unary]
  | succ room => simp [sum, unary]

theorem unary_lt_succ (room : Nat) : unary room < unary (room + 1) := by
  cases room with
  | zero => simp [unary]
  | succ room =>
      simp only [unary]
      omega

private theorem sum_lt_succ (room : Nat) : sum room < sum (room + 1) := by
  have more := unary_lt_succ room
  simp only [sum]
  omega

theorem unary_mono {small large : Nat} (h : small ≤ large) :
    unary small ≤ unary large := by
  induction h with
  | refl => exact Nat.le_refl _
  | step _ ih => exact Nat.le_trans ih (Nat.le_of_lt (unary_lt_succ _))

theorem sum_mono {small large : Nat} (h : small ≤ large) :
    sum small ≤ sum large :=
  Nat.add_le_add (unary_mono h) (Nat.mul_le_mul_left 2 h)

theorem negation_mono {small large : Nat} (h : small ≤ large) :
    negation small ≤ negation large :=
  Nat.succ_le_succ (sum_mono h)

theorem implication_le_negation (room : Nat) :
    implication room ≤ negation (room + 1) := by
  have bracket := sum_le_unary room
  simp only [implication, negation, sum] at bracket ⊢
  omega

private theorem implication_mono {small large : Nat} (h : small ≤ large) :
    implication small ≤ implication large := by
  have inside := negation_mono h
  simp only [implication]
  omega

private theorem implication_lt_succ (room : Nat) :
    implication room < implication (room + 1) := by
  have bracket := implication_le_negation room
  simp only [implication] at bracket ⊢
  omega

theorem unary_eq (room : Nat) : unary (room + 1) = (room + 1) * room + 1 := by
  induction room with
  | zero => rfl
  | succ room ih =>
      simp only [unary, ih, Nat.add_mul, Nat.mul_add]
      omega

private theorem sum_le (room : Nat) : sum room ≤ (room + 1) * room + 1 := by
  cases room with
  | zero => decide
  | succ room =>
      simp only [sum, unary_eq, Nat.add_mul, Nat.mul_add]
      omega

private theorem implication_lt (room : Nat) :
    implication room < (room + 1) * (room + 2) + 2 := by
  have inside := sum_le room
  simp only [implication, negation, Nat.add_mul, Nat.mul_add] at inside ⊢
  omega

end Tallest

/-! ## Roofs -/

theorem Phrase.links_le_cost (stratum : Stratum) (phrase : Phrase) :
    phrase.links stratum ≤ phrase.cost := by
  cases phrase with
  | infixed left op right =>
      by_cases chain : op.kind.chain? = some stratum
      · simp only [links, cost, chain, if_true]
        omega
      · simp [links, chain]
  | _ => simp [links]

/-- The tallest expression that a phrase of the stratum can denote. -/
def Stratum.arithRoof (stratum : Stratum) (phrase : Phrase) : Nat :=
  match stratum with
  | primary | unary => Tallest.unary phrase.cost
  | product => Tallest.unary phrase.cost + phrase.links .product
  | sum => Tallest.unary phrase.cost + phrase.cost + phrase.links .sum
  | _ => Tallest.sum phrase.cost

def Stratum.formulaRoof (stratum : Stratum) (phrase : Phrase) : Nat :=
  match stratum with
  | implication => Tallest.implication phrase.cost
  | disjunction =>
      Tallest.negation phrase.cost + phrase.cost + phrase.links .disjunction
  | conjunction => Tallest.negation phrase.cost + phrase.links .conjunction
  | _ => Tallest.negation phrase.cost

structure Phrase.Low (stratum : Stratum) (phrase : Phrase) : Prop where
  arith : ∀ {expr : Arith}, phrase.arith? = some expr →
    expr.height ≤ stratum.arithRoof phrase
  formula : ∀ {formula : Formula}, phrase.formula? = some formula →
    formula.desugar.height ≤ stratum.formulaRoof phrase

theorem Chain.height_le (chain : Chain) {left right : Phrase} {op : Token}
    (link : chain.isLink op.kind = true) {roof : Nat → Nat}
    (mono : ∀ {small large : Nat}, small ≤ large → roof small ≤ roof large)
    {first second : Nat}
    (leftLow : first ≤ roof left.cost + left.links chain.stratum)
    (rightLow : second ≤ roof right.cost) :
    max first second + 1 ≤ roof (Phrase.infixed left op right).cost +
      (Phrase.infixed left op right).links chain.stratum := by
  have cost : (Phrase.infixed left op right).cost =
      max left.cost (left.links chain.stratum + 1 + right.cost) :=
    chain.cost_infixed link
  have links : (Phrase.infixed left op right).links chain.stratum =
      left.links chain.stratum + 1 := chain.links_infixed link
  have leftInside : left.cost ≤ (Phrase.infixed left op right).cost := by
    omega
  have rightInside : right.cost ≤ (Phrase.infixed left op right).cost := by
    omega
  have leftRoof := mono leftInside
  have rightRoof := mono rightInside
  omega

/-! ## Phrases that denote nothing of a sort -/

theorem TokenKind.not_of_arithOp? {kind : TokenKind} {op : ArithOp}
    (h : kind.arithOp? = some op) :
    kind.connective? = none ∧ kind.compareOp? = none := by
  cases kind <;> cases h <;> exact ⟨rfl, rfl⟩

private theorem Phrase.arith?_connect {left right : Phrase} {op : Token}
    {connective : Connective} (isOp : op.kind.connective? = some connective) :
    (infixed left op right).arith? = none := by
  refine Option.eq_none_iff_forall_not_mem.mpr fun expr denotes => ?_
  obtain ⟨operation, -, -, isArith, -⟩ :=
    Phrase.arith?_infixed_eq_some_iff.mp denotes
  rw [(TokenKind.not_of_arithOp? isArith).1] at isOp
  cases isOp

private theorem Phrase.arith?_compare {left right : Phrase} {op : Token}
    (isOp : op.kind.isComparison = true) :
    (infixed left op right).arith? = none := by
  refine Option.eq_none_iff_forall_not_mem.mpr fun expr denotes => ?_
  obtain ⟨operation, -, -, isArith, -⟩ :=
    Phrase.arith?_infixed_eq_some_iff.mp denotes
  obtain ⟨compare, isCompare⟩ := TokenKind.exists_compareOp? isOp
  rw [(TokenKind.not_of_arithOp? isArith).2] at isCompare
  cases isCompare

private theorem Phrase.formula?_operation {left right : Phrase} {op : Token}
    {operation : ArithOp} (isOp : op.kind.arithOp? = some operation) :
    (infixed left op right).formula? = none := by
  obtain ⟨notConnective, notCompare⟩ := TokenKind.not_of_arithOp? isOp
  simp [formula?, notConnective, notCompare]

/-! ## One lemma for each production -/

private theorem Phrase.height_atom {token : Token} {expr : Arith}
    (denotes : (atom token).arith? = some expr) : expr.height = 0 := by
  rw [arith?, Option.or_eq_some_iff] at denotes
  rcases denotes with literal | ⟨-, name⟩
  · obtain ⟨value, -, rfl⟩ := Option.map_eq_some_iff.mp literal
    rfl
  · obtain ⟨name, -, rfl⟩ := Option.map_eq_some_iff.mp name
    rfl

private theorem Phrase.height_sign {op : Token} {body : Phrase} {expr : Arith}
    (denotes : (prefixed op body).arith? = some expr) :
    ∃ value, body.arith? = some value ∧ expr.height ≤ value.height + 1 := by
  obtain ⟨value, isValue, signed⟩ := Option.bind_eq_some_iff.mp denotes
  refine ⟨value, isValue, ?_⟩
  split at signed
  · cases signed
    exact Nat.le_succ _
  · cases signed
    simp [Arith.negate, Arith.height]
  · cases signed

def Arguments.Low (args : Arguments) : Prop :=
  ∀ {values : List Arith}, args.values? = some values →
    ∀ value ∈ values, value.height ≤ Tallest.sum args.cost

private theorem Formula.height_desugar_predicate (name : Name)
    {args : List Arith} {roof : Nat} (low : ∀ arg ∈ args, arg.height ≤ roof) :
    (predicate name args).desugar.height ≤ roof + 2 := by
  rcases desugar_predicate name args with same | ⟨arg, _, rfl, -, expanded⟩
  · have highest := (foldr_max_le_iff Arith.height args roof).mpr low
    rw [same, height]
    omega
  · have inside := low arg List.mem_cons_self
    simp only [expanded, Interpreted.remainderByTwo, height, Arith.height,
      List.headD_cons]
    omega

namespace Phrase

variable {left right body inner : Phrase} {op opening closing : Token}

theorem Low.looser {stratum : Stratum} {phrase : Phrase}
    (low : phrase.Low stratum) : phrase.Low stratum.looser := by
  have products := phrase.links_le_cost .product
  have sums := phrase.links_le_cost .sum
  have conjuncts := phrase.links_le_cost .conjunction
  have disjuncts := phrase.links_le_cost .disjunction
  have arithRoof :
      stratum.arithRoof phrase ≤ stratum.looser.arithRoof phrase := by
    cases stratum <;> simp only [Stratum.looser, Stratum.arithRoof,
      Tallest.sum] <;> omega
  have formulaRoof :
      stratum.formulaRoof phrase ≤ stratum.looser.formulaRoof phrase := by
    cases stratum <;> simp only [Stratum.looser, Stratum.formulaRoof,
      Tallest.implication] <;> omega
  exact ⟨fun denotes => Nat.le_trans (low.arith denotes) arithRoof,
    fun denotes => Nat.le_trans (low.formula denotes) formulaRoof⟩

theorem low_atom (token : Token) : (atom token).Low .primary := by
  constructor
  · intro expr denotes
    simp [height_atom denotes]
  · intro formula denotes
    rw [formula?] at denotes
    split at denotes <;> cases denotes <;> exact Nat.zero_le _

private theorem low_bracketed (low : inner.Low .implication) :
    (bracketed opening inner closing).Low .primary :=
  ⟨fun denotes => Nat.le_trans (low.arith denotes) (Tallest.sum_le_unary _),
    fun denotes => Nat.le_trans (low.formula denotes)
      (Tallest.implication_le_negation _)⟩

private theorem low_sign (isOp : op.kind.isSum = true) (low : body.Low .unary) :
    (prefixed op body).Low .unary := by
  constructor
  · intro expr denotes
    obtain ⟨value, isValue, height⟩ := height_sign denotes
    have inside := low.arith isValue
    have more := Tallest.unary_lt_succ body.cost
    simp only [Stratum.arithRoof, cost] at inside ⊢
    omega
  · intro formula denotes
    have notBang : op.kind ≠ .bang := by
      intro same
      rw [same] at isOp
      cases isOp
    simp [formula?, notBang] at denotes

private theorem low_not (isOp : op.kind = .bang) (low : body.Low .negation) :
    (prefixed op body).Low .negation := by
  constructor
  · intro expr denotes
    simp [arith?, isOp] at denotes
  · intro formula denotes
    rw [formula?, if_pos isOp] at denotes
    obtain ⟨inner, isInner, rfl⟩ := Option.map_eq_some_iff.mp denotes
    have inside := low.formula isInner
    have more := Tallest.implication_le_negation body.cost
    simp only [Stratum.formulaRoof, Tallest.implication, cost,
      Formula.desugar, Formula.height] at inside more ⊢
    omega

private theorem low_operation (chain : Chain) {operation : ArithOp}
    (link : chain.isLink op.kind = true)
    (isOp : op.kind.arithOp? = some operation) {roof : Nat → Nat}
    (mono : ∀ {small large : Nat}, small ≤ large → roof small ≤ roof large)
    (chainRoof : ∀ phrase : Phrase, chain.stratum.arithRoof phrase =
      roof phrase.cost + phrase.links chain.stratum)
    (operandRoof : ∀ phrase : Phrase,
      chain.operand.arithRoof phrase ≤ roof phrase.cost)
    (leftLow : left.Low chain.stratum) (rightLow : right.Low chain.operand) :
    (infixed left op right).Low chain.stratum := by
  constructor
  · intro expr denotes
    obtain ⟨_, first, second, -, isLeft, isRight, rfl⟩ :=
      arith?_infixed_eq_some_iff.mp denotes
    have firstLow := leftLow.arith isLeft
    have secondLow := rightLow.arith isRight
    rw [chainRoof] at firstLow ⊢
    exact chain.height_le link mono firstLow
      (Nat.le_trans secondLow (operandRoof right))
  · intro formula denotes
    simp [formula?_operation isOp] at denotes

private theorem low_connective (chain : Chain) {connective : Connective}
    (link : chain.isLink op.kind = true)
    (isOp : op.kind.connective? = some connective) {roof : Nat → Nat}
    (mono : ∀ {small large : Nat}, small ≤ large → roof small ≤ roof large)
    (chainRoof : ∀ phrase : Phrase, chain.stratum.formulaRoof phrase =
      roof phrase.cost + phrase.links chain.stratum)
    (operandRoof : ∀ phrase : Phrase,
      chain.operand.formulaRoof phrase ≤ roof phrase.cost)
    (leftLow : left.Low chain.stratum) (rightLow : right.Low chain.operand) :
    (infixed left op right).Low chain.stratum := by
  constructor
  · intro expr denotes
    simp [arith?_connect isOp] at denotes
  · intro formula denotes
    obtain ⟨first, second, isLeft, isRight, rfl⟩ :=
      (formula?_connect_eq_some_iff isOp).mp denotes
    have firstLow := leftLow.formula isLeft
    have secondLow := rightLow.formula isRight
    rw [chainRoof] at firstLow ⊢
    exact chain.height_le link mono firstLow
      (Nat.le_trans secondLow (operandRoof right))

private theorem low_multiply (isOp : op.kind.isProduct = true)
    (leftLow : left.Low .product) (rightLow : right.Low .unary) :
    (infixed left op right).Low .product := by
  obtain ⟨operation, isArith⟩ := TokenKind.exists_arithOp?_of_isProduct isOp
  exact low_operation .factors isOp isArith Tallest.unary_mono
    (fun _ => rfl) (fun _ => Nat.le_refl _) leftLow rightLow

private theorem low_add (isOp : op.kind.isSum = true)
    (leftLow : left.Low .sum) (rightLow : right.Low .product) :
    (infixed left op right).Low .sum := by
  obtain ⟨operation, isArith⟩ := TokenKind.exists_arithOp?_of_isSum isOp
  exact low_operation .terms isOp isArith
    (fun le => Nat.add_le_add (Tallest.unary_mono le) le) (fun _ => rfl)
    (fun phrase => Nat.add_le_add_left (phrase.links_le_cost _) _)
    leftLow rightLow

private theorem low_and (isOp : op.kind = .and)
    (leftLow : left.Low .conjunction) (rightLow : right.Low .negation) :
    (infixed left op right).Low .conjunction :=
  low_connective .conjuncts (decide_eq_true isOp)
    (congrArg TokenKind.connective? isOp) Tallest.negation_mono
    (fun _ => rfl) (fun _ => Nat.le_refl _) leftLow rightLow

private theorem low_or (isOp : op.kind = .or) (leftLow : left.Low .disjunction)
    (rightLow : right.Low .conjunction) :
    (infixed left op right).Low .disjunction :=
  low_connective .disjuncts (decide_eq_true isOp)
    (congrArg TokenKind.connective? isOp)
    (fun le => Nat.add_le_add (Tallest.negation_mono le) le) (fun _ => rfl)
    (fun phrase => Nat.add_le_add_left (phrase.links_le_cost _) _)
    leftLow rightLow

private theorem low_implies (isOp : op.kind = .implies)
    (leftLow : left.Low .disjunction) (rightLow : right.Low .implication) :
    (infixed left op right).Low .implication := by
  have isConnective : op.kind.connective? = some .implies :=
    congrArg TokenKind.connective? isOp
  constructor
  · intro expr denotes
    simp [arith?_connect isConnective] at denotes
  · intro formula denotes
    obtain ⟨first, second, isLeft, isRight, rfl⟩ :=
      (formula?_connect_eq_some_iff isConnective).mp denotes
    have firstLow := leftLow.formula isLeft
    have secondLow : second.desugar.height ≤
        Tallest.implication right.cost := rightLow.formula isRight
    have disjuncts := left.links_le_cost .disjunction
    have bracket := Tallest.implication_le_negation right.cost
    have leftRoof :=
      Tallest.negation_mono (Nat.le_max_left left.cost (right.cost + 1))
    have rightRoof :=
      Tallest.negation_mono (Nat.le_max_right left.cost (right.cost + 1))
    simp only [Stratum.formulaRoof, cost_implication isOp,
      Formula.desugar, Formula.height] at firstLow ⊢
    rw [Tallest.implication]
    omega

private theorem low_compare (isOp : op.kind.isComparison = true)
    (leftLow : left.Low .sum) (rightLow : right.Low .sum) :
    (infixed left op right).Low .comparison := by
  constructor
  · intro expr denotes
    simp [arith?_compare isOp] at denotes
  · intro formula denotes
    obtain ⟨compare, isCompare⟩ := TokenKind.exists_compareOp? isOp
    obtain ⟨first, second, isLeft, isRight, rfl⟩ :=
      (formula?_compare_eq_some_iff isCompare).mp denotes
    have firstLow : first.height ≤ Tallest.sum left.cost :=
      leftLow.looser.arith isLeft
    have secondLow : second.height ≤ Tallest.sum right.cost :=
      rightLow.looser.arith isRight
    have leftRoof :=
      Tallest.sum_mono (Nat.le_max_left left.cost right.cost)
    have rightRoof :=
      Tallest.sum_mono (Nat.le_max_right left.cost right.cost)
    simp only [Stratum.formulaRoof, cost_comparison isOp, Tallest.negation,
      Formula.desugar, Formula.height]
    omega

private theorem low_emptyCall (name opening closing : Token) :
    (emptyCall name opening closing).Low .primary := by
  constructor
  · intro expr denotes
    cases denotes
  · intro formula denotes
    obtain ⟨symbol, -, rfl⟩ := Option.map_eq_some_iff.mp denotes
    rcases Formula.desugar_predicate symbol [] with same | ⟨_, _, one, -⟩
    · rw [same]
      exact Nat.le_refl _
    · cases one

private theorem low_call {name : Token} {args : Arguments} (low : args.Low) :
    (call name opening args).Low .primary := by
  constructor
  · intro expr denotes
    cases denotes
  · intro formula denotes
    obtain ⟨symbol, values, -, are, rfl⟩ :=
      formula?_call_eq_some_iff.mp denotes
    have inside := Formula.height_desugar_predicate symbol (low are)
    have more := Tallest.sum_lt_succ args.cost
    simp only [Stratum.formulaRoof, Tallest.negation, cost]
    omega

end Phrase

namespace Arguments

variable {arg : Phrase} {closing comma : Token} {rest : Arguments}

private theorem low_last (low : arg.Low .implication) :
    (last arg closing).Low := by
  intro values are value mem
  obtain ⟨only, isOnly, same⟩ := Option.bind_eq_some_iff.mp are
  cases same
  rw [List.mem_singleton] at mem
  subst mem
  exact low.arith isOnly

private theorem low_more (low : arg.Low .implication) (restLow : rest.Low) :
    (more arg comma rest).Low := by
  intro values are value mem
  obtain ⟨first, others, isFirst, areOthers, rfl⟩ :=
    values?_more_eq_some_iff.mp are
  rcases List.mem_cons.mp mem with rfl | inside
  · exact Nat.le_trans (low.arith isFirst)
      (Tallest.sum_mono (Nat.le_max_left _ _))
  · exact Nat.le_trans (restLow areOthers value inside)
      (Tallest.sum_mono (Nat.le_max_right _ _))

end Arguments

mutual

/-- One case for each production; links are counted until their chain ends. -/
theorem Derives.low : ∀ {stratum : Stratum} {phrase : Phrase},
    Derives stratum phrase → phrase.Low stratum
  | _, _, .implies left op right => Phrase.low_implies op left.low right.low
  | _, _, .disjunction inner => inner.low.looser
  | _, _, .or left op right => Phrase.low_or op left.low right.low
  | _, _, .conjunction inner => inner.low.looser
  | _, _, .and left op right => Phrase.low_and op left.low right.low
  | _, _, .negation inner => inner.low.looser
  | _, _, .not op body => Phrase.low_not op body.low
  | _, _, .comparison inner => inner.low.looser
  | _, _, .compare left op right => Phrase.low_compare op left.low right.low
  | _, _, .sum inner => inner.low.looser
  | _, _, .add left op right => Phrase.low_add op left.low right.low
  | _, _, .product inner => inner.low.looser
  | _, _, .multiply left op right => Phrase.low_multiply op left.low right.low
  | _, _, .unary inner => inner.low.looser
  | _, _, .sign op body => Phrase.low_sign op body.low
  | _, _, .primary inner => inner.low.looser
  | _, _, .number _ => Phrase.low_atom _
  | _, _, .truth _ => Phrase.low_atom _
  | _, _, .name _ => Phrase.low_atom _
  | _, _, .bracketed _ inner _ => Phrase.low_bracketed inner.low
  | _, _, .emptyCall _ _ _ => Phrase.low_emptyCall _ _ _
  | _, _, .call _ _ args => Phrase.low_call args.low

theorem DerivesArguments.low : ∀ {args : Arguments},
    DerivesArguments args → args.Low
  | _, .last arg _ => Arguments.low_last arg.low
  | _, .more arg _ rest => Arguments.low_more arg.low rest.low

end

/-! ## Declarations -/

theorem FurtherFormula.height_le {further : List FurtherFormula}
    (derived : ∀ item ∈ further, item.Derived) {formulas : List Formula}
    (read : (further.map (·.formula)).mapM Phrase.formula? = some formulas)
    {formula : Formula} (joined : Formula.conjoin? formulas = some formula)
    {room : Nat} (fits : costs further ≤ room + 1) :
    formula.desugar.height ≤ Tallest.implication room := by
  induction further generalizing formulas formula room with
  | nil =>
      cases read
      cases joined
  | cons item rest ih =>
      rw [List.forall_mem_cons] at derived
      rw [List.map_cons] at read
      obtain ⟨first, others, isFirst, areOthers, rfl⟩ :=
        exists_of_mapM_cons read
      rw [costs] at fits
      cases room with
      | zero => omega
      | succ room =>
          have firstLow := derived.1.formula.low.formula isFirst
          have inside : item.formula.cost ≤ room := by omega
          have firstRoof := Tallest.implication_mono inside
          have more := Tallest.implication_lt_succ room
          rw [Stratum.formulaRoof] at firstLow
          rcases Formula.conjoin?_cons_cases joined with
            rfl | ⟨tail, isTail, rfl⟩
          · omega
          · have restFits : costs rest ≤ room + 1 := by omega
            have tailLow := ih derived.2 areOthers isTail restFits
            simp only [Formula.desugar, Formula.height]
            omega

theorem Statement.height_le {statement : Statement}
    (derived : statement.Derived) {primitive : Primitive}
    (denotes : statement.primitive? = some primitive) {limit : Nat}
    (fits : statement.cost ≤ limit) :
    primitive.height ≤ limit * (limit - 1) + 1 := by
  cases derived with
  | skip =>
      cases denotes
      exact Nat.zero_le _
  | @assign _ _ _ _ phrase _ _ inner _ =>
      obtain ⟨target, -, denotes⟩ := Option.bind_eq_some_iff.mp denotes
      obtain ⟨value, isValue, denotes⟩ := Option.bind_eq_some_iff.mp denotes
      cases denotes
      cases limit with
      | zero => cases fits
      | succ room =>
          calc value.height
              ≤ Tallest.sum phrase.cost := inner.low.arith isValue
            _ ≤ Tallest.sum room :=
              Tallest.sum_mono (Nat.le_of_succ_le_succ fits)
            _ ≤ (room + 1) * room + 1 := Tallest.sum_le room

def Decl.height : Decl → Nat
  | assertion a => a.formula.height
  | program p => (p.command.primitives.map Primitive.height).foldr max 0

def Decl.maxHeight (limit : Nat) : Decl → Nat
  | assertion _ => limit * (limit + 1) + 2
  | program _ => limit * (limit - 1) + 1

theorem Sentence.height_le {sentence : Sentence} (derived : sentence.Derived)
    {source : String} {decl : Decl}
    (denotes : sentence.decl? source = some decl) {limit : Nat}
    (fits : sentence.cost ≤ limit) :
    decl.desugar.height ≤ decl.desugar.maxHeight limit := by
  cases derived with
  | @assertion opening closing first further _ firstDerived allDerived _ =>
      obtain ⟨formulas, read, denotes⟩ := Option.bind_eq_some_iff.mp denotes
      obtain ⟨formula, joined, denotes⟩ := Option.bind_eq_some_iff.mp denotes
      cases denotes
      obtain ⟨value, others, isValue, areOthers, rfl⟩ :=
        exists_of_mapM_cons read
      obtain ⟨firstFits, restFits⟩ := Nat.max_le.mp fits
      obtain ⟨room, rfl⟩ := Nat.exists_eq_succ_of_ne_zero
        (Nat.ne_of_gt (Nat.lt_of_lt_of_le (Nat.succ_pos _) firstFits))
      have firstLow : value.desugar.height ≤
          Tallest.implication first.cost := firstDerived.low.formula isValue
      have firstRoof :=
        Tallest.implication_mono (Nat.le_of_succ_le_succ firstFits)
      have bound := Tallest.implication_lt room
      show formula.desugar.height ≤ (room + 1) * (room + 2) + 2
      rcases Formula.conjoin?_cons_cases joined with
        rfl | ⟨tail, isTail, rfl⟩
      · omega
      · have tailLow :=
          FurtherFormula.height_le allDerived areOthers isTail restFits
        simp only [Formula.desugar, Formula.height]
        omega
  | @command first others firstDerived allDerived =>
      obtain ⟨primitives, read, denotes⟩ := Option.bind_eq_some_iff.mp denotes
      have each : ∀ primitive ∈ primitives,
          primitive.height ≤ limit * (limit - 1) + 1 := by
        refine forall_mem_of_mapM read fun statement mem primitive => ?_
        intro denotes
        have derived : statement.Derived :=
          List.forall_mem_cons.mpr ⟨firstDerived, allDerived⟩ statement mem
        exact statement.height_le derived denotes
          ((foldr_max_le_iff Statement.cost _ _).mp fits statement mem)
      cases primitives with
      | nil => cases denotes
      | cons primitive rest =>
          cases denotes
          exact (foldr_max_le_iff Primitive.height _ _).mpr each

end ProofOutline
