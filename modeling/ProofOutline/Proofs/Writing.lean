import ProofOutline.Proofs.Parser.Chain
import ProofOutline.Proofs.Printable

/-!
# Printed syntax and its derivations

Printed syntax is split into tokens again, wherever it stands, and these have
a derivation that denotes the syntax that was printed.
-/

namespace ProofOutline

open Text

/-! ## The room that printed syntax takes -/

def Arith.depth : Arith → Nat
  | lit _ | var _ => 0
  | binary op left right =>
      if op = .times ∧ left = .lit (-1) then right.depth + 1
      else max left.depth (right.depth + 1) + 1

def Formula.depth : Formula → Nat
  | truth _ | predicate _ [] => 0
  | predicate _ args => (args.map Arith.depth).foldr max 0 + 1
  | neg body => body.depth + 1
  | connect _ left right => max left.depth (right.depth + 1) + 1
  | compare _ left right => max left.depth right.depth + 1

def Primitive.depth : Primitive → Nat
  | assign _ value => value.depth + 1
  | skip => 0

/-! ## Texts in front of others -/

def Breaks (rest : List Char) : Prop :=
  ∀ kind : TokenKind, kind.EndsBefore rest

theorem breaks_cons {c : Char} (isMark : c ∈ [' ', '(', ')', ',', ';'])
    (rest : List Char) : Breaks (c :: rest) := by
  intro kind next mem
  cases mem
  simp only [List.mem_cons, List.not_mem_nil, or_false] at isMark
  rcases isMark with rfl | rfl | rfl | rfl | rfl
  all_goals cases kind <;> rfl

/-- The text, wherever it starts, is split into tokens of this form. -/
def Splits (text : List Char) (form : List Token → Prop) : Prop :=
  ∀ offset, ∃ tokens, Lexes offset text tokens ∧ form tokens

/-- The tokens of something with the property, then tokens of this form. -/
def Followed {α : Type} (yield : α → List Token) (holds : α → Prop)
    (form : List Token → Prop) (tokens : List Token) : Prop :=
  ∃ first others, holds first ∧ form others ∧ tokens = yield first ++ others

namespace Splits

variable {text rest : List Char} {form weaker : List Token → Prop}

theorem mono (h : Splits text form)
    (implies : ∀ tokens, form tokens → weaker tokens) :
    Splits text weaker := by
  intro offset
  obtain ⟨tokens, lexed, holds⟩ := h offset
  exact ⟨tokens, lexed, implies tokens holds⟩

theorem nil :
    Splits [] fun tokens => ∃ eof, eof.kind = .eof ∧ tokens = [eof] :=
  fun offset => ⟨_, .nil offset, _, rfl, rfl⟩

theorem blank (h : Splits rest form) : Splits (' ' :: rest) form := by
  intro offset
  obtain ⟨tokens, lexed, holds⟩ := h (offset + 1)
  exact ⟨tokens, lexed.layout rfl, holds⟩

theorem token (h : Splits rest form) (kind : TokenKind)
    (proper : kind.Proper) (ends : kind.EndsBefore rest) :
    Splits (kind.spelling.toList ++ rest)
      (Followed (fun token => [token]) (·.kind = kind) form) := by
  intro offset
  obtain ⟨tokens, lexed, holds⟩ :=
    h (offset + byteLength kind.spelling.toList)
  exact ⟨_, lexed.spelling proper ends, _, tokens, rfl, holds, rfl⟩

end Splits

def Writes (holds : Phrase → Prop) (text : String) : Prop :=
  ∀ ⦃rest : List Char⦄ ⦃form : List Token → Prop⦄, Breaks rest →
    Splits rest form →
    Splits (text.toList ++ rest) (Followed Phrase.yield holds form)

/-! ## Operators -/

namespace ArithOp

def kind : ArithOp → TokenKind
  | plus => .plus
  | minus => .minus
  | times => .star
  | divide => .slash
  | modulo => .percent

@[simp] theorem spelling_kind
    (op : ArithOp) : op.kind.spelling = op.symbol := by
  cases op <;> rfl

theorem proper_kind (op : ArithOp) : op.kind.Proper := by
  cases op <;> trivial

@[simp] theorem arithOp?_kind (op : ArithOp) : op.kind.arithOp? = some op := by
  cases op <;> rfl

end ArithOp

namespace CompareOp

def kind : CompareOp → TokenKind
  | eq => .eq
  | ne => .ne
  | lt => .lt
  | le => .le
  | gt => .gt
  | ge => .ge

@[simp] theorem spelling_kind
    (op : CompareOp) : op.kind.spelling = op.symbol := by
  cases op <;> rfl

theorem proper_kind (op : CompareOp) : op.kind.Proper := by
  cases op <;> trivial

@[simp] theorem compareOp?_kind
    (op : CompareOp) : op.kind.compareOp? = some op := by
  cases op <;> rfl

@[simp] theorem isComparison_kind (op : CompareOp) :
    op.kind.isComparison = true := by
  cases op <;> rfl

end CompareOp

namespace Connective

def kind : Connective → TokenKind
  | and => .and
  | or => .or
  | implies => .implies

@[simp] theorem spelling_kind
    (op : Connective) : op.kind.spelling = op.symbol := by
  cases op <;> rfl

theorem proper_kind (op : Connective) : op.kind.Proper := by
  cases op <;> trivial

@[simp] theorem connective?_kind (op : Connective) :
    op.kind.connective? = some op := by
  cases op <;> rfl

end Connective

section DerivesInfixed

variable {left right : Phrase} {token : Token}

private theorem Derives.infixed_arith {op : ArithOp}
    (isOp : token.kind = op.kind)
    (first : Derives .unary left) (second : Derives .unary right) :
    Derives .implication (.infixed left token right) := by
  have sum (isSum : token.kind.isSum = true) :
      Derives .sum (.infixed left token right) :=
    .add (first.mono (by decide)) isSum (second.mono (by decide))
  have product (isProduct : token.kind.isProduct = true) :
      Derives .product (.infixed left token right) :=
    .multiply (first.mono (by decide)) isProduct second
  cases op with
  | plus | minus =>
      exact (sum (by rw [isOp]; rfl)).mono (by decide)
  | times | divide | modulo =>
      exact (product (by rw [isOp]; rfl)).mono (by decide)

private theorem Derives.infixed_compare {op : CompareOp}
    (isOp : token.kind = op.kind) (first : Derives .unary left)
    (second : Derives .unary right) :
    Derives .implication (.infixed left token right) := by
  have isComparison : token.kind.isComparison = true := by
    rw [isOp, op.isComparison_kind]
  have derived : Derives .comparison (.infixed left token right) :=
    .compare (first.mono (by decide)) isComparison (second.mono (by decide))
  exact derived.mono (by decide)

private theorem Derives.infixed_connect {op : Connective}
    (isOp : token.kind = op.kind) (first : Derives .negation left)
    (second : Derives .negation right) :
    Derives .implication (.infixed left token right) := by
  cases op with
  | and =>
      have derived : Derives .conjunction (.infixed left token right) :=
        .and (first.mono (by decide)) isOp second
      exact derived.mono (by decide)
  | or =>
      have derived : Derives .disjunction (.infixed left token right) :=
        .or (first.mono (by decide)) isOp (second.mono (by decide))
      exact derived.mono (by decide)
  | implies =>
      exact .implies (first.mono (by decide)) isOp (second.mono (by decide))

end DerivesInfixed

section CostInfixed

variable {left right : Phrase} {token : Token}

private theorem Phrase.cost_infixed_arith {op : ArithOp}
    (isOp : token.kind = op.kind)
    (unlinked : ∀ stratum, left.links stratum = 0) :
    (infixed left token right).cost = max left.cost (right.cost + 1) := by
  cases op <;>
    simp [cost, isOp, ArithOp.kind, TokenKind.chain?, unlinked, Nat.add_comm]

private theorem Phrase.cost_infixed_connect {op : Connective}
    (isOp : token.kind = op.kind)
    (unlinked : ∀ stratum, left.links stratum = 0) :
    (infixed left token right).cost = max left.cost (right.cost + 1) := by
  cases op <;>
    simp [cost, isOp, Connective.kind, TokenKind.chain?, unlinked,
      Nat.add_comm]

end CostInfixed

namespace Writes

variable {first second : Phrase → Prop} {left right text : String}

theorem mono (writes : Writes first text)
    (implies : ∀ phrase, first phrase → second phrase) :
    Writes second text := by
  intro rest form breaks after
  refine (writes breaks after).mono ?_
  rintro _ ⟨phrase, others, holds, follows, rfl⟩
  exact ⟨phrase, others, implies phrase holds, follows, rfl⟩

theorem joined (writesLeft : Writes first left) {kind : TokenKind}
    (proper : kind.Proper) (writesRight : Writes second right) :
    Writes
      (fun phrase => ∃ op leftPhrase rightPhrase,
        phrase = .infixed leftPhrase op rightPhrase ∧ op.kind = kind ∧
        first leftPhrase ∧ second rightPhrase)
      (left ++ " " ++ kind.spelling ++ " " ++ right) := by
  intro rest form breaks after
  have operated := (writesRight breaks after).blank.token kind proper
    (breaks_cons (by decide) _ kind)
  have before := writesLeft (breaks_cons (by decide) _) operated.blank
  have text : (left ++ " " ++ kind.spelling ++ " " ++ right).toList ++ rest =
      left.toList ++ ' ' :: (kind.spelling.toList ++
        ' ' :: (right.toList ++ rest)) := by
    simp [String.toList_append]
  rw [text]
  refine before.mono ?_
  rintro _ ⟨leftPhrase, _, isLeft, ⟨op, _, isOp, ⟨rightPhrase, others,
    isRight, holds, rfl⟩, rfl⟩, rfl⟩
  refine ⟨.infixed leftPhrase op rightPhrase, others,
    ⟨op, leftPhrase, rightPhrase, rfl, isOp, isLeft, isRight⟩, holds, ?_⟩
  simp [Phrase.yield]

theorem bracketed (writes : Writes first text) :
    Writes
      (fun phrase => ∃ opening inner closing,
        phrase = .bracketed opening inner closing ∧
        opening.kind = .lparen ∧ closing.kind = .rparen ∧ first inner)
      ("(" ++ text ++ ")") := by
  intro rest form _ after
  have closed := after.token .rparen trivial fun _ _ => rfl
  have stated := writes (breaks_cons (by decide) _) closed
  have opened := stated.token .lparen trivial fun _ _ => rfl
  have chars : ("(" ++ text ++ ")").toList ++ rest =
      '(' :: (text.toList ++ ')' :: rest) := by
    simp [String.toList_append]
  rw [chars]
  refine opened.mono ?_
  rintro _ ⟨opening, _, isOpening, ⟨inner, _, holds, ⟨closing, others,
    isClosing, follows, rfl⟩, rfl⟩, rfl⟩
  refine ⟨.bracketed opening inner closing, others,
    ⟨opening, inner, closing, rfl, isOpening, isClosing, holds⟩, follows, ?_⟩
  simp [Phrase.yield]

theorem infixed (writesLeft : Writes first left) {kind : TokenKind}
    (proper : kind.Proper) (writesRight : Writes second right) :
    Writes
      (fun phrase => ∃ opening closing op leftPhrase rightPhrase,
        phrase = .bracketed opening (.infixed leftPhrase op rightPhrase)
          closing ∧
        opening.kind = .lparen ∧ closing.kind = .rparen ∧ op.kind = kind ∧
        first leftPhrase ∧ second rightPhrase)
      ("(" ++ left ++ " " ++ kind.spelling ++ " " ++ right ++ ")") := by
  have text : "(" ++ left ++ " " ++ kind.spelling ++ " " ++ right ++ ")" =
      "(" ++ (left ++ " " ++ kind.spelling ++ " " ++ right) ++ ")" := by
    simp only [String.append_assoc]
  rw [text]
  refine (writesLeft.joined proper writesRight).bracketed.mono ?_
  rintro _ ⟨opening, _, closing, rfl, isOpening, isClosing, op, leftPhrase,
    rightPhrase, rfl, isOp, isLeft, isRight⟩
  exact ⟨opening, closing, op, leftPhrase, rightPhrase, rfl, isOpening,
    isClosing, isOp, isLeft, isRight⟩

end Writes

/-! ## Arithmetic expressions -/

theorem Name.exists_start (name : Name) :
    ∃ c rest, isNameStart c = true ∧ name.text.toList = c :: rest := by
  have valid := name.valid
  cases eq : name.text.toList with
  | nil =>
      rw [eq] at valid
      cases valid
  | cons c rest =>
      rw [eq, isNameText, Bool.and_eq_true] at valid
      exact ⟨c, rest, valid.1, rfl⟩

@[simp] theorem TokenKind.name?_ident (name : Name) :
    (TokenKind.ident name.text).name? = some name :=
  dif_pos name.valid

/--
An operand that stands for the expression.  It is not itself a chain, so an
operator behind it starts one.
-/
structure Phrase.StandsForArith (expr : Arith) (phrase : Phrase) : Prop where
  derived : Derives .unary phrase
  denotes : phrase.arith? = some expr
  cost : phrase.cost = expr.depth
  unlinked : ∀ stratum, phrase.links stratum = 0

namespace Arith

theorem writes_lit {value : Word} (printable : (lit value).Printable) :
    Writes (Phrase.StandsForArith (.lit value)) (lit value).render := by
  obtain ⟨n, isNatural⟩ := Int.eq_ofNat_of_zero_le printable
  have text : (lit value).render = n.repr := by
    rw [render, Word.render, isNatural]
    rfl
  have digits : n.repr.toList = Nat.toDigits 10 n := Nat.toList_repr
  have proper : (TokenKind.int n.repr).Proper := by
    rw [TokenKind.Proper, digits, List.all_eq_true]
    exact ⟨Nat.toDigits_ne_nil,
      fun _ => Nat.isDigit_of_mem_toDigits (by decide) (by decide)⟩
  have literal : (TokenKind.int n.repr).literal? = some value := by
    have same : digitsValue (Nat.toDigits 10 n) = n :=
      Nat.ofDigitChars_toDigits (by decide) (by decide)
    rw [TokenKind.literal?, readInteger?_digits proper.1 proper.2, digits,
      same, Option.bind_some, Word.ofInt?_eq_some_iff, isNatural]
  intro rest form breaks after
  rw [text]
  refine (after.token (.int n.repr) proper (breaks _)).mono ?_
  rintro _ ⟨token, others, isNumber, holds, rfl⟩
  refine ⟨.atom token, others, ⟨.primary (.number isNumber), ?_, rfl,
    fun _ => rfl⟩, holds, rfl⟩
  rw [Phrase.arith?, isNumber, literal]
  rfl

private theorem writes_var {name : Name} (printable : (var name).Printable) :
    Writes (Phrase.StandsForArith (.var name)) (var name).render := by
  intro rest form breaks after
  have proper : (TokenKind.ident name.text).Proper := ⟨name.valid, printable⟩
  refine (after.token (.ident name.text) proper (breaks _)).mono ?_
  rintro _ ⟨token, others, isName, holds, rfl⟩
  refine ⟨.atom token, others, ⟨.primary (.name isName), ?_, rfl,
    fun _ => rfl⟩, holds, rfl⟩
  rw [Phrase.arith?, isName, TokenKind.name?_ident]
  rfl

theorem writes_negate {expr : Arith}
    (writes : Writes (Phrase.StandsForArith expr) expr.render) :
    Writes (Phrase.StandsForArith expr.negate) expr.negate.render := by
  intro rest form breaks after
  have text : expr.negate.render.toList ++ rest =
      '-' :: (expr.render.toList ++ rest) := by
    rw [negate, render, if_pos ⟨rfl, rfl⟩, String.toList_append]
    rfl
  rw [text]
  refine ((writes breaks after).token .minus trivial fun _ _ => rfl).mono ?_
  rintro _ ⟨op, _, isMinus, ⟨body, others, stands, holds, rfl⟩, rfl⟩
  have isSum : op.kind.isSum = true := by
    rw [isMinus]
    rfl
  refine ⟨.prefixed op body, others, ⟨.sign isSum stands.derived, ?_, ?_,
    fun _ => rfl⟩, holds, rfl⟩
  · rw [Phrase.arith?, stands.denotes, Option.bind_some, isMinus]
  · rw [Phrase.cost, stands.cost, negate, depth, if_pos ⟨rfl, rfl⟩]

private theorem writes_binary {op : ArithOp} {left right : Arith}
    (notNegation : ¬(op = .times ∧ left = .lit (-1)))
    (first : Writes (Phrase.StandsForArith left) left.render)
    (second : Writes (Phrase.StandsForArith right) right.render) :
    Writes (Phrase.StandsForArith (.binary op left right))
      (binary op left right).render := by
  intro rest form breaks after
  rw [render, if_neg notNegation, ← op.spelling_kind]
  refine (first.infixed op.proper_kind second breaks after).mono ?_
  rintro _ ⟨_, others, ⟨opening, closing, token, leftPhrase, rightPhrase, rfl,
    isOpening, isClosing, isOp, isLeft, isRight⟩, holds, rfl⟩
  have inner : Derives .implication
      (.infixed leftPhrase token rightPhrase) :=
    .infixed_arith isOp isLeft.derived isRight.derived
  refine ⟨_, others, ⟨.primary (.bracketed isOpening inner isClosing), ?_, ?_,
    fun _ => rfl⟩, holds, rfl⟩
  · rw [Phrase.arith?, Phrase.arith?_infixed_eq_some_iff]
    exact ⟨op, left, right, by rw [isOp, op.arithOp?_kind], isLeft.denotes,
      isRight.denotes, rfl⟩
  · rw [Phrase.cost, Phrase.cost_infixed_arith isOp isLeft.unlinked,
      isLeft.cost, isRight.cost, depth, if_neg notNegation]

theorem writes_render {expr : Arith} (printable : expr.Printable) :
    Writes (Phrase.StandsForArith expr) expr.render := by
  induction expr with
  | lit value => exact writes_lit printable
  | var name => exact writes_var printable
  | binary op left right ihLeft ihRight =>
      obtain ⟨printableLeft, printableRight⟩ := printable
      -- Only a left operand `-1` is not printable, and it is never printed.
      by_cases isNegation : op = .times ∧ left = .lit (-1)
      · obtain ⟨rfl, rfl⟩ := isNegation
        exact writes_negate (ihRight printableRight)
      · have operand : left.Printable :=
          printableLeft.resolve_right isNegation
        exact writes_binary isNegation (ihLeft operand)
          (ihRight printableRight)

end Arith

/-! ## Formulas -/

structure Arguments.StandFor (values : List Arith) (args : Arguments) :
    Prop where
  derived : DerivesArguments args
  denotes : args.values? = some values
  cost : args.cost = (values.map Arith.depth).foldr max 0

private theorem splits_arguments {first : Arith} {others : List Arith}
    (printable : ∀ arg ∈ first :: others, arg.Printable) {rest : List Char}
    {form : List Token → Prop} (after : Splits rest form) :
    Splits ((", ".intercalate ((first :: others).map Arith.render)).toList ++
        ')' :: rest)
      (Followed Arguments.yield (Arguments.StandFor (first :: others))
        form) := by
  induction others generalizing first with
  | nil =>
      have closed := after.token .rparen trivial fun _ _ => rfl
      refine (Arith.writes_render (printable first List.mem_cons_self)
        (breaks_cons (by decide) _) closed).mono ?_
      rintro _ ⟨phrase, _, stands, ⟨closing, tokens, isClosing, holds, rfl⟩,
        rfl⟩
      refine ⟨.last phrase closing, tokens,
        ⟨.last (stands.derived.mono (by decide)) isClosing, ?_, ?_⟩, holds,
        ?_⟩
      · rw [Arguments.values?, stands.denotes]
        rfl
      · simp [Arguments.cost, stands.cost]
      · simp [Arguments.yield]
  | cons second others ih =>
      rw [List.forall_mem_cons] at printable
      have separated :=
        (ih printable.2).blank.token .comma trivial fun _ _ => rfl
      have text : (", ".intercalate
          ((first :: second :: others).map Arith.render)).toList =
            first.render.toList ++ ',' :: ' ' :: (", ".intercalate
              ((second :: others).map Arith.render)).toList := by
        rw [List.map_cons, List.map_cons, String.intercalate_cons_cons]
        simp [String.toList_append]
      rw [text, List.append_assoc]
      refine (Arith.writes_render printable.1 (breaks_cons (by decide) _)
        separated).mono ?_
      rintro _ ⟨phrase, _, stands, ⟨comma, _, isComma,
        ⟨args, tokens, standFor, holds, rfl⟩, rfl⟩, rfl⟩
      refine ⟨.more phrase comma args, tokens,
        ⟨.more (stands.derived.mono (by decide)) isComma standFor.derived,
          ?_, ?_⟩, holds, ?_⟩
      · rw [Arguments.values?_more_eq_some_iff]
        exact ⟨first, second :: others, stands.denotes, standFor.denotes, rfl⟩
      · rw [Arguments.cost, stands.cost, standFor.cost]
        rfl
      · simp [Arguments.yield]

structure Phrase.StandsForFormula (formula : Formula) (phrase : Phrase) :
    Prop where
  derived : Derives .negation phrase
  denotes : phrase.formula? = some formula
  cost : phrase.cost = formula.depth
  unlinked : ∀ stratum, phrase.links stratum = 0

namespace Formula

theorem writes_truth (value : Bool) :
    Writes (Phrase.StandsForFormula (.truth value)) (truth value).render := by
  intro rest form breaks after
  cases value with
  | true =>
      refine (after.token .kwTrue trivial (breaks _)).mono ?_
      rintro _ ⟨token, others, isTrue, holds, rfl⟩
      have derived : Derives .primary (.atom token) := .truth (.inl isTrue)
      refine ⟨.atom token, others, ⟨derived.mono (by decide), ?_, rfl,
        fun _ => rfl⟩, holds, rfl⟩
      rw [Phrase.formula?, isTrue]
  | false =>
      refine (after.token .kwFalse trivial (breaks _)).mono ?_
      rintro _ ⟨token, others, isFalse, holds, rfl⟩
      have derived : Derives .primary (.atom token) := .truth (.inr isFalse)
      refine ⟨.atom token, others, ⟨derived.mono (by decide), ?_, rfl,
        fun _ => rfl⟩, holds, rfl⟩
      rw [Phrase.formula?, isFalse]

private theorem writes_predicate {name : Name} {args : List Arith}
    (printable : (predicate name args).Printable) :
    Writes (Phrase.StandsForFormula (.predicate name args))
      (predicate name args).render := by
  intro rest form _ after
  have proper : (TokenKind.ident name.text).Proper :=
    ⟨name.valid, printable.1⟩
  have text : (predicate name args).render.toList ++ rest =
      name.text.toList ++ '(' ::
        ((", ".intercalate (args.map Arith.render)).toList ++
          ')' :: rest) := by
    simp [render, String.toList_append]
  rw [text]
  cases args with
  | nil =>
      have closed := after.token .rparen trivial fun _ _ => rfl
      have opened := closed.token .lparen trivial fun _ _ => rfl
      refine (opened.token (.ident name.text) proper
        (breaks_cons (by decide) _ _)).mono ?_
      rintro _ ⟨token, _, isName, ⟨opening, _, isOpening,
        ⟨closing, others, isClosing, holds, rfl⟩, rfl⟩, rfl⟩
      have derived : Derives .primary (.emptyCall token opening closing) :=
        .emptyCall isName isOpening isClosing
      refine ⟨.emptyCall token opening closing, others,
        ⟨derived.mono (by decide), ?_, rfl, fun _ => rfl⟩, holds, rfl⟩
      rw [Phrase.formula?, isName, TokenKind.name?_ident]
      rfl
  | cons first args =>
      have listed := splits_arguments printable.2 after
      have opened := listed.token .lparen trivial fun _ _ => rfl
      refine (opened.token (.ident name.text) proper
        (breaks_cons (by decide) _ _)).mono ?_
      rintro _ ⟨token, _, isName, ⟨opening, _, isOpening,
        ⟨arguments, others, standFor, holds, rfl⟩, rfl⟩, rfl⟩
      have derived : Derives .primary (.call token opening arguments) :=
        .call isName isOpening standFor.derived
      refine ⟨.call token opening arguments, others,
        ⟨derived.mono (by decide), ?_, ?_, fun _ => rfl⟩, holds, rfl⟩
      · rw [Phrase.formula?_call_eq_some_iff]
        exact ⟨name, first :: args, by rw [isName, TokenKind.name?_ident],
          standFor.denotes, rfl⟩
      · rw [Phrase.cost, standFor.cost]
        rfl

private theorem endsBefore_render (formula : Formula) (rest : List Char) :
    TokenKind.bang.EndsBefore (formula.render.toList ++ rest) := by
  intro c mem
  cases formula with
  | truth value =>
      cases value <;> cases mem <;> rfl
  | predicate name args =>
      obtain ⟨first, others, start, text⟩ := name.exists_start
      simp only [render, String.toList_append, text, List.cons_append,
        List.head?_cons, Option.mem_def, Option.some.injEq] at mem
      subst mem
      rw [TokenKind.extendsBy, beq_eq_false_iff_ne]
      rintro rfl
      cases start
  | neg body =>
      simp [render, String.toList_append] at mem
      subst mem
      rfl
  | connect op left right =>
      simp [render, String.toList_append] at mem
      subst mem
      rfl
  | compare op left right =>
      simp [render, String.toList_append] at mem
      subst mem
      rfl

private theorem writes_neg {body : Formula}
    (writes : Writes (Phrase.StandsForFormula body) body.render) :
    Writes (Phrase.StandsForFormula (.neg body)) (neg body).render := by
  intro rest form breaks after
  have text : (neg body).render.toList ++ rest =
      '!' :: (body.render.toList ++ rest) := by
    simp [render, String.toList_append]
  rw [text]
  refine ((writes breaks after).token .bang trivial
    (body.endsBefore_render rest)).mono ?_
  rintro _ ⟨op, _, isBang, ⟨phrase, others, stands, holds, rfl⟩, rfl⟩
  refine ⟨.prefixed op phrase, others, ⟨.not isBang stands.derived, ?_, ?_,
    fun _ => rfl⟩, holds, rfl⟩
  · rw [Phrase.formula?, if_pos isBang, stands.denotes]
    rfl
  · rw [Phrase.cost, stands.cost, depth]

private theorem writes_connect {op : Connective} {left right : Formula}
    (first : Writes (Phrase.StandsForFormula left) left.render)
    (second : Writes (Phrase.StandsForFormula right) right.render) :
    Writes (Phrase.StandsForFormula (.connect op left right))
      (connect op left right).render := by
  intro rest form breaks after
  rw [render, ← op.spelling_kind]
  refine (first.infixed op.proper_kind second breaks after).mono ?_
  rintro _ ⟨_, others, ⟨opening, closing, token, leftPhrase, rightPhrase, rfl,
    isOpening, isClosing, isOp, isLeft, isRight⟩, holds, rfl⟩
  have derived : Derives .primary
      (.bracketed opening (.infixed leftPhrase token rightPhrase) closing) :=
    .bracketed isOpening
      (.infixed_connect isOp isLeft.derived isRight.derived) isClosing
  have isConnective : token.kind.connective? = some op := by
    rw [isOp, op.connective?_kind]
  refine ⟨_, others, ⟨derived.mono (by decide), ?_, ?_, fun _ => rfl⟩, holds,
    rfl⟩
  · rw [Phrase.formula?, Phrase.formula?_connect_eq_some_iff isConnective]
    exact ⟨left, right, isLeft.denotes, isRight.denotes, rfl⟩
  · rw [Phrase.cost, Phrase.cost_infixed_connect isOp isLeft.unlinked,
      isLeft.cost, isRight.cost, depth]

private theorem writes_compare {op : CompareOp} {left right : Arith}
    (printable : (compare op left right).Printable) :
    Writes (Phrase.StandsForFormula (.compare op left right))
      (compare op left right).render := by
  intro rest form breaks after
  rw [render, ← op.spelling_kind]
  have first := Arith.writes_render printable.1
  have second := Arith.writes_render printable.2
  refine (first.infixed op.proper_kind second breaks after).mono ?_
  rintro _ ⟨_, others, ⟨opening, closing, token, leftPhrase, rightPhrase, rfl,
    isOpening, isClosing, isOp, isLeft, isRight⟩, holds, rfl⟩
  have derived : Derives .primary
      (.bracketed opening (.infixed leftPhrase token rightPhrase) closing) :=
    .bracketed isOpening
      (.infixed_compare isOp isLeft.derived isRight.derived) isClosing
  have isCompare : token.kind.compareOp? = some op := by
    rw [isOp, op.compareOp?_kind]
  have isComparison : token.kind.isComparison = true := by
    rw [isOp, op.isComparison_kind]
  refine ⟨_, others, ⟨derived.mono (by decide), ?_, ?_, fun _ => rfl⟩, holds,
    rfl⟩
  · rw [Phrase.formula?, Phrase.formula?_compare_eq_some_iff isCompare]
    exact ⟨left, right, isLeft.denotes, isRight.denotes, rfl⟩
  · rw [Phrase.cost, Phrase.cost_comparison isComparison, isLeft.cost,
      isRight.cost, depth]

theorem writes_render {formula : Formula} (printable : formula.Printable) :
    Writes (Phrase.StandsForFormula formula) formula.render := by
  induction formula with
  | truth value => exact writes_truth value
  | predicate name args => exact writes_predicate printable
  | neg body ih => exact writes_neg (ih printable)
  | connect op left right ihLeft ihRight =>
      exact writes_connect (ihLeft printable.1) (ihRight printable.2)
  | compare op left right => exact writes_compare printable

end Formula

/-! ## Commands -/

structure Statement.StandsFor (primitive : Primitive) (statement : Statement) :
    Prop where
  derived : statement.Derived
  denotes : statement.primitive? = some primitive
  cost : statement.cost = primitive.depth

theorem Primitive.splits_render {primitive : Primitive}
    (printable : primitive.Printable) {rest : List Char}
    {form : List Token → Prop} (after : Splits rest form) :
    Splits (primitive.render.toList ++ rest)
      (Followed Statement.yield (Statement.StandsFor primitive) form) := by
  have ended := after.token .semi trivial fun _ _ => rfl
  cases primitive with
  | skip =>
      refine (ended.token .kwSkip trivial
        (breaks_cons (by decide) _ _)).mono ?_
      rintro _ ⟨token, _, isSkip, ⟨semi, others, isSemi, holds, rfl⟩, rfl⟩
      exact ⟨.skip token semi, others, ⟨.skip isSkip isSemi, rfl, rfl⟩, holds,
        rfl⟩
  | assign target value =>
      have proper : (TokenKind.ident target.text).Proper :=
        ⟨target.valid, printable.1⟩
      have text : (assign target value).render.toList ++ rest =
          target.text.toList ++ ' ' :: ':' :: '=' :: ' ' ::
            (value.render.toList ++ ';' :: rest) := by
        simp [render, String.toList_append]
      rw [text]
      have valued := Arith.writes_render printable.2
        (breaks_cons (by decide) _) ended
      have assigned := valued.blank.token .assign trivial fun _ _ => rfl
      refine (assigned.blank.token (.ident target.text) proper
        (breaks_cons (by decide) _ _)).mono ?_
      rintro _ ⟨name, _, isName, ⟨op, _, isAssign, ⟨phrase, _, stands,
        ⟨semi, others, isSemi, holds, rfl⟩, rfl⟩, rfl⟩, rfl⟩
      refine ⟨.assign name op phrase semi, others, ⟨.assign isName isAssign
        (stands.derived.mono (by decide)) isSemi, ?_, ?_⟩, holds, ?_⟩
      · rw [Statement.primitive?, isName, TokenKind.name?_ident,
          stands.denotes]
        rfl
      · rw [Statement.cost, stands.cost, depth]
      · simp [Statement.yield]

structure Statement.StandFor (primitives : List Primitive)
    (statements : List Statement) : Prop where
  derived : ∀ statement ∈ statements, statement.Derived
  denotes : statements.mapM Statement.primitive? = some primitives
  costs : statements.map Statement.cost = primitives.map Primitive.depth

theorem Statement.StandFor.nil : StandFor [] [] where
  derived _ mem := absurd mem List.not_mem_nil
  denotes := rfl
  costs := rfl

theorem Statement.StandFor.cons {primitive : Primitive}
    {primitives : List Primitive} {statement : Statement}
    {statements : List Statement} (rest : StandFor primitives statements)
    (first : statement.StandsFor primitive) :
    StandFor (primitive :: primitives) (statement :: statements) where
  derived := List.forall_mem_cons.mpr ⟨first.derived, rest.derived⟩
  denotes := by
    rw [List.mapM_cons, first.denotes, rest.denotes]
    rfl
  costs := by
    rw [List.map_cons, List.map_cons, first.cost, rest.costs]

theorem splits_primitives {primitives : List Primitive}
    (printable : ∀ primitive ∈ primitives, primitive.Printable)
    {rest : List Char} {form : List Token → Prop}
    (after : Splits rest form) :
    Splits (primitives.flatMap (fun primitive =>
        ' ' :: primitive.render.toList) ++ rest)
      (Followed (List.flatMap Statement.yield)
        (Statement.StandFor primitives) form) := by
  induction primitives with
  | nil =>
      refine after.mono fun tokens holds => ?_
      exact ⟨[], tokens, .nil, holds, rfl⟩
  | cons first others ih =>
      rw [List.forall_mem_cons] at printable
      rw [List.flatMap_cons, List.append_assoc]
      refine (Primitive.splits_render printable.1
        (ih printable.2)).blank.mono ?_
      rintro _ ⟨statement, _, stands, ⟨statements, tokens, standFor, holds,
        rfl⟩, rfl⟩
      refine ⟨statement :: statements, tokens, standFor.cons stands, holds, ?_⟩
      rw [List.flatMap_cons, List.append_assoc]

theorem toList_intercalate (separator first : String)
    (others : List String) :
    (separator.intercalate (first :: others)).toList =
      first.toList ++
        others.flatMap fun text => separator.toList ++ text.toList := by
  induction others generalizing first with
  | nil => simp
  | cons second others ih =>
      rw [String.intercalate_cons_cons, String.toList_append,
        String.toList_append, ih, List.flatMap_cons]
      simp

theorem Command.toList_render (command : Command) :
    command.render.toList = command.first.render.toList ++
      command.rest.flatMap fun primitive =>
        ' ' :: primitive.render.toList := by
  rw [render, primitives, List.map_cons, toList_intercalate,
    List.flatMap_map]
  rfl

end ProofOutline
