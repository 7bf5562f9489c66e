import ProofOutline.Formula
import ProofOutline.Proofs.Grammar

/-!
# Induction over the forms of phrases

The strata of the grammar say how operators bind.  What a phrase denotes does
not depend on them, only on which operators, names and literals it is made of.
So facts about the meaning of derived phrases are proved by induction over a
dozen forms, with no case for the steps from one stratum to the next.
-/

namespace ProofOutline

/-! ## Operators -/

namespace TokenKind

def connective? : TokenKind → Option Connective
  | .and => some .and
  | .or => some .or
  | .implies => some .implies
  | _ => none

def compareOp? : TokenKind → Option CompareOp
  | .eq => some .eq
  | .ne => some .ne
  | .lt => some .lt
  | .le => some .le
  | .gt => some .gt
  | .ge => some .ge
  | _ => none

def arithOp? : TokenKind → Option ArithOp
  | .plus => some .plus
  | .minus => some .minus
  | .star => some .times
  | .slash => some .divide
  | .percent => some .modulo
  | _ => none

theorem exists_compareOp? {kind : TokenKind} (h : kind.isComparison = true) :
    ∃ op, kind.compareOp? = some op := by
  cases kind <;> cases h <;> exact ⟨_, rfl⟩

theorem exists_arithOp?_of_isSum {kind : TokenKind} (h : kind.isSum = true) :
    ∃ op, kind.arithOp? = some op := by
  cases kind <;> cases h <;> exact ⟨_, rfl⟩

theorem exists_arithOp?_of_isProduct {kind : TokenKind}
    (h : kind.isProduct = true) : ∃ op, kind.arithOp? = some op := by
  cases kind <;> cases h <;> exact ⟨_, rfl⟩

end TokenKind

/-! ## Forms -/

section Forms

variable (good : Token → Prop) (holds : Phrase → Prop)
  (holdFor : Arguments → Prop)

/--
The phrases with the property are closed under the forms that the grammar has,
whatever the strata, where all tokens are good.
-/
structure Phrase.Inherited : Prop where
  connective {left right : Phrase} {op : Token} {connective : Connective} :
    op.kind.connective? = some connective → good op → holds left →
    holds right → holds (.infixed left op right)
  compare {left right : Phrase} {op : Token} {compare : CompareOp} :
    op.kind.compareOp? = some compare → good op → holds left →
    holds right → holds (.infixed left op right)
  operation {left right : Phrase} {op : Token} {operation : ArithOp} :
    op.kind.arithOp? = some operation → good op → holds left →
    holds right → holds (.infixed left op right)
  not {op : Token} {body : Phrase} :
    op.kind = .bang → good op → holds body → holds (.prefixed op body)
  sign {op : Token} {body : Phrase} :
    op.kind.isSum = true → good op → holds body → holds (.prefixed op body)
  number {token : Token} {digits : String} :
    token.kind = .int digits → good token → holds (.atom token)
  truth {token : Token} :
    token.kind = .kwTrue ∨ token.kind = .kwFalse → good token →
    holds (.atom token)
  name {token : Token} {text : String} :
    token.kind = .ident text → good token → holds (.atom token)
  bracketed {opening closing : Token} {inner : Phrase} :
    opening.kind = .lparen → closing.kind = .rparen → holds inner →
    holds (.bracketed opening inner closing)
  emptyCall {name opening closing : Token} {text : String} :
    name.kind = .ident text → opening.kind = .lparen →
    closing.kind = .rparen → good name →
    holds (.emptyCall name opening closing)
  call {name opening : Token} {text : String} {args : Arguments} :
    name.kind = .ident text → opening.kind = .lparen → good name →
    holdFor args → holds (.call name opening args)
  last {arg : Phrase} {closing : Token} :
    closing.kind = .rparen → holds arg → holdFor (.last arg closing)
  more {arg : Phrase} {comma : Token} {rest : Arguments} :
    comma.kind = .comma → holds arg → holdFor rest →
    holdFor (.more arg comma rest)

end Forms

section Inherited

variable {good : Token → Prop} {holds : Phrase → Prop}
  {holdFor : Arguments → Prop}

mutual

theorem Derives.inherit (h : Phrase.Inherited good holds holdFor) :
    ∀ {stratum : Stratum} {phrase : Phrase}, Derives stratum phrase →
      (∀ token ∈ phrase.yield, good token) → holds phrase
  | _, _, .implies left op right, all => by
      obtain ⟨inLeft, inOp, inRight⟩ := Phrase.forall_yield_infixed.mp all
      exact h.connective (congrArg TokenKind.connective? op) inOp
        (left.inherit h inLeft) (right.inherit h inRight)
  | _, _, .disjunction derived, all => derived.inherit h all
  | _, _, .or left op right, all => by
      obtain ⟨inLeft, inOp, inRight⟩ := Phrase.forall_yield_infixed.mp all
      exact h.connective (congrArg TokenKind.connective? op) inOp
        (left.inherit h inLeft) (right.inherit h inRight)
  | _, _, .conjunction derived, all => derived.inherit h all
  | _, _, .and left op right, all => by
      obtain ⟨inLeft, inOp, inRight⟩ := Phrase.forall_yield_infixed.mp all
      exact h.connective (congrArg TokenKind.connective? op) inOp
        (left.inherit h inLeft) (right.inherit h inRight)
  | _, _, .negation derived, all => derived.inherit h all
  | _, _, .not op body, all => by
      obtain ⟨inOp, inBody⟩ := Phrase.forall_yield_prefixed.mp all
      exact h.not op inOp (body.inherit h inBody)
  | _, _, .comparison derived, all => derived.inherit h all
  | _, _, .compare left op right, all => by
      obtain ⟨inLeft, inOp, inRight⟩ := Phrase.forall_yield_infixed.mp all
      obtain ⟨_, isOp⟩ := TokenKind.exists_compareOp? op
      exact h.compare isOp inOp (left.inherit h inLeft)
        (right.inherit h inRight)
  | _, _, .sum derived, all => derived.inherit h all
  | _, _, .add left op right, all => by
      obtain ⟨inLeft, inOp, inRight⟩ := Phrase.forall_yield_infixed.mp all
      obtain ⟨_, isOp⟩ := TokenKind.exists_arithOp?_of_isSum op
      exact h.operation isOp inOp (left.inherit h inLeft)
        (right.inherit h inRight)
  | _, _, .product derived, all => derived.inherit h all
  | _, _, .multiply left op right, all => by
      obtain ⟨inLeft, inOp, inRight⟩ := Phrase.forall_yield_infixed.mp all
      obtain ⟨_, isOp⟩ := TokenKind.exists_arithOp?_of_isProduct op
      exact h.operation isOp inOp (left.inherit h inLeft)
        (right.inherit h inRight)
  | _, _, .unary derived, all => derived.inherit h all
  | _, _, .sign op body, all => by
      obtain ⟨inOp, inBody⟩ := Phrase.forall_yield_prefixed.mp all
      exact h.sign op inOp (body.inherit h inBody)
  | _, _, .primary derived, all => derived.inherit h all
  | _, _, .number token, all => h.number token (all _ List.mem_cons_self)
  | _, _, .truth token, all => h.truth token (all _ List.mem_cons_self)
  | _, _, .name token, all => h.name token (all _ List.mem_cons_self)
  | _, _, .bracketed opening inner closing, all =>
      h.bracketed opening closing
        (inner.inherit h (Phrase.forall_yield_bracketed.mp all).2.1)
  | _, _, .emptyCall name opening closing, all =>
      h.emptyCall name opening closing (all _ List.mem_cons_self)
  | _, _, .call name opening args, all => by
      obtain ⟨inName, -, inArgs⟩ := Phrase.forall_yield_call.mp all
      exact h.call name opening inName (args.inherit h inArgs)

theorem DerivesArguments.inherit (h : Phrase.Inherited good holds holdFor) :
    ∀ {args : Arguments}, DerivesArguments args →
      (∀ token ∈ args.yield, good token) → holdFor args
  | _, .last arg closing, all =>
      h.last closing (arg.inherit h (Arguments.forall_yield_last.mp all).1)
  | _, .more arg comma rest, all => by
      obtain ⟨inArg, -, inRest⟩ := Arguments.forall_yield_more.mp all
      exact h.more comma (arg.inherit h inArg) (rest.inherit h inRest)

end

end Inherited

end ProofOutline
