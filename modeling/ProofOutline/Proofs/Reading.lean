import ProofOutline.Tree.Walk

/-!
# Reading by recursion

What a tree denotes, by recursion on its structure.  Names, numbers and
operators are taken from the text under their nodes, and a node that does not
denote what its place asks for is refused.
-/

namespace ProofOutline

namespace Tree

variable (source : List Char)

def text (tree : Tree) : String := String.ofList (Text.slice source tree.span)

def refusal (expectation : Expectation) (tree : Tree) : ReadError :=
  ⟨expectation, tree.span, tree.text source⟩

def expecting {α : Type} (expectation : Expectation) (tree : Tree) :
    Option α → Except ReadError α
  | some value => .ok value
  | none => .error (tree.refusal source expectation)

def readName (tree : Tree) : Except ReadError Name :=
  tree.expecting source .name
    (if tree.kind = .name then Name.ofString? (tree.text source) else none)

def signed? (sign : String) (operand : Arith) : Option Arith :=
  match sign with
  | "+" => some operand
  | "-" => some operand.negate
  | _ => none

theorem signed?_eq_none {sign : String} (notPlus : sign ≠ "+")
    (notMinus : sign ≠ "-") (operand : Arith) :
    signed? sign operand = none := by
  rw [signed?]
  · exact notPlus
  · exact notMinus

def readArith : Tree → Except ReadError Arith
  | node .name span children => do
      let name ← (node .name span children).readName source
      return .var name
  | node .number span children =>
      (node .number span children).expecting source .literal
        (((Text.readInteger?
          ((node .number span children).text source).toList).bind
            Word.ofInt?).map .lit)
  | node .operation span [left, op, right] => do
      let first ← left.readArith
      let second ← right.readArith
      (node .operation span [left, op, right]).expecting source .operator
        ((ArithOp.ofSymbol? (op.text source)).map (.binary · first second))
  | node .signed span [sign, operand] => do
      let value ← operand.readArith
      (node .signed span [sign, operand]).expecting source .sign
        (signed? (sign.text source) value)
  | node .arithParens _ [_, inner, _] => inner.readArith
  | tree => .error (tree.refusal source .expression)

/-- The arguments among the children of an argument list. -/
def readItems : List Tree → Except ReadError (List Arith)
  | [] => .ok []
  | item :: rest =>
      if item.kind = .comma ∨ item.kind = .rparen then readItems rest
      else do
        let first ← (item.readArith source).mapError
          fun _ => item.refusal source .argument
        let others ← readItems rest
        return first :: others

def connected (tree op : Tree) (left right : Formula) :
    Except ReadError Formula :=
  tree.expecting source .connective
    ((Connective.ofSymbol? (op.text source)).map (.connect · left right))

def readFormula : Tree → Except ReadError Formula
  | node .boolean span children =>
      .ok (.truth ((node .boolean span children).text source == "true"))
  | node .application _ [symbol, node _ _ (_ :: items)] => do
      let name ← symbol.readName source
      let values ← readItems source items
      return .predicate name values
  | node .conjunction span [left, op, right] => do
      let first ← left.readFormula
      let second ← right.readFormula
      connected source (node .conjunction span [left, op, right]) op first
        second
  | node .disjunction span [left, op, right] => do
      let first ← left.readFormula
      let second ← right.readFormula
      connected source (node .disjunction span [left, op, right]) op first
        second
  | node .implication span [left, op, right] => do
      let first ← left.readFormula
      let second ← right.readFormula
      connected source (node .implication span [left, op, right]) op first
        second
  | node .comparison span [left, op, right] => do
      let first ← left.readArith source
      let second ← right.readArith source
      (node .comparison span [left, op, right]).expecting source .comparison
        ((CompareOp.ofSymbol? (op.text source)).map
          (.compare · first second))
  | node .negation _ [_, body] => do
      let value ← body.readFormula
      return .neg value
  | node .formulaParens _ [_, inner, _] => inner.readFormula
  | tree => .error (tree.refusal source .formula)

def readStatement : Tree → Except ReadError Primitive
  | node .assignment _ [name, _, value] => do
      let target ← name.readName source
      let value ← value.readArith source
      return .assign target value
  | node .skip _ _ => .ok .skip
  | tree => .error (tree.refusal source .command)

def readCommand (tree : Tree) : Except ReadError Command := do
  match ← tree.children.mapM (readStatement source) with
  | first :: rest => return ⟨first, rest⟩
  | [] => .error (tree.refusal source .command)

def readAssertion (tree : Tree) : Except ReadError Formula := do
  let formulas ← tree.children.mapM (readFormula source)
  tree.expecting source .formula (Formula.conjoin? formulas)

def readBody : Tree → Except ReadError Decl
  | node .assertion span children => do
      let formula ← (node .assertion span children).readAssertion source
      return .assertion ⟨String.ofList source, formula⟩
  | node .command span children => do
      let command ← (node .command span children).readCommand source
      return .program ⟨String.ofList source, command⟩
  | tree => .error (tree.refusal source .body)

def readDecl : Tree → Except ReadError Decl
  | node .declaration _ [body] => body.readBody source
  | tree => .error (tree.refusal source .declaration)

/-! ## One equation for each kind of node -/

section Equations

variable (span : Span) (children : List Tree) (left op right : Tree)

@[simp] theorem readArith_name :
    (node .name span children).readArith source = (do
      let name ← (node .name span children).readName source
      return .var name) :=
  rfl

@[simp] theorem readArith_number :
    (node .number span children).readArith source =
      (node .number span children).expecting source .literal
        (((Text.readInteger?
          ((node .number span children).text source).toList).bind
            Word.ofInt?).map .lit) :=
  rfl

@[simp] theorem readArith_operation :
    (node .operation span [left, op, right]).readArith source = (do
      let first ← left.readArith source
      let second ← right.readArith source
      (node .operation span [left, op, right]).expecting source .operator
        ((ArithOp.ofSymbol? (op.text source)).map
          (.binary · first second))) :=
  rfl

@[simp] theorem readArith_signed (sign operand : Tree) :
    (node .signed span [sign, operand]).readArith source = (do
      let value ← operand.readArith source
      (node .signed span [sign, operand]).expecting source .sign
        (signed? (sign.text source) value)) :=
  rfl

@[simp] theorem readArith_parens (opening inner closing : Tree) :
    (node .arithParens span [opening, inner, closing]).readArith source =
      inner.readArith source :=
  rfl

@[simp] theorem readFormula_application (symbol opening : Tree)
    (kind : NodeKind) (inner : Span) (items : List Tree) :
    (node .application span
      [symbol, node kind inner (opening :: items)]).readFormula source = (do
        let name ← symbol.readName source
        let values ← readItems source items
        return .predicate name values) :=
  rfl

theorem readFormula_connective {kind : NodeKind}
    (isConnective :
      kind = .conjunction ∨ kind = .disjunction ∨ kind = .implication) :
    (node kind span [left, op, right]).readFormula source = (do
      let first ← left.readFormula source
      let second ← right.readFormula source
      connected source (node kind span [left, op, right]) op first
        second) := by
  rcases isConnective with rfl | rfl | rfl <;> rfl

@[simp] theorem readFormula_comparison :
    (node .comparison span [left, op, right]).readFormula source = (do
      let first ← left.readArith source
      let second ← right.readArith source
      (node .comparison span [left, op, right]).expecting source .comparison
        ((CompareOp.ofSymbol? (op.text source)).map
          (.compare · first second))) :=
  rfl

@[simp] theorem readFormula_negation (bang body : Tree) :
    (node .negation span [bang, body]).readFormula source = (do
      let value ← body.readFormula source
      return .neg value) :=
  rfl

@[simp] theorem readFormula_parens (opening inner closing : Tree) :
    (node .formulaParens span [opening, inner, closing]).readFormula source =
      inner.readFormula source :=
  rfl

end Equations

end Tree

/-! ## Shapes -/

/-- What the children of a node are, so far as a walk depends on it. -/
def NodeKind.Shape : NodeKind → List Tree → Prop
  | .implication, children | .disjunction, children | .conjunction, children
  | .comparison, children | .operation, children | .formulaParens, children
  | .arithParens, children | .assignment, children =>
      ∃ first second third, children = [first, second, third]
  | .negation, children | .signed, children =>
      ∃ first second, children = [first, second]
  | .application, children =>
      ∃ name kind span opening items,
        children = [name, .node kind span (opening :: items)]
  | .declaration, children => ∃ body, children = [body]
  | _, _ => True

mutual

def Tree.Shaped : Tree → Prop
  | .node kind _ children => kind.Shape children ∧ Tree.AllShaped children

def Tree.AllShaped : List Tree → Prop
  | [] => True
  | tree :: rest => tree.Shaped ∧ AllShaped rest

end

@[simp] theorem Tree.allShaped_iff {trees : List Tree} :
    AllShaped trees ↔ ∀ tree ∈ trees, tree.Shaped := by
  induction trees with
  | nil => simp [AllShaped]
  | cons first rest ih => simp [AllShaped, ih]

theorem Tree.size_le_of_mem {tree : Tree} {trees : List Tree}
    (mem : tree ∈ trees) : tree.size ≤ sizeList trees := by
  induction trees with
  | nil => cases mem
  | cons first rest ih =>
      rw [sizeList]
      rcases List.mem_cons.mp mem with rfl | mem
      · exact Nat.le_add_right _ _
      · exact Nat.le_add_left_of_le (ih mem)

/-! ## Why reading fails -/

def FailsOnly {α : Type} (good : ReadError → Prop)
    (result : Except ReadError α) : Prop :=
  ∀ error, result = .error error → good error

section FailsOnly

variable {α β : Type} {good : ReadError → Prop}

theorem failsOnly_ok (value : α) : FailsOnly good (.ok value) := by
  intro error h
  cases h

theorem failsOnly_error {error : ReadError} (h : good error) :
    FailsOnly good (.error error : Except ReadError α) := by
  intro _ eq
  cases eq
  exact h

theorem FailsOnly.bind {first : Except ReadError α}
    {next : α → Except ReadError β} (h : FailsOnly good first)
    (hnext : ∀ value, FailsOnly good (next value)) :
    FailsOnly good (first >>= next) := by
  cases first with
  | error error => exact failsOnly_error (h error rfl)
  | ok value => exact hnext value

theorem failsOnly_mapM {read : α → Except ReadError β} {items : List α}
    (h : ∀ item ∈ items, FailsOnly good (read item)) :
    FailsOnly good (items.mapM read) := by
  induction items with
  | nil => exact failsOnly_ok []
  | cons first rest ih =>
      rw [List.mapM_cons]
      refine (h first List.mem_cons_self).bind fun value => ?_
      refine (ih fun item mem => h item (List.mem_cons_of_mem _ mem)).bind ?_
      exact fun values => failsOnly_ok (value :: values)

theorem failsOnly_expecting {source : List Char} {expectation : Expectation}
    {tree : Tree} {found : Option α}
    (h : found = none → good (tree.refusal source expectation)) :
    FailsOnly good (tree.expecting source expectation found) := by
  cases found with
  | some value => exact failsOnly_ok value
  | none => exact failsOnly_error (h rfl)

end FailsOnly

end ProofOutline
