import ProofOutline.Proofs.Arena
import ProofOutline.Proofs.Parser.Equations

/-!
# Walks read by recursion

A walk over a tree comes to the same as reading the tree by recursion on its
structure, errors included, and a walk that succeeds has its cursor back where
it started.  The tree needs only to have the shape that the parser gives it.
-/

namespace ProofOutline

/-- The walk gives what reading the tree gives and stays where it is. -/
def Walk.Reads {α : Type} (walk : Walk α) (tree : Tree)
    (result : Except ReadError α) : Prop :=
  ∀ cursor : Cursor, cursor.Stands tree →
    walk cursor = result.map fun value => (value, cursor)

namespace Walk

variable {α β : Type}

theorem bind_apply (first : Walk α) (next : α → Walk β) (cursor : Cursor) :
    (first >>= next) cursor =
      (first cursor >>= fun found => next found.1 found.2) := rfl

theorem reads_pure (value : α) (tree : Tree) :
    (pure value : Walk α).Reads tree (.ok value) :=
  fun _ _ => rfl

theorem Reads.bind {walk : Walk α} {next : α → Walk β} {tree : Tree}
    {result : Except ReadError α} {final : α → Except ReadError β}
    (h : walk.Reads tree result)
    (after : ∀ value, (next value).Reads tree (final value)) :
    (walk >>= next).Reads tree (result >>= final) := by
  intro cursor stands
  rw [bind_apply, h cursor stands]
  cases result with
  | error error => rfl
  | ok value => exact after value cursor stands

theorem Reads.andThen {walk : Walk α} {next : α → Walk β} {tree : Tree}
    {value : α} {final : Except ReadError β} (h : walk.Reads tree (.ok value))
    (after : (next value).Reads tree final) :
    (walk >>= next).Reads tree final := by
  intro cursor stands
  rw [bind_apply, h cursor stands]
  exact after cursor stands

theorem reads_kind (tree : Tree) : kind.Reads tree (.ok tree.kind) := by
  intro cursor stands
  show Except.ok (cursor.kind, cursor) = _
  rw [stands.kind]
  rfl

theorem reads_text (source : List Char) (tree : Tree) :
    (text source).Reads tree (.ok (tree.text source)) := by
  intro cursor stands
  show Except.ok (String.ofList (Text.slice source cursor.span), cursor) = _
  rw [stands.span]
  rfl

theorem reads_refuse (source : List Char) (expectation : Expectation)
    (tree : Tree) :
    (refuse source expectation : Walk α).Reads tree
      (.error (tree.refusal source expectation)) := by
  intro cursor stands
  show Except.error (⟨expectation, cursor.span,
    String.ofList (Text.slice source cursor.span)⟩ : ReadError) = _
  rw [stands.span]
  rfl

theorem reads_name (source : List Char) (tree : Tree) :
    (name source).Reads tree (tree.readName source) := by
  refine (reads_kind tree).andThen ?_
  rw [Tree.readName]
  by_cases isName : tree.kind = .name
  · rw [if_neg (not_not_intro isName), if_pos isName]
    refine (reads_text source tree).andThen ?_
    cases Name.ofString? (tree.text source) with
    | none => exact reads_refuse source .name tree
    | some name => exact reads_pure name tree
  · rw [if_pos isName, if_neg isName]
    exact fun cursor stands => by
      rw [bind_apply, reads_refuse source .name tree cursor stands]
      rfl

/-! ## Moves -/

section Moves

variable {cursor child sibling : Cursor} {index root : Nat}

theorem tryGo_of_some {move : Move} {moved : Cursor}
    (h : cursor.move? move = some moved) :
    tryGo move cursor = .ok (true, moved) := by
  show Except.ok (cursor.step move) = _
  rw [Cursor.step, h]

theorem tryGo_of_none {move : Move} (h : cursor.move? move = none) :
    tryGo move cursor = .ok (false, cursor) := by
  show Except.ok (cursor.step move) = _
  rw [Cursor.step, h]

theorem go_of_some {move : Move} {moved : Cursor}
    (h : cursor.move? move = some moved) :
    go move cursor = .ok ((), moved) := by
  rw [go, bind_apply, tryGo_of_some h]
  rfl

theorem go_firstChild (first : cursor.child? 0 = some child) :
    go .firstChild cursor = .ok ((), child) :=
  go_of_some (cursor.firstChild?_eq.trans first)

theorem go_nextSibling (linked : cursor.tree.Linked root)
    (here : cursor.child? index = some child)
    (next : cursor.child? (index + 1) = some sibling) :
    go .nextSibling child = .ok ((), sibling) :=
  go_of_some ((Cursor.nextSibling?_of_child? linked here).trans next)

theorem go_parent (linked : cursor.tree.Linked root)
    (here : cursor.child? index = some child) :
    go .parent child = .ok ((), cursor) :=
  go_of_some (Cursor.parent?_of_child? linked here)

end Moves

/-! ## Expressions -/

private theorem reads_binary (source : List Char) {operand : Walk α}
    {left right : Tree} {first second : Except ReadError α}
    (hleft : operand.Reads left first) (hright : operand.Reads right second)
    (kind : NodeKind) (span : Span) (op : Tree) :
    (binary source operand).Reads (.node kind span [left, op, right])
      (first >>= fun a => second >>= fun b =>
        .ok (a, op.text source, b)) := by
  intro cursor stands
  obtain ⟨root, linked⟩ := stands.linked
  obtain ⟨leftChild, isLeft, onLeft⟩ := stands.exists_child 0 rfl
  obtain ⟨opChild, isOp, onOp⟩ := stands.exists_child 1 rfl
  obtain ⟨rightChild, isRight, onRight⟩ := stands.exists_child 2 rfl
  simp only [binary, bind_apply, go_firstChild isLeft, ok_bind,
    hleft leftChild onLeft]
  cases first with
  | error error => rfl
  | ok a =>
      simp only [map_ok, ok_bind, go_nextSibling linked isLeft isOp,
        reads_text source op opChild onOp,
        go_nextSibling linked isOp isRight, hright rightChild onRight]
      cases second with
      | error error => rfl
      | ok b =>
          simp only [map_ok, ok_bind, go_parent linked isRight]
          rfl

theorem reads_binary_bind (source : List Char) {operand : Walk α}
    {left right op : Tree} {first second : Except ReadError α}
    {kind : NodeKind} {span : Span} {next : α × String × α → Walk β}
    {final : α → α → Except ReadError β}
    (hleft : operand.Reads left first) (hright : operand.Reads right second)
    (after : ∀ a b, (next (a, op.text source, b)).Reads
      (.node kind span [left, op, right]) (final a b)) :
    (binary source operand >>= next).Reads
      (.node kind span [left, op, right])
      (first >>= fun a => second >>= fun b => final a b) := by
  intro cursor stands
  rw [bind_apply,
    reads_binary source hleft hright kind span op cursor stands]
  cases first with
  | error error => rfl
  | ok a =>
      cases second with
      | error error => rfl
      | ok b => exact after a b cursor stands

private theorem reads_prefixed (source : List Char) {operand : Walk α}
    {sign body : Tree} {result : Except ReadError α} {kind : NodeKind}
    {span : Span} {next : String → α → Walk β}
    {final : α → Except ReadError β} (h : operand.Reads body result)
    (after : ∀ value, (next (sign.text source) value).Reads
      (.node kind span [sign, body]) (final value)) :
    (do
      go .firstChild
      let symbol ← text source
      go .nextSibling
      let value ← operand
      go .parent
      next symbol value : Walk β).Reads (.node kind span [sign, body])
        (result >>= final) := by
  intro cursor stands
  obtain ⟨root, linked⟩ := stands.linked
  obtain ⟨signChild, isSign, onSign⟩ := stands.exists_child 0 rfl
  obtain ⟨child, isChild, onChild⟩ := stands.exists_child 1 rfl
  simp only [bind_apply, go_firstChild isSign, ok_bind,
    reads_text source sign signChild onSign, map_ok,
    go_nextSibling linked isSign isChild, h child onChild]
  cases result with
  | error error => rfl
  | ok value =>
      simp only [map_ok, ok_bind, go_parent linked isChild]
      exact after value cursor stands

private theorem reads_parenthesized {inside : Walk α} {inner : Tree}
    {result : Except ReadError α} (h : inside.Reads inner result)
    (kind : NodeKind) (span : Span) (opening closing : Tree) :
    (parenthesized inside).Reads (.node kind span [opening, inner, closing])
      result := by
  intro cursor stands
  obtain ⟨root, linked⟩ := stands.linked
  obtain ⟨openChild, isOpen, -⟩ := stands.exists_child 0 rfl
  obtain ⟨child, isChild, onChild⟩ := stands.exists_child 1 rfl
  simp only [parenthesized, bind_apply, go_firstChild isOpen, ok_bind,
    go_nextSibling linked isOpen isChild, h child onChild]
  cases result with
  | error error => rfl
  | ok value =>
      simp only [map_ok, ok_bind, go_parent linked isChild]
      rfl

variable {source : List Char} {depth : Nat}

private theorem reads_arith_name (span : Span) (children : List Tree) :
    (arith source (depth + 1)).Reads (.node .name span children)
      ((Tree.node .name span children).readArith source) := by
  rw [Tree.readArith_name]
  exact (reads_kind _).andThen
    ((reads_name source _).bind fun name => reads_pure (Arith.var name) _)

private theorem reads_arith_number (span : Span) (children : List Tree) :
    (arith source (depth + 1)).Reads (.node .number span children)
      ((Tree.node .number span children).readArith source) := by
  rw [Tree.readArith_number]
  refine (reads_kind _).andThen ((reads_text source _).andThen ?_)
  cases (Text.readInteger? (Tree.text source
      (.node .number span children)).toList).bind Word.ofInt? with
  | none => exact reads_refuse source .literal _
  | some value => exact reads_pure (Arith.lit value) _

private theorem reads_arith_operation {left right : Tree}
    (hleft : (arith source depth).Reads left (left.readArith source))
    (hright : (arith source depth).Reads right (right.readArith source))
    (span : Span) (op : Tree) :
    (arith source (depth + 1)).Reads (.node .operation span [left, op, right])
      ((Tree.node .operation span [left, op, right]).readArith source) := by
  rw [Tree.readArith_operation]
  refine (reads_kind _).andThen (reads_binary_bind source hleft hright
    fun first second => ?_)
  dsimp only
  cases ArithOp.ofSymbol? (op.text source) with
  | none => exact reads_refuse source .operator _
  | some op => exact reads_pure (Arith.binary op first second) _

private theorem reads_signed (symbol : String) (value : Arith) (tree : Tree) :
    (match symbol with
      | "+" => pure value
      | "-" => pure value.negate
      | _ => refuse source .sign : Walk Arith).Reads tree
        (tree.expecting source .sign (Tree.signed? symbol value)) := by
  split
  case h_1 => exact reads_pure value tree
  case h_2 => exact reads_pure value.negate tree
  case h_3 notPlus notMinus =>
    rw [Tree.signed?_eq_none notPlus notMinus]
    exact reads_refuse source .sign tree

private theorem reads_arith_signed {operand : Tree}
    (h : (arith source depth).Reads operand (operand.readArith source))
    (span : Span) (sign : Tree) :
    (arith source (depth + 1)).Reads (.node .signed span [sign, operand])
      ((Tree.node .signed span [sign, operand]).readArith source) := by
  rw [Tree.readArith_signed]
  exact (reads_kind _).andThen (reads_prefixed source h fun value =>
    reads_signed (sign.text source) value _)

theorem reads_arith (depth : Nat) (tree : Tree) (shaped : tree.Shaped)
    (deep : tree.size ≤ depth) :
    (arith source depth).Reads tree (tree.readArith source) := by
  induction depth generalizing tree with
  | zero =>
      obtain ⟨kind, span, children⟩ := tree
      simp [Tree.size] at deep
  | succ depth ih =>
      obtain ⟨kind, span, children⟩ := tree
      obtain ⟨shape, inside⟩ := shaped
      cases kind with
      | name => exact reads_arith_name span children
      | number => exact reads_arith_number span children
      | operation =>
          obtain ⟨left, op, right, rfl⟩ := shape
          obtain ⟨shapedLeft, -, shapedRight, -⟩ := inside
          simp only [Tree.size, Tree.sizeList] at deep
          exact reads_arith_operation (ih left shapedLeft (by omega))
            (ih right shapedRight (by omega)) span op
      | signed =>
          obtain ⟨sign, operand, rfl⟩ := shape
          obtain ⟨-, shapedOperand, -⟩ := inside
          simp only [Tree.size, Tree.sizeList] at deep
          exact reads_arith_signed (ih operand shapedOperand (by omega)) span
            sign
      | arithParens =>
          obtain ⟨opening, inner, closing, rfl⟩ := shape
          obtain ⟨-, shapedInner, -⟩ := inside
          simp only [Tree.size, Tree.sizeList] at deep
          rw [Tree.readArith_parens]
          exact (reads_kind _).andThen
            (reads_parenthesized (ih inner shapedInner (by omega)) _ _ _ _)
      | _ =>
          exact (reads_kind _).andThen (reads_refuse source .expression _)

/-! ## Children one after another -/

section Siblings

variable {cursor child : Cursor} {index rounds : Nat} {kind : NodeKind}
  {span : Span} {trees after : List Tree} {focus : Tree}

private theorem siblings_eq {item : Walk α} {read : Tree → Except ReadError α}
    (stands : cursor.Stands (.node kind span trees))
    (here : cursor.child? index = some child)
    (rest : trees.drop index = focus :: after)
    (enough : after.length < rounds)
    (h : ∀ tree ∈ focus :: after, item.Reads tree (read tree)) :
    ∃ number last, cursor.child? number = some last ∧
      siblings item rounds child =
        ((focus :: after).mapM read).map fun values => (values, last) := by
  induction after generalizing index child focus rounds with
  | nil =>
      obtain ⟨rounds, rfl⟩ := Nat.exists_eq_succ_of_ne_zero
        (Nat.ne_of_gt enough)
      obtain ⟨first, -⟩ := List.forall_mem_cons.mp h
      have onFocus := stands.of_drop here rest
      have ended : child.move? .nextSibling = none :=
        stands.nextSibling?_eq_none here (Tree.drop_succ rest)
      refine ⟨index, child, here, ?_⟩
      rw [siblings, bind_apply, first child onFocus, List.mapM_cons,
        List.mapM_nil]
      cases read focus with
      | error error => rfl
      | ok value =>
          simp only [map_ok, ok_bind, bind_apply,
            tryGo_of_none ended]
          rfl
  | cons sibling after ih =>
      obtain ⟨rounds, rfl⟩ := Nat.exists_eq_succ_of_ne_zero
        (Nat.ne_of_gt (Nat.zero_lt_of_lt enough))
      obtain ⟨first, others⟩ := List.forall_mem_cons.mp h
      have onFocus := stands.of_drop here rest
      obtain ⟨next, sideways, isNext, -⟩ :=
        stands.exists_nextSibling here (Tree.drop_succ rest)
      have moved : child.move? .nextSibling = some next := sideways
      obtain ⟨number, last, isLast, further⟩ := ih isNext (Tree.drop_succ rest)
        (Nat.lt_of_succ_lt_succ enough) others
      refine ⟨number, last, isLast, ?_⟩
      rw [siblings, bind_apply, first child onFocus, List.mapM_cons]
      cases read focus with
      | error error => rfl
      | ok value =>
          simp only [map_ok, ok_bind, bind_apply,
            tryGo_of_some moved, if_true, further]
          cases (sibling :: after).mapM read with
          | error error => rfl
          | ok values => rfl

private theorem argumentsAfter_eq {argument : Walk Arith}
    (stands : cursor.Stands (.node kind span trees))
    (here : cursor.child? index = some child)
    (rest : trees.drop (index + 1) = after)
    (enough : after.length < rounds)
    (h : ∀ tree ∈ after, argument.Reads tree (tree.readArith source)) :
    ∃ number last, cursor.child? number = some last ∧
      argumentsAfter source argument rounds child =
        (Tree.readItems source after).map fun values => (values, last) := by
  induction after generalizing index child rounds with
  | nil =>
      obtain ⟨rounds, rfl⟩ := Nat.exists_eq_succ_of_ne_zero
        (Nat.ne_of_gt enough)
      have ended : child.move? .nextSibling = none :=
        stands.nextSibling?_eq_none here rest
      refine ⟨index, child, here, ?_⟩
      rw [argumentsAfter, bind_apply, tryGo_of_none ended]
      rfl
  | cons sibling after ih =>
      obtain ⟨rounds, rfl⟩ := Nat.exists_eq_succ_of_ne_zero
        (Nat.ne_of_gt (Nat.zero_lt_of_lt enough))
      obtain ⟨first, others⟩ := List.forall_mem_cons.mp h
      obtain ⟨next, sideways, isNext, onNext⟩ :=
        stands.exists_nextSibling here rest
      have moved : child.move? .nextSibling = some next := sideways
      obtain ⟨number, last, isLast, further⟩ := ih isNext (Tree.drop_succ rest)
        (Nat.lt_of_succ_lt_succ enough) others
      refine ⟨number, last, isLast, ?_⟩
      rw [argumentsAfter, bind_apply, tryGo_of_some moved, Tree.readItems]
      simp only [ok_bind, if_true, bind_apply,
        reads_kind sibling next onNext, map_ok]
      split
      · exact further
      · show (tryCatch (argument next) _ >>= fun found => _) = _
        rw [first next onNext]
        cases sibling.readArith source with
        | error error => exact reads_refuse source .argument sibling next onNext
        | ok value =>
            show (argumentsAfter source argument rounds next >>=
              fun found => _) = _
            rw [further]
            cases Tree.readItems source after with
            | error error => rfl
            | ok values => rfl

end Siblings

private theorem reads_children {item : Walk α}
    {read : Tree → Except ReadError α}
    {trees : List Tree} {rounds : Nat} (enough : trees.length ≤ rounds)
    (h : ∀ tree ∈ trees, item.Reads tree (read tree))
    (kind : NodeKind) (span : Span) :
    (children item rounds).Reads (.node kind span trees)
      (trees.mapM read) := by
  intro cursor stands
  obtain ⟨root, linked⟩ := stands.linked
  cases trees with
  | nil =>
      have ended : cursor.move? .firstChild = none :=
        cursor.firstChild?_eq.trans (stands.child?_eq_none rfl)
      rw [children, bind_apply, tryGo_of_none ended]
      rfl
  | cons first rest =>
      obtain ⟨child, isFirst, -⟩ := stands.exists_child 0 rfl
      have moved : cursor.move? .firstChild = some child :=
        cursor.firstChild?_eq.trans isFirst
      obtain ⟨number, last, isLast, all⟩ :=
        siblings_eq stands isFirst rfl enough h
      simp only [children, bind_apply, tryGo_of_some moved, ok_bind,
        if_true, all]
      cases (first :: rest).mapM read with
      | error error => rfl
      | ok values =>
          simp only [map_ok, ok_bind, go_parent linked isLast]
          rfl

/-! ## Formulas and declarations -/

private theorem reads_arguments {items : List Tree} {argument : Walk Arith}
    {rounds : Nat} (enough : items.length < rounds)
    (h : ∀ tree ∈ items, argument.Reads tree (tree.readArith source))
    (kind : NodeKind) (span : Span) (opening : Tree) :
    (arguments source argument rounds).Reads
      (.node kind span (opening :: items)) (Tree.readItems source items) := by
  intro cursor stands
  obtain ⟨root, linked⟩ := stands.linked
  obtain ⟨child, isFirst, -⟩ := stands.exists_child 0 rfl
  have rest : (opening :: items).drop (0 + 1) = items := rfl
  obtain ⟨number, last, isLast, all⟩ :=
    argumentsAfter_eq stands isFirst rest enough h
  simp only [arguments, bind_apply, go_firstChild isFirst, ok_bind,
    all]
  cases Tree.readItems source items with
  | error error => rfl
  | ok values =>
      simp only [map_ok, ok_bind, go_parent linked isLast]
      rfl

private theorem reads_formula_application {items : List Tree}
    (enough : items.length < depth) (h : ∀ tree ∈ items,
      (arith source depth).Reads tree (tree.readArith source))
    (span inner : Span) (symbol opening : Tree) (kind : NodeKind) :
    (formula source (depth + 1)).Reads
      (.node .application span [symbol, .node kind inner (opening :: items)])
      ((Tree.node .application span
        [symbol, .node kind inner (opening :: items)]).readFormula
          source) := by
  rw [Tree.readFormula_application]
  refine (reads_kind _).andThen ?_
  intro cursor stands
  obtain ⟨root, linked⟩ := stands.linked
  obtain ⟨first, isFirst, onFirst⟩ := stands.exists_child 0 rfl
  obtain ⟨second, isSecond, onSecond⟩ := stands.exists_child 1 rfl
  have named := reads_name source symbol first onFirst
  have listed := reads_arguments enough h kind inner opening second onSecond
  show (go .firstChild >>= fun _ => _) cursor = _
  simp only [bind_apply, go_firstChild isFirst, ok_bind, named]
  cases symbol.readName source with
  | error error => rfl
  | ok name =>
      simp only [map_ok, ok_bind,
        go_nextSibling linked isFirst isSecond, listed]
      cases Tree.readItems source items with
      | error error => rfl
      | ok values =>
          simp only [map_ok, ok_bind, go_parent linked isSecond]
          rfl

private theorem reads_connected {tree op : Tree} (first second : Formula) :
    (match Connective.ofSymbol? (op.text source) with
      | some op => pure (.connect op first second)
      | none => refuse source .connective : Walk Formula).Reads tree
        (Tree.connected source tree op first second) := by
  rw [Tree.connected]
  cases Connective.ofSymbol? (op.text source) with
  | none => exact reads_refuse source .connective tree
  | some op => exact reads_pure (Formula.connect op first second) tree

private theorem reads_formula_connective {left right : Tree} {kind : NodeKind}
    (isConnective :
      kind = .conjunction ∨ kind = .disjunction ∨ kind = .implication)
    (hleft : (formula source depth).Reads left (left.readFormula source))
    (hright : (formula source depth).Reads right (right.readFormula source))
    (span : Span) (op : Tree) :
    (formula source (depth + 1)).Reads (.node kind span [left, op, right])
      ((Tree.node kind span [left, op, right]).readFormula source) := by
  rw [Tree.readFormula_connective source span left op right isConnective]
  rcases isConnective with rfl | rfl | rfl
  all_goals
    refine (reads_kind _).andThen (reads_binary_bind source hleft hright
      fun first second => ?_)
    exact reads_connected first second

private theorem reads_formula_comparison {left right : Tree}
    (hleft : (arith source depth).Reads left (left.readArith source))
    (hright : (arith source depth).Reads right (right.readArith source))
    (span : Span) (op : Tree) :
    (formula source (depth + 1)).Reads
      (.node .comparison span [left, op, right])
      ((Tree.node .comparison span [left, op, right]).readFormula
        source) := by
  rw [Tree.readFormula_comparison]
  refine (reads_kind _).andThen (reads_binary_bind source hleft hright
    fun first second => ?_)
  dsimp only
  cases CompareOp.ofSymbol? (op.text source) with
  | none => exact reads_refuse source .comparison _
  | some op => exact reads_pure (Formula.compare op first second) _

private theorem reads_formula_negation {body : Tree}
    (h : (formula source depth).Reads body (body.readFormula source))
    (span : Span) (bang : Tree) :
    (formula source (depth + 1)).Reads (.node .negation span [bang, body])
      ((Tree.node .negation span [bang, body]).readFormula source) := by
  rw [Tree.readFormula_negation]
  refine (reads_kind _).andThen ?_
  intro cursor stands
  obtain ⟨root, linked⟩ := stands.linked
  obtain ⟨node, found, -, -, all⟩ := stands.exists_node
  obtain ⟨child, isChild, onChild⟩ := stands.exists_child 1 rfl
  have isLast : cursor.move? .lastChild = some child := by
    show cursor.lastChild? = some child
    rw [Cursor.lastChild?_eq found, all.length]
    exact isChild
  show (go .lastChild >>= fun _ => _) cursor = _
  rw [bind_apply, go_of_some isLast, ok_bind, bind_apply,
    h child onChild]
  cases body.readFormula source with
  | error error => rfl
  | ok value =>
      simp only [map_ok, ok_bind, bind_apply, go_parent linked isChild]
      rfl

theorem reads_formula (depth : Nat) (tree : Tree) (shaped : tree.Shaped)
    (deep : tree.size ≤ depth) :
    (formula source depth).Reads tree (tree.readFormula source) := by
  induction depth generalizing tree with
  | zero =>
      obtain ⟨kind, span, children⟩ := tree
      simp [Tree.size] at deep
  | succ depth ih =>
      obtain ⟨kind, span, children⟩ := tree
      obtain ⟨shape, inside⟩ := shaped
      simp only [Tree.size] at deep
      have operands {left op right : Tree}
          (eq : children = [left, op, right]) :
          (left.Shaped ∧ left.size ≤ depth) ∧
            (right.Shaped ∧ right.size ≤ depth) := by
        subst eq
        obtain ⟨shapedLeft, -, shapedRight, -⟩ := inside
        simp only [Tree.sizeList] at deep
        exact ⟨⟨shapedLeft, by omega⟩, ⟨shapedRight, by omega⟩⟩
      have connective
          (isConnective : kind = .conjunction ∨ kind = .disjunction ∨
            kind = .implication)
          (shape : ∃ left op right, children = [left, op, right]) :
          (formula source (depth + 1)).Reads (.node kind span children)
            ((Tree.node kind span children).readFormula source) := by
        obtain ⟨left, op, right, rfl⟩ := shape
        obtain ⟨first, second⟩ := operands rfl
        exact reads_formula_connective isConnective (ih left first.1 first.2)
          (ih right second.1 second.2) span op
      cases kind with
      | conjunction => exact connective (.inl rfl) shape
      | disjunction => exact connective (.inr (.inl rfl)) shape
      | implication => exact connective (.inr (.inr rfl)) shape
      | comparison =>
          obtain ⟨left, op, right, rfl⟩ := shape
          obtain ⟨first, second⟩ := operands rfl
          exact reads_formula_comparison
            (reads_arith depth left first.1 first.2)
            (reads_arith depth right second.1 second.2) span op
      | application =>
          obtain ⟨symbol, kind, inner, opening, items, rfl⟩ := shape
          obtain ⟨-, ⟨-, -, shapedItems⟩, -⟩ := inside
          simp only [Tree.sizeList, Tree.size] at deep
          have few := Tree.length_le_sizeList items
          refine reads_formula_application (by omega) (fun item mem => ?_) span
            inner symbol opening kind
          have smaller := Tree.size_le_of_mem mem
          exact reads_arith depth item
            (Tree.allShaped_iff.mp shapedItems item mem) (by omega)
      | negation =>
          obtain ⟨bang, body, rfl⟩ := shape
          obtain ⟨-, shapedBody, -⟩ := inside
          simp only [Tree.sizeList] at deep
          exact reads_formula_negation (ih body shapedBody (by omega)) span
            bang
      | formulaParens =>
          obtain ⟨opening, inner, closing, rfl⟩ := shape
          obtain ⟨-, shapedInner, -⟩ := inside
          simp only [Tree.sizeList] at deep
          rw [Tree.readFormula_parens]
          exact (reads_kind _).andThen
            (reads_parenthesized (ih inner shapedInner (by omega)) _ _ _ _)
      | boolean =>
          exact (reads_kind _).andThen ((reads_text source _).andThen
            (reads_pure (Formula.truth _) _))
      | _ => exact (reads_kind _).andThen (reads_refuse source .formula _)

private theorem reads_statement (tree : Tree) (shaped : tree.Shaped)
    (deep : tree.size ≤ depth) :
    (statement source depth).Reads tree (tree.readStatement source) := by
  obtain ⟨kind, span, children⟩ := tree
  obtain ⟨shape, inside⟩ := shaped
  refine (reads_kind _).andThen ?_
  cases kind with
  | skip => exact reads_pure Primitive.skip _
  | assignment =>
      obtain ⟨target, op, value, rfl⟩ := shape
      obtain ⟨-, -, shapedValue, -⟩ := inside
      simp only [Tree.size, Tree.sizeList] at deep
      intro cursor stands
      obtain ⟨root, linked⟩ := stands.linked
      obtain ⟨first, isFirst, onFirst⟩ := stands.exists_child 0 rfl
      obtain ⟨second, isSecond, -⟩ := stands.exists_child 1 rfl
      obtain ⟨third, isThird, onThird⟩ := stands.exists_child 2 rfl
      have named := reads_name source target first onFirst
      have assigned : arith source depth third = _ :=
        reads_arith depth value shapedValue (by omega) third onThird
      show (go .firstChild >>= fun _ => _) cursor = _
      simp only [bind_apply, go_firstChild isFirst, ok_bind, named]
      rw [Tree.readStatement]
      cases target.readName source with
      | error error => rfl
      | ok name =>
          simp only [map_ok, ok_bind,
            go_nextSibling linked isFirst isSecond,
            go_nextSibling linked isSecond isThird, assigned]
          cases value.readArith source with
          | error error => rfl
          | ok value =>
              simp only [map_ok, ok_bind, go_parent linked isThird]
              rfl
  | _ => exact reads_refuse source .command _

private theorem reads_command (kind : NodeKind) (span : Span)
    (trees : List Tree) (enough : trees.length ≤ depth)
    (h : ∀ tree ∈ trees, tree.Shaped ∧ tree.size ≤ depth) :
    (command source depth).Reads (.node kind span trees)
      ((Tree.node kind span trees).readCommand source) := by
  have items : (children (statement source depth) depth).Reads
      (.node kind span trees) (trees.mapM (Tree.readStatement source)) :=
    reads_children enough
      (fun tree mem => reads_statement tree (h tree mem).1 (h tree mem).2)
      kind span
  refine items.bind fun statements => ?_
  cases statements with
  | nil => exact reads_refuse source .command _
  | cons first rest => exact reads_pure (⟨first, rest⟩ : Command) _

private theorem reads_assertion (kind : NodeKind) (span : Span)
    (trees : List Tree) (enough : trees.length ≤ depth)
    (h : ∀ tree ∈ trees, tree.Shaped ∧ tree.size ≤ depth) :
    (assertion source depth).Reads (.node kind span trees)
      ((Tree.node kind span trees).readAssertion source) := by
  have items : (children (formula source depth) depth).Reads
      (.node kind span trees) (trees.mapM (Tree.readFormula source)) :=
    reads_children enough
      (fun tree mem => reads_formula depth tree (h tree mem).1 (h tree mem).2)
      kind span
  refine items.bind fun formulas => ?_
  cases Formula.conjoin? formulas with
  | none => exact reads_refuse source .formula _
  | some formula => exact reads_pure formula _

private theorem reads_body (kind : NodeKind) (span : Span) (trees : List Tree)
    (enough : trees.length ≤ depth)
    (h : ∀ tree ∈ trees, tree.Shaped ∧ tree.size ≤ depth) :
    (body source depth).Reads (.node kind span trees)
      ((Tree.node kind span trees).readBody source) := by
  refine (reads_kind _).andThen ?_
  cases kind with
  | assertion =>
      exact (reads_assertion .assertion span trees enough h).bind
        fun formula => reads_pure (Decl.assertion ⟨_, formula⟩) _
  | command =>
      exact (reads_command .command span trees enough h).bind
        fun command => reads_pure (Decl.program ⟨_, command⟩) _
  | _ => exact reads_refuse source .body _

theorem reads_declaration (tree : Tree) (shaped : tree.Shaped)
    (deep : tree.size ≤ depth) :
    (declaration source depth).Reads tree (tree.readDecl source) := by
  obtain ⟨kind, span, children⟩ := tree
  obtain ⟨shape, inside⟩ := shaped
  refine (reads_kind _).andThen ?_
  cases kind with
  | declaration =>
      obtain ⟨⟨kind, inner, trees⟩, rfl⟩ := shape
      obtain ⟨⟨-, shapedTrees⟩, -⟩ := inside
      simp only [Tree.size, Tree.sizeList] at deep
      have few := Tree.length_le_sizeList trees
      have smaller (tree : Tree) (mem : tree ∈ trees) :
          tree.Shaped ∧ tree.size ≤ depth := by
        have := Tree.size_le_of_mem mem
        exact ⟨Tree.allShaped_iff.mp shapedTrees tree mem, by omega⟩
      intro cursor stands
      obtain ⟨root, linked⟩ := stands.linked
      obtain ⟨child, isChild, onChild⟩ := stands.exists_child 0 rfl
      have body : body source depth child = _ :=
        reads_body kind inner trees (by omega) smaller child onChild
      show (go .firstChild >>= fun _ => _) cursor = _
      simp only [bind_apply, go_firstChild isChild, ok_bind, body]
      rw [Tree.readDecl]
      cases (Tree.node kind inner trees).readBody source with
      | error error => rfl
      | ok decl =>
          simp only [map_ok, ok_bind, go_parent linked isChild]
          rfl
  | _ => exact reads_refuse source .declaration _

end Walk

theorem Cursor.readDecl_ofTree (source : List Char) {tree : Tree}
    (shaped : tree.Shaped) :
    (ofTree tree).readDecl source =
      (tree.readDecl source).map fun decl => (decl, ofTree tree) := by
  have deep := SyntaxTree.size_ofTree tree
  exact Walk.reads_declaration tree shaped (Nat.le_of_eq deep.symm) _
    (stands_ofTree tree)

end ProofOutline
