import Mathlib.Data.List.Nodup
import ProofOutline.Proofs.Reading

/-!
# Trees put into an arena

Adding the nodes of a tree leaves the older nodes of the arena as they are.  The
new nodes hang together by their links, all below the one that was added last,
and that node shows the tree.
-/

namespace ProofOutline

namespace Tree

private theorem size_eq (tree : Tree) :
    tree.size = sizeList tree.children + 1 := by
  obtain ⟨kind, span, trees⟩ := tree
  rw [size, children]

theorem size_lt_of_mem {tree child : Tree} (mem : child ∈ tree.children) :
    child.size < tree.size := by
  have bound := size_le_of_mem mem
  have size := size_eq tree
  omega

@[simp] theorem sizeList_append (first second : List Tree) :
    sizeList (first ++ second) = sizeList first + sizeList second := by
  induction first with
  | nil => simp [sizeList]
  | cons tree first ih => simp [sizeList, ih, Nat.add_assoc]

theorem length_le_sizeList (trees : List Tree) :
    trees.length ≤ sizeList trees := by
  induction trees with
  | nil => exact Nat.le_refl _
  | cons tree trees ih =>
      have := tree.size_eq
      rw [List.length_cons, sizeList]
      omega

theorem getElem?_of_drop {trees later : List Tree} {index : Nat}
    (rest : trees.drop index = later) : trees[index]? = later.head? := by
  rw [← rest, List.head?_drop]

theorem drop_succ {trees after : List Tree} {focus : Tree} {index : Nat}
    (rest : trees.drop index = focus :: after) :
    trees.drop (index + 1) = after := by
  rw [← List.drop_drop, rest]
  rfl

private theorem sizeList_perm {first second : List Tree}
    (same : first.Perm second) :
    sizeList first = sizeList second := by
  induction same with
  | nil => rfl
  | cons tree _ ih => simp [sizeList, ih]
  | swap tree other rest => simp [sizeList, Nat.add_left_comm]
  | trans _ _ ih further => exact ih.trans further

/-! ## Properties of all subtrees -/

mutual

def Everywhere (holds : Tree → Prop) : Tree → Prop
  | node kind span trees =>
      holds (node kind span trees) ∧ EverywhereIn holds trees

def EverywhereIn (holds : Tree → Prop) : List Tree → Prop
  | [] => True
  | tree :: rest => tree.Everywhere holds ∧ EverywhereIn holds rest

end

variable {holds : Tree → Prop}

@[simp] theorem everywhereIn_iff {trees : List Tree} :
    EverywhereIn holds trees ↔ ∀ tree ∈ trees, tree.Everywhere holds := by
  induction trees with
  | nil => simp [EverywhereIn]
  | cons first rest ih => simp [EverywhereIn, ih]

theorem everywhere_iff {tree : Tree} :
    tree.Everywhere holds ↔
      holds tree ∧ ∀ child ∈ tree.children, child.Everywhere holds := by
  obtain ⟨kind, span, trees⟩ := tree
  rw [Everywhere, everywhereIn_iff, children]

theorem Everywhere.mono {other : Tree → Prop}
    (step : ∀ tree, holds tree → other tree) {tree : Tree}
    (h : tree.Everywhere holds) : tree.Everywhere other := by
  generalize bound : tree.size = size
  induction size using Nat.strongRecOn generalizing tree with
  | _ size ih =>
      obtain ⟨here, below⟩ := everywhere_iff.mp h
      refine everywhere_iff.mpr ⟨step tree here, fun child mem => ?_⟩
      exact ih _ (bound ▸ size_lt_of_mem mem) (below child mem) rfl

theorem everywhere_of_inherited
    (step : ∀ tree, holds tree → ∀ child ∈ tree.children, holds child)
    {tree : Tree} (h : holds tree) : tree.Everywhere holds := by
  generalize bound : tree.size = size
  induction size using Nat.strongRecOn generalizing tree with
  | _ size ih =>
      refine everywhere_iff.mpr ⟨h, fun child mem => ?_⟩
      exact ih _ (bound ▸ size_lt_of_mem mem) (step tree h child mem) rfl

end Tree

namespace SyntaxTree

/-! ## One node -/

@[simp] theorem size_adopt (parent : Nat) (nodes : Array SyntaxNode)
    (index : Nat) (children : List Nat) :
    (adopt parent nodes index children).size = nodes.size := by
  induction children generalizing nodes index with
  | nil => rfl
  | cons child children ih => rw [adopt, ih, Array.size_modify]

private theorem getElem?_adopt {parent : Nat} {nodes : Array SyntaxNode}
    {children : List Nat} (nodup : children.Nodup) (index id : Nat) :
    (adopt parent nodes index children)[id]? =
      nodes[id]?.map fun node =>
        if id ∈ children then
          { node with
            parent := some parent, index := index + children.idxOf id }
        else node := by
  induction children generalizing nodes index with
  | nil => simp [adopt]
  | cons child children ih =>
      obtain ⟨other, nodup⟩ := List.nodup_cons.mp nodup
      rw [adopt, ih nodup, Array.getElem?_modify]
      by_cases same : child = id
      · subst same
        simp [other, Function.comp_def]
      · have position : List.idxOf id (child :: children) =
            children.idxOf id + 1 :=
          List.idxOf_cons_ne _ same
        simp only [if_neg same, position, List.mem_cons, Ne.symm same,
          false_or, Nat.add_assoc, Nat.add_comm 1]

theorem lt_size_of_getElem? {tree : SyntaxTree} {id : Nat} {node : SyntaxNode}
    (found : tree.nodes[id]? = some node) : id < tree.nodes.size :=
  (Array.getElem?_eq_some_iff.mp found).1

section Push

variable (tree : SyntaxTree) (kind : NodeKind) (span : Span)

@[simp] theorem push_fst (children : List Nat) :
    (tree.push kind span children).1 = tree.nodes.size := rfl

@[simp] theorem size_push (children : List Nat) :
    (tree.push kind span children).2.nodes.size = tree.nodes.size + 1 := by
  simp [push]

@[simp] theorem getElem?_push_self (children : List Nat) :
    (tree.push kind span children).2.nodes[tree.nodes.size]? =
      some ⟨kind, span, none, 0, children⟩ := by
  have last := size_adopt tree.nodes.size tree.nodes 0 children
  rw [push]
  nth_rewrite 3 [← last]
  exact Array.getElem?_push_size

theorem getElem?_push_of_lt {children : List Nat} (nodup : children.Nodup)
    {id : Nat} (older : id < tree.nodes.size) :
    (tree.push kind span children).2.nodes[id]? =
      tree.nodes[id]?.map fun node =>
        if id ∈ children then
          { node with
            parent := some tree.nodes.size, index := children.idxOf id }
        else node := by
  have size := size_adopt tree.nodes.size tree.nodes 0 children
  rw [push, Array.getElem?_push, if_neg (by omega), getElem?_adopt nodup]
  simp only [Nat.zero_add]

private theorem children_adopted (node : SyntaxNode) (isAdopted : Prop)
    [Decidable isAdopted] (parent : Option Nat) (index : Nat) :
    (if isAdopted then { node with parent := parent, index := index }
      else node).children = node.children := by
  split <;> rfl

private theorem getElem?_push_of_getElem? {children : List Nat}
    (nodup : children.Nodup) {id : Nat} {node : SyntaxNode}
    (found : tree.nodes[id]? = some node) :
    (tree.push kind span children).2.nodes[id]? =
      some (if id ∈ children then
        { node with
          parent := some tree.nodes.size, index := children.idxOf id }
        else node) := by
  rw [getElem?_push_of_lt tree kind span nodup (lt_size_of_getElem? found),
    found]
  rfl

theorem eq_or_exists_of_getElem?_push {children : List Nat}
    (nodup : children.Nodup) {id : Nat} {node : SyntaxNode}
    (found : (tree.push kind span children).2.nodes[id]? = some node) :
    (id = tree.nodes.size ∧ node = ⟨kind, span, none, 0, children⟩) ∨
      ∃ old, tree.nodes[id]? = some old ∧
        node = if id ∈ children then
          { old with
            parent := some tree.nodes.size, index := children.idxOf id }
          else old := by
  have bound := lt_size_of_getElem? found
  rw [size_push] at bound
  rcases Nat.lt_succ_iff_lt_or_eq.mp bound with older | rfl
  · rw [getElem?_push_of_lt tree kind span nodup older,
      Option.map_eq_some_iff] at found
    obtain ⟨old, isOld, rfl⟩ := found
    exact .inr ⟨old, isOld, rfl⟩
  · rw [getElem?_push_self] at found
    cases found
    exact .inl ⟨rfl, rfl⟩

end Push

/-! ## Many nodes -/

/--
The arena has grown by nodes that hang together by their links.  Those in the
list have no parent yet, and nothing older has changed.
-/
structure Grown (before after : SyntaxTree) (loose : List Nat) : Prop where
  size : before.nodes.size ≤ after.nodes.size
  older : ∀ id < before.nodes.size, after.nodes[id]? = before.nodes[id]?
  nodup : loose.Nodup
  newer : ∀ id ∈ loose, before.nodes.size ≤ id ∧ id < after.nodes.size
  parentless : ∀ {id node}, before.nodes.size ≤ id →
    after.nodes[id]? = some node → (node.parent = none ↔ id ∈ loose)
  down : ∀ {id node index child}, before.nodes.size ≤ id →
    after.nodes[id]? = some node → node.children[index]? = some child →
    before.nodes.size ≤ child ∧ child < id ∧
      ∃ below, after.nodes[child]? = some below ∧ below.parent = some id ∧
        below.index = index
  up : ∀ {id node parent}, before.nodes.size ≤ id →
    after.nodes[id]? = some node → node.parent = some parent →
    ∃ above, after.nodes[parent]? = some above ∧
      above.children[node.index]? = some id

namespace Grown

variable {first second third : SyntaxTree} {loose later : List Nat}

theorem refl (tree : SyntaxTree) : Grown tree tree [] where
  size := Nat.le_refl _
  older _ _ := rfl
  nodup := List.nodup_nil
  newer _ mem := absurd mem List.not_mem_nil
  parentless newer found := absurd (lt_size_of_getElem? found) (by omega)
  down newer found := absurd (lt_size_of_getElem? found) (by omega)
  up newer found := absurd (lt_size_of_getElem? found) (by omega)

theorem trans (h : Grown first second loose) (more : Grown second third later) :
    Grown first third (loose ++ later) where
  size := Nat.le_trans h.size more.size
  older id small :=
    (more.older id (Nat.lt_of_lt_of_le small h.size)).trans (h.older id small)
  nodup := by
    refine List.nodup_append.mpr ⟨h.nodup, more.nodup, ?_⟩
    rintro id isOld _ isNew rfl
    have := h.newer id isOld
    have := more.newer id isNew
    omega
  newer id mem := by
    have grown := h.size
    have further := more.size
    rcases List.mem_append.mp mem with isOld | isNew
    · have := h.newer id isOld
      omega
    · have := more.newer id isNew
      omega
  parentless {id node} newer found := by
    by_cases old : id < second.nodes.size
    · have notLater : id ∉ later := by
        intro mem
        have := more.newer id mem
        omega
      rw [more.older id old] at found
      simp [h.parentless newer found, notLater]
    · have notLoose : id ∉ loose := by
        intro mem
        have := h.newer id mem
        omega
      simp [more.parentless (Nat.le_of_not_lt old) found, notLoose]
  down {id node index child} newer found isChild := by
    by_cases old : id < second.nodes.size
    · rw [more.older id old] at found
      obtain ⟨new, small, below, isBelow, links⟩ := h.down newer found isChild
      refine ⟨new, small, below, ?_, links⟩
      rw [more.older child (by omega), isBelow]
    · obtain ⟨new, small, rest⟩ :=
        more.down (Nat.le_of_not_lt old) found isChild
      exact ⟨Nat.le_trans h.size new, small, rest⟩
  up {id node parent} newer found isParent := by
    by_cases old : id < second.nodes.size
    · rw [more.older id old] at found
      obtain ⟨above, isAbove, isChild⟩ := h.up newer found isParent
      refine ⟨above, ?_, isChild⟩
      rw [more.older parent (lt_size_of_getElem? isAbove), isAbove]
    · exact more.up (Nat.le_of_not_lt old) found isParent

section Push

variable (h : Grown first second loose) {children : List Nat}
  (same : children.Perm loose) (kind : NodeKind) (span : Span)
  {id index child parent : Nat} {node : SyntaxNode}

include h same

private theorem down_push (newer : first.nodes.size ≤ id)
    (found : (second.push kind span children).2.nodes[id]? = some node)
    (isChild : node.children[index]? = some child) :
    first.nodes.size ≤ child ∧ child < id ∧
      ∃ below, (second.push kind span children).2.nodes[child]? = some below ∧
        below.parent = some id ∧ below.index = index := by
  have nodup : children.Nodup := same.nodup_iff.mpr h.nodup
  rcases eq_or_exists_of_getElem?_push second kind span nodup found with
    ⟨rfl, rfl⟩ | ⟨old, isOld, rfl⟩
  · have mem : child ∈ children := List.mem_of_getElem? isChild
    obtain ⟨new, small⟩ := h.newer child (same.mem_iff.mp mem)
    have position : children.idxOf child = index := by
      obtain ⟨bound, rfl⟩ := List.getElem?_eq_some_iff.mp isChild
      exact nodup.idxOf_getElem index bound
    obtain ⟨below, isBelow⟩ : ∃ below, second.nodes[child]? = some below :=
      ⟨_, Array.getElem?_eq_getElem small⟩
    refine ⟨new, small, _,
      getElem?_push_of_getElem? second kind span nodup isBelow, ?_⟩
    simp [mem, position]
  · rw [children_adopted] at isChild
    obtain ⟨new, small, below, isBelow, links⟩ := h.down newer isOld isChild
    have notAdopted : child ∉ children := by
      rw [same.mem_iff, ← h.parentless new isBelow, links.1]
      simp
    refine ⟨new, small, below, ?_, links⟩
    rw [getElem?_push_of_getElem? second kind span nodup isBelow,
      if_neg notAdopted]

private theorem up_push (newer : first.nodes.size ≤ id)
    (found : (second.push kind span children).2.nodes[id]? = some node)
    (isParent : node.parent = some parent) :
    ∃ above, (second.push kind span children).2.nodes[parent]? = some above ∧
      above.children[node.index]? = some id := by
  have nodup : children.Nodup := same.nodup_iff.mpr h.nodup
  rcases eq_or_exists_of_getElem?_push second kind span nodup found with
    ⟨rfl, rfl⟩ | ⟨old, isOld, rfl⟩
  · cases isParent
  · by_cases mem : id ∈ children
    · simp only [mem, if_true, Option.some.injEq] at isParent ⊢
      subst isParent
      exact ⟨_, getElem?_push_self .., List.getElem?_idxOf mem⟩
    · simp only [mem, if_false] at isParent ⊢
      obtain ⟨above, isAbove, isChild⟩ := h.up newer isOld isParent
      refine ⟨_, getElem?_push_of_getElem? second kind span nodup isAbove, ?_⟩
      rw [children_adopted, isChild]

theorem push : Grown first (second.push kind span children).2
    [second.nodes.size] := by
  have nodup : children.Nodup := same.nodup_iff.mpr h.nodup
  constructor
  case size =>
    have := h.size
    rw [size_push]
    omega
  case older =>
    intro id small
    have notAdopted : id ∉ children := by
      intro mem
      have := h.newer id (same.mem_iff.mp mem)
      omega
    rw [← h.older id small, getElem?_push_of_lt second kind span nodup
      (Nat.lt_of_lt_of_le small h.size)]
    simp [notAdopted]
  case nodup => exact List.nodup_singleton _
  case newer =>
    have := h.size
    simp only [List.mem_singleton, forall_eq, size_push]
    omega
  case parentless =>
    intro id node newer found
    rcases eq_or_exists_of_getElem?_push second kind span nodup found with
      ⟨rfl, rfl⟩ | ⟨old, isOld, rfl⟩
    · simp
    · have bound := lt_size_of_getElem? isOld
      have wasLoose := h.parentless newer isOld
      rw [← same.mem_iff] at wasLoose
      by_cases mem : id ∈ children
      · simp [mem, Nat.ne_of_lt bound]
      · simp [mem, wasLoose, Nat.ne_of_lt bound]
  case down => exact h.down_push same kind span
  case up => exact h.up_push same kind span

end Push

end Grown

/-! ## Trees -/

mutual

def Shows (arena : SyntaxTree) (id : Nat) : Tree → Prop
  | .node kind span children =>
      ∃ node, arena.nodes[id]? = some node ∧ node.kind = kind ∧
        node.span = span ∧ ShowsAll arena node.children children

def ShowsAll (arena : SyntaxTree) (ids : List Nat) : List Tree → Prop
  | [] => ids = []
  | tree :: rest =>
      ∃ id others, ids = id :: others ∧ arena.Shows id tree ∧
        ShowsAll arena others rest

end

@[simp] theorem showsAll_nil {arena : SyntaxTree} :
    arena.ShowsAll [] [] ↔ True := by
  simp [ShowsAll]

@[simp] theorem showsAll_cons {arena : SyntaxTree} {id : Nat}
    {ids : List Nat} {tree : Tree} {trees : List Tree} :
    arena.ShowsAll (id :: ids) (tree :: trees) ↔
      arena.Shows id tree ∧ arena.ShowsAll ids trees := by
  simp [ShowsAll]

theorem ShowsAll.length {arena : SyntaxTree} {ids : List Nat}
    {trees : List Tree} (h : arena.ShowsAll ids trees) :
    ids.length = trees.length := by
  induction trees generalizing ids with
  | nil =>
      cases h
      rfl
  | cons tree trees ih =>
      obtain ⟨id, others, rfl, -, rest⟩ := h
      simp [ih rest]

private theorem ShowsAll.getElem? {arena : SyntaxTree} {ids : List Nat}
    {trees : List Tree} (h : arena.ShowsAll ids trees) {index : Nat}
    {tree : Tree} (found : trees[index]? = some tree) :
    ∃ id, ids[index]? = some id ∧ arena.Shows id tree := by
  induction trees generalizing ids index with
  | nil => cases found
  | cons first trees ih =>
      obtain ⟨id, others, rfl, here, rest⟩ := h
      cases index with
      | zero =>
          cases found
          exact ⟨id, rfl, here⟩
      | succ index => exact ih rest found

private theorem ShowsAll.exists_tree {arena : SyntaxTree} {ids : List Nat}
    {trees : List Tree} (h : arena.ShowsAll ids trees) {index id : Nat}
    (found : ids[index]? = some id) :
    ∃ tree, trees[index]? = some tree ∧ arena.Shows id tree := by
  have within : index < trees.length :=
    h.length ▸ (List.getElem?_eq_some_iff.mp found).1
  obtain ⟨other, isOther, shown⟩ :=
    h.getElem? (List.getElem?_eq_getElem within)
  cases found.symm.trans isOther
  exact ⟨_, List.getElem?_eq_getElem within, shown⟩

def Keeps (before after : SyntaxTree) : Prop :=
  ∀ ⦃id : Nat⦄ ⦃node : SyntaxNode⦄, before.nodes[id]? = some node →
    ∃ kept : SyntaxNode, after.nodes[id]? = some kept ∧
      kept.kind = node.kind ∧ kept.span = node.span ∧
      kept.children = node.children

theorem Grown.keeps {before after : SyntaxTree} {loose : List Nat}
    (h : Grown before after loose) : before.Keeps after := by
  intro id node found
  have same := h.older id (lt_size_of_getElem? found)
  exact ⟨node, same.trans found, rfl, rfl, rfl⟩

theorem keeps_push (tree : SyntaxTree) (kind : NodeKind) (span : Span)
    {children : List Nat} (nodup : children.Nodup) :
    tree.Keeps (tree.push kind span children).2 := by
  intro id node found
  refine ⟨_, getElem?_push_of_getElem? tree kind span nodup found, ?_⟩
  split <;> exact ⟨rfl, rfl, rfl⟩

mutual

theorem Shows.kept {before after : SyntaxTree} (keeps : before.Keeps after) :
    ∀ {tree : Tree} {id : Nat}, before.Shows id tree → after.Shows id tree
  | .node kind span children, id, shown => by
      obtain ⟨node, found, rfl, rfl, below⟩ := shown
      obtain ⟨kept, isKept, sameKind, sameSpan, sameChildren⟩ := keeps found
      exact ⟨kept, isKept, sameKind, sameSpan,
        sameChildren ▸ ShowsAll.kept keeps below⟩

theorem ShowsAll.kept {before after : SyntaxTree}
    (keeps : before.Keeps after) : ∀ {trees : List Tree} {ids : List Nat},
    before.ShowsAll ids trees → after.ShowsAll ids trees
  | [], ids, isNil => isNil
  | tree :: rest, ids, all => by
      obtain ⟨id, others, rfl, first, further⟩ := all
      exact ⟨id, others, rfl, Shows.kept keeps first,
        ShowsAll.kept keeps further⟩

end

theorem ShowsAll.append {arena : SyntaxTree} {ids more : List Nat}
    {trees further : List Tree} (first : arena.ShowsAll ids trees)
    (second : arena.ShowsAll more further) :
    arena.ShowsAll (ids ++ more) (trees ++ further) := by
  induction trees generalizing ids with
  | nil =>
      cases first
      exact second
  | cons tree trees ih =>
      obtain ⟨id, others, rfl, here, rest⟩ := first
      exact ⟨id, others ++ more, rfl, here, ih rest⟩

/-- The trees have been added below these nodes, and nothing besides. -/
structure Planted (before after : SyntaxTree) (ids : List Nat)
    (trees : List Tree) : Prop where
  grown : Grown before after ids
  shown : after.ShowsAll ids trees
  size : after.nodes.size = before.nodes.size + Tree.sizeList trees

namespace Planted

variable {first second third : SyntaxTree} {ids more : List Nat}
  {trees further : List Tree}

theorem nil (arena : SyntaxTree) : Planted arena arena [] [] :=
  ⟨.refl arena, rfl, rfl⟩

theorem append (h : Planted first second ids trees)
    (later : Planted second third more further) :
    Planted first third (ids ++ more) (trees ++ further) where
  grown := h.grown.trans later.grown
  shown := (h.shown.kept later.grown.keeps).append later.shown
  size := by
    rw [later.size, h.size, Tree.sizeList_append, Nat.add_assoc]

theorem node (h : Planted first second ids trees) {children : List Nat}
    {below : List Tree} (sameIds : children.Perm ids)
    (sameTrees : below.Perm trees) (shown : second.ShowsAll children below)
    (kind : NodeKind) (span : Span) :
    Planted first (second.push kind span children).2
      [(second.push kind span children).1] [.node kind span below] where
  grown := h.grown.push sameIds kind span
  shown := by
    have keeps : second.Keeps (second.push kind span children).2 :=
      keeps_push second kind span (sameIds.nodup_iff.mpr h.grown.nodup)
    exact ⟨_, _, rfl, ⟨_, getElem?_push_self .., rfl, rfl,
      shown.kept keeps⟩, rfl⟩
  size := by
    rw [size_push, h.size, Tree.sizeList, Tree.size, Tree.sizeList,
      Tree.sizeList_perm sameTrees]
    omega

theorem nodeInOrder (h : Planted first second ids trees) (kind : NodeKind)
    (span : Span) :
    Planted first (second.push kind span ids).2
      [(second.push kind span ids).1] [.node kind span trees] :=
  h.node (.refl _) (.refl _) h.shown kind span

end Planted

end SyntaxTree

namespace Tree

open SyntaxTree

mutual

theorem planted_push : ∀ (tree : Tree) (arena : SyntaxTree),
    Planted arena (tree.push arena).2 [(tree.push arena).1] [tree]
  | .node kind span [left, middle, right], arena => by
      have hleft := planted_push left arena
      rw [push]
      split
      · have hright := planted_push right (left.push arena).2
        have hmiddle := planted_push middle
          (right.push (left.push arena).2).2
        have all := (hleft.append hright).append hmiddle
        -- The operator is added last but stands in the middle.
        refine all.node ((List.Perm.swap _ _ []).cons _)
          ((List.Perm.swap _ _ []).cons _) ?_ kind span
        obtain ⟨first, last, operator, -⟩ := by
          simpa only [List.singleton_append, List.cons_append, List.nil_append,
            showsAll_cons] using all.shown
        simp only [showsAll_cons, showsAll_nil]
        exact ⟨first, operator, last, trivial⟩
      · have hmiddle := planted_push middle (left.push arena).2
        have hright := planted_push right
          (middle.push (left.push arena).2).2
        exact ((hleft.append hmiddle).append hright).nodeInOrder kind span
  | .node kind span [], arena => (Planted.nil arena).nodeInOrder kind span
  | .node kind span [only], arena =>
      (planted_pushAll [only] arena).nodeInOrder kind span
  | .node kind span [first, second], arena =>
      (planted_pushAll [first, second] arena).nodeInOrder kind span
  | .node kind span (first :: second :: third :: fourth :: rest), arena =>
      (planted_pushAll (first :: second :: third :: fourth :: rest)
        arena).nodeInOrder kind span

theorem planted_pushAll : ∀ (trees : List Tree) (arena : SyntaxTree),
    Planted arena (pushAll trees arena).2 (pushAll trees arena).1 trees
  | [], arena => .nil arena
  | tree :: rest, arena =>
      (planted_push tree arena).append
        (planted_pushAll rest (tree.push arena).2)

end

end Tree

/-! ## Whole trees -/

namespace SyntaxTree

structure Linked (tree : SyntaxTree) (root : Nat) : Prop where
  isRoot : tree.root = some root
  within : root < tree.nodes.size
  parentless : ∀ {id : Nat} {node : SyntaxNode},
    tree.nodes[id]? = some node → (node.parent = none ↔ id = root)
  down : ∀ {id index child : Nat} {node : SyntaxNode},
    tree.nodes[id]? = some node → node.children[index]? = some child →
    child < id ∧ ∃ below, tree.nodes[child]? = some below ∧
      below.parent = some id ∧ below.index = index
  up : ∀ {id parent : Nat} {node : SyntaxNode},
    tree.nodes[id]? = some node → node.parent = some parent →
    ∃ above, tree.nodes[parent]? = some above ∧
      above.children[node.index]? = some id

theorem planted_ofTree (tree : Tree) :
    Planted {} (tree.push {}).2 [(tree.push {}).1] [tree] :=
  tree.planted_push {}

theorem linked_ofTree (tree : Tree) :
    (ofTree tree).Linked (tree.push {}).1 := by
  have grown := (planted_ofTree tree).grown
  refine ⟨rfl, (grown.newer _ List.mem_cons_self).2, ?_, ?_, ?_⟩
  · intro id node found
    rw [grown.parentless (Nat.zero_le _) found, List.mem_singleton]
  · intro id index child node found isChild
    exact (grown.down (Nat.zero_le _) found isChild).2
  · intro id parent node found isParent
    exact grown.up (Nat.zero_le _) found isParent

theorem shows_ofTree (tree : Tree) :
    (ofTree tree).Shows (tree.push {}).1 tree := by
  have keeps : (tree.push {}).2.Keeps (ofTree tree) :=
    fun _ _ found => ⟨_, found, rfl, rfl, rfl⟩
  have shown := (planted_ofTree tree).shown
  rw [showsAll_cons] at shown
  exact shown.1.kept keeps

@[simp] theorem size_ofTree (tree : Tree) :
    (ofTree tree).nodes.size = tree.size := by
  refine (planted_ofTree tree).size.trans ?_
  simp [Tree.sizeList]

namespace Linked

variable {tree : SyntaxTree} {root id parent : Nat} {node : SyntaxNode}

theorem lt_parent (linked : tree.Linked root)
    (found : tree.nodes[id]? = some node) (isParent : node.parent = some parent) :
    id < parent := by
  obtain ⟨above, isAbove, isChild⟩ := linked.up found isParent
  exact (linked.down isAbove isChild).1

theorem induct (linked : tree.Linked root) {motive : Nat → Prop}
    (top : motive root)
    (down : ∀ {id index child : Nat} {node : SyntaxNode},
      tree.nodes[id]? = some node →
      node.children[index]? = some child → motive id → motive child) :
    ∀ id < tree.nodes.size, motive id := by
  intro id within
  -- Parents stand behind their children, so the distance to the end shrinks.
  generalize distance : tree.nodes.size - id = left
  induction left using Nat.strongRecOn generalizing id with
  | ind left ih =>
      have found := Array.getElem?_eq_getElem within
      cases isParent : tree.nodes[id].parent with
      | none => exact (linked.parentless found).mp isParent ▸ top
      | some parent =>
          obtain ⟨above, isAbove, isChild⟩ := linked.up found isParent
          have bound := lt_size_of_getElem? isAbove
          have behind := linked.lt_parent found isParent
          exact down isAbove isChild (ih _ (by omega) parent bound rfl)

end Linked

theorem exists_shows_ofTree {tree : Tree} {holds : Tree → Prop}
    (h : tree.Everywhere holds) :
    ∀ id < (ofTree tree).nodes.size,
      ∃ below, (ofTree tree).Shows id below ∧ holds below := by
  have all := (linked_ofTree tree).induct
    (motive := fun id => ∃ below, (ofTree tree).Shows id below ∧
      below.Everywhere holds) ⟨tree, shows_ofTree tree, h⟩ ?_
  · intro id within
    obtain ⟨below, shown, every⟩ := all id within
    exact ⟨below, shown, (Tree.everywhere_iff.mp every).1⟩
  · rintro id index child node found isChild ⟨⟨kind, span, trees⟩, shown, every⟩
    obtain ⟨other, isOther, -, -, all⟩ := shown
    cases found.symm.trans isOther
    obtain ⟨below, isBelow, shown⟩ := all.exists_tree isChild
    exact ⟨below, shown, (Tree.everywhere_iff.mp every).2 below
      (List.mem_of_getElem? isBelow)⟩

end SyntaxTree

/-! ## Cursors -/

namespace Cursor

def child? (cursor : Cursor) (index : Nat) : Option Cursor := do
  let child ← (← cursor.node?).children[index]?
  return { cursor with node := child }

variable {cursor child : Cursor} {index : Nat} {tree : Tree}

theorem child?_eq_some_iff :
    cursor.child? index = some child ↔
      ∃ node, cursor.node? = some node ∧
        node.children[index]? = some child.node ∧
        child.tree = cursor.tree := by
  obtain ⟨tree, id⟩ := child
  cases found : cursor.node? with
  | none => simp [child?, found]
  | some node =>
      cases isChild : node.children[index]? with
      | none => simp [child?, found, isChild]
      | some other =>
          simp [child?, found, isChild, eq_comm, and_comm]

theorem tree_of_child? (isChild : cursor.child? index = some child) :
    child.tree = cursor.tree := by
  obtain ⟨-, -, -, same⟩ := child?_eq_some_iff.mp isChild
  exact same

theorem firstChild?_eq (cursor : Cursor) :
    cursor.firstChild? = cursor.child? 0 := by
  simp [firstChild?, child?, List.head?_eq_getElem?]

theorem lastChild?_eq {node : SyntaxNode} (found : cursor.node? = some node) :
    cursor.lastChild? = cursor.child? (node.children.length - 1) := by
  simp [lastChild?, child?, found, List.getLast?_eq_getElem?]

section Links

variable {root : Nat} (linked : cursor.tree.Linked root)
  (isChild : cursor.child? index = some child)
include linked isChild

theorem parent?_of_child? : child.parent? = some cursor := by
  obtain ⟨node, found, isChild, same⟩ := child?_eq_some_iff.mp isChild
  obtain ⟨-, below, isBelow, isParent, -⟩ := linked.down found isChild
  have here : child.node? = some below := by rw [node?, same, isBelow]
  simp [parent?, here, isParent, same]

theorem nextSibling?_of_child? :
    child.nextSibling? = cursor.child? (index + 1) := by
  have isParent := parent?_of_child? linked isChild
  obtain ⟨node, found, isChild, same⟩ := child?_eq_some_iff.mp isChild
  obtain ⟨-, below, isBelow, -, isIndex⟩ := linked.down found isChild
  have here : child.node? = some below := by rw [node?, same, isBelow]
  simp [nextSibling?, here, isParent, found, isIndex, child?, same]

end Links

theorem exists_child?_of_parent? {root : Nat} {parent : Cursor}
    (linked : cursor.tree.Linked root)
    (isParent : cursor.parent? = some parent) :
    parent.tree = cursor.tree ∧
      ∃ index, parent.child? index = some cursor := by
  cases found : cursor.node? with
  | none => simp [parent?, found] at isParent
  | some node =>
      cases isAbove : node.parent with
      | none => simp [parent?, found, isAbove] at isParent
      | some id =>
          simp [parent?, found, isAbove] at isParent
          subst isParent
          obtain ⟨above, here, isChild⟩ := linked.up found isAbove
          exact ⟨rfl, node.index,
            child?_eq_some_iff.mpr ⟨above, here, isChild, rfl⟩⟩

section Root

variable (linked : cursor.tree.Linked cursor.node)
include linked

theorem parent?_of_root : cursor.parent? = none := by
  have found := Array.getElem?_eq_getElem linked.within
  have isRoot := (linked.parentless found).mpr rfl
  simp [parent?, node?, found, isRoot]

theorem nextSibling?_of_root : cursor.nextSibling? = none := by
  simp [nextSibling?, parent?_of_root linked]

end Root

structure Stands (cursor : Cursor) (tree : Tree) : Prop where
  linked : ∃ root, cursor.tree.Linked root
  shown : cursor.tree.Shows cursor.node tree

namespace Stands

theorem exists_node (h : cursor.Stands tree) :
    ∃ node, cursor.node? = some node ∧ node.kind = tree.kind ∧
      node.span = tree.span ∧
      cursor.tree.ShowsAll node.children tree.children := by
  obtain ⟨kind, span, children⟩ := tree
  exact h.shown

theorem kind (h : cursor.Stands tree) : cursor.kind = tree.kind := by
  obtain ⟨node, found, isKind, -⟩ := h.exists_node
  rw [node?] at found
  simp [Cursor.kind, SyntaxTree.kind, found, isKind]

theorem span (h : cursor.Stands tree) : cursor.span = tree.span := by
  obtain ⟨node, found, -, isSpan, -⟩ := h.exists_node
  rw [node?] at found
  simp [Cursor.span, SyntaxTree.span, found, isSpan]

theorem exists_child (h : cursor.Stands tree) (index : Nat) {below : Tree}
    (isBelow : tree.children[index]? = some below) :
    ∃ child, cursor.child? index = some child ∧ child.Stands below := by
  obtain ⟨node, found, -, -, all⟩ := h.exists_node
  obtain ⟨id, isChild, shown⟩ := all.getElem? isBelow
  exact ⟨⟨cursor.tree, id⟩,
    child?_eq_some_iff.mpr ⟨node, found, isChild, rfl⟩, h.linked, shown⟩

theorem child?_eq_none (h : cursor.Stands tree)
    (past : tree.children[index]? = none) : cursor.child? index = none := by
  obtain ⟨node, found, -, -, all⟩ := h.exists_node
  rw [List.getElem?_eq_none_iff, ← all.length,
    ← List.getElem?_eq_none_iff] at past
  simp [child?, found, past]

theorem of_drop {kind : NodeKind} {span : Span} {trees after : List Tree}
    {focus : Tree} (h : cursor.Stands (.node kind span trees))
    (here : cursor.child? index = some child)
    (rest : trees.drop index = focus :: after) : child.Stands focus := by
  obtain ⟨other, isOther, stands⟩ :=
    h.exists_child index (Tree.getElem?_of_drop rest)
  rw [here] at isOther
  cases isOther
  exact stands

section Siblings

variable {kind : NodeKind} {span : Span} {trees after : List Tree}
  {sibling : Tree}

theorem nextSibling?_eq_none (h : cursor.Stands (.node kind span trees))
    (here : cursor.child? index = some child)
    (rest : trees.drop (index + 1) = []) : child.nextSibling? = none := by
  obtain ⟨root, linked⟩ := h.linked
  rw [nextSibling?_of_child? linked here]
  exact h.child?_eq_none (Tree.getElem?_of_drop rest)

theorem exists_nextSibling (h : cursor.Stands (.node kind span trees))
    (here : cursor.child? index = some child)
    (rest : trees.drop (index + 1) = sibling :: after) :
    ∃ next, child.nextSibling? = some next ∧
      cursor.child? (index + 1) = some next ∧ next.Stands sibling := by
  obtain ⟨root, linked⟩ := h.linked
  obtain ⟨next, isNext, stands⟩ :=
    h.exists_child (index + 1) (Tree.getElem?_of_drop rest)
  exact ⟨next, (nextSibling?_of_child? linked here).trans isNext, isNext,
    stands⟩

end Siblings

end Stands

def ofTree (tree : Tree) : Cursor := ⟨.ofTree tree, (tree.push {}).1⟩

@[simp] theorem cursor?_ofTree (tree : Tree) :
    (SyntaxTree.ofTree tree).cursor? = some (ofTree tree) := rfl

theorem stands_ofTree (tree : Tree) : (ofTree tree).Stands tree :=
  ⟨⟨_, SyntaxTree.linked_ofTree tree⟩, SyntaxTree.shows_ofTree tree⟩

end Cursor

end ProofOutline
