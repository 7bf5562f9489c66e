import ProofOutline.Proofs.Parser.Completeness

/-!
# The grammar is unambiguous

Two derivations with the same tokens are the same.  A phrase can be told from
its tree and its tokens together, and the parser gives a list of tokens one
tree, whichever derivation they came from.
-/

namespace ProofOutline

open ProofOutline.Parser

/-! ## A phrase from its tree and its tokens -/

inductive PhraseForm where
  | atom
  | prefixed
  | infixed
  | bracketed
  | emptyCall
  | call
  deriving DecidableEq

def Phrase.form : Phrase → PhraseForm
  | .atom _ => .atom
  | .prefixed _ _ => .prefixed
  | .infixed _ _ _ => .infixed
  | .bracketed _ _ _ => .bracketed
  | .emptyCall _ _ _ => .emptyCall
  | .call _ _ _ => .call

def Tree.form : Tree → PhraseForm
  | .node _ _ [] => .atom
  | .node kind _ (_ :: rest) =>
      match kind with
      | .application =>
          match rest with
          | [.node _ _ [_, _]] => .emptyCall
          | _ => .call
      | .formulaParens | .arithParens => .bracketed
      | .negation | .signed => .prefixed
      | _ => .infixed

@[simp] theorem Phrase.form_tree (phrase : Phrase) :
    phrase.tree.form = phrase.form := by
  cases phrase with
  | atom token => cases token.kind.leafKind <;> rfl
  | prefixed op body =>
      obtain ⟨kind, span⟩ := op
      cases kind <;> rfl
  | infixed left op right =>
      obtain ⟨kind, span⟩ := op
      cases kind <;> rfl
  | bracketed opening inner closing =>
      rw [Phrase.tree]
      split <;> rfl
  | emptyCall name opening closing => rfl
  | call name opening args => cases args <;> rfl

theorem Phrase.form_eq_of_tree {phrase other : Phrase}
    (h : phrase.tree = other.tree) : phrase.form = other.form := by
  rw [← phrase.form_tree, ← other.form_tree, h]

mutual

theorem Phrase.eq_of_tree :
    ∀ (phrase other : Phrase) {rest otherRest : List Token},
      phrase.tree = other.tree →
      phrase.yield ++ rest = other.yield ++ otherRest →
      phrase = other ∧ rest = otherRest
  | .atom token, other, _, _, tree, yield => by
      have form := Phrase.form_eq_of_tree tree
      cases other with
      | atom token' =>
          cases yield
          exact ⟨rfl, rfl⟩
      | _ => cases form
  | .prefixed op body, other, _, _, tree, yield => by
      have form := Phrase.form_eq_of_tree tree
      cases other with
      | prefixed op' body' =>
          injection tree with _ _ children
          injection children with _ children
          injection children with tree _
          injection yield with eq yield
          obtain ⟨rfl, rfl⟩ := body.eq_of_tree body' tree yield
          exact ⟨by rw [eq], rfl⟩
      | _ => cases form
  | .infixed left op right, other, _, _, tree, yield => by
      have form := Phrase.form_eq_of_tree tree
      cases other with
      | infixed left' op' right' =>
          injection tree with _ _ children
          injection children with treeLeft children
          injection children with _ children
          injection children with treeRight _
          rw [Phrase.yield, Phrase.yield, List.append_assoc,
            List.append_assoc] at yield
          obtain ⟨rfl, after⟩ := left.eq_of_tree left' treeLeft yield
          injection after with eq yield
          obtain ⟨rfl, rfl⟩ := right.eq_of_tree right' treeRight yield
          exact ⟨by rw [eq], rfl⟩
      | _ => cases form
  | .bracketed opening inner closing, other, _, _, tree, yield => by
      have form := Phrase.form_eq_of_tree tree
      cases other with
      | bracketed opening' inner' closing' =>
          injection tree with _ _ children
          injection children with _ children
          injection children with tree _
          simp only [Phrase.yield, List.cons_append, List.append_assoc]
            at yield
          injection yield with eqOpening yield
          obtain ⟨rfl, after⟩ := inner.eq_of_tree inner' tree yield
          injection after with eqClosing after
          exact ⟨by rw [eqOpening, eqClosing], after⟩
      | _ => cases form
  | .emptyCall name opening closing, other, _, _, tree, yield => by
      have form := Phrase.form_eq_of_tree tree
      cases other with
      | emptyCall name' opening' closing' =>
          cases yield
          exact ⟨rfl, rfl⟩
      | _ => cases form
  | .call name opening args, other, _, _, tree, yield => by
      have form := Phrase.form_eq_of_tree tree
      cases other with
      | call name' opening' args' =>
          injection tree with _ _ children
          injection children with _ children
          injection children with node _
          injection node with _ _ children
          injection children with _ items
          injection yield with eqName yield
          injection yield with eqOpening yield
          obtain ⟨rfl, rfl⟩ := args.eq_of_items args' items yield
          exact ⟨by rw [eqName, eqOpening], rfl⟩
      | _ => cases form

private theorem Arguments.eq_of_items :
    ∀ (args others : Arguments) {rest otherRest : List Token},
      args.items = others.items →
      args.yield ++ rest = others.yield ++ otherRest →
      args = others ∧ rest = otherRest
  | .last arg closing, others, _, _, items, yield => by
      cases others with
      | last arg' closing' =>
          injection items with tree _
          rw [Arguments.yield, Arguments.yield, List.append_assoc,
            List.append_assoc] at yield
          obtain ⟨rfl, after⟩ := arg.eq_of_tree arg' tree yield
          injection after with eq yield
          exact ⟨by rw [eq], yield⟩
      | more arg' comma' rest' =>
          injection items with _ items
          injection items with _ items
          cases rest' <;> cases items
  | .more arg comma args, others, _, _, items, yield => by
      cases others with
      | last arg' closing' =>
          injection items with _ items
          injection items with _ items
          cases args <;> cases items
      | more arg' comma' args' =>
          injection items with tree items
          injection items with _ items
          rw [Arguments.yield, Arguments.yield, List.append_assoc,
            List.append_assoc] at yield
          obtain ⟨rfl, after⟩ := arg.eq_of_tree arg' tree yield
          injection after with eq yield
          obtain ⟨rfl, rfl⟩ := args.eq_of_items args' items yield
          exact ⟨by rw [eq], rfl⟩

end

/-! ## One derivation for a list of tokens -/

private theorem Derives.parser_eq_ok {stratum : Stratum} {phrase : Phrase}
    (derived : Derives stratum phrase) {room : Nat}
    (enough : phrase.cost ≤ room)
    {rest : List Token} (stops : Stops stratum rest) :
    ofStratum stratum (.ofRoom room) (phrase.yield ++ rest) =
      .ok (phrase.tree, rest) :=
  (derived.closed room rest stops).1 enough

theorem Derives.unique {stratum : Stratum} {phrase other : Phrase}
    (derived : Derives stratum phrase) (otherDerived : Derives stratum other)
    {rest otherRest : List Token} (stops : Stops stratum rest)
    (otherStops : Stops stratum otherRest)
    (yield : phrase.yield ++ rest = other.yield ++ otherRest) :
    phrase = other ∧ rest = otherRest := by
  have parsed := derived.parser_eq_ok
    (Nat.le_max_left phrase.cost other.cost) stops
  have otherParsed := otherDerived.parser_eq_ok
    (Nat.le_max_right phrase.cost other.cost) otherStops
  rw [yield, otherParsed] at parsed
  injection parsed with same
  injection same with tree _
  exact phrase.eq_of_tree other tree.symm yield

end ProofOutline
