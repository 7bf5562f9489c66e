import ProofOutline.Arith

/-!
# Formulas

Quantifier-free formulas over integer program variables: comparisons, the
usual connectives, and applications of predicate symbols.
-/

namespace ProofOutline

inductive CompareOp where
  | eq
  | ne
  | lt
  | le
  | gt
  | ge
  deriving DecidableEq, Repr

namespace CompareOp

def symbol : CompareOp → String
  | eq => "="
  | ne => "!="
  | lt => "<"
  | le => "<="
  | gt => ">"
  | ge => ">="

def ofSymbol? : String → Option CompareOp
  | "=" => some eq
  | "!=" => some ne
  | "<" => some lt
  | "<=" => some le
  | ">" => some gt
  | ">=" => some ge
  | _ => none

def holds : CompareOp → Int → Int → Bool
  | eq, a, b => a == b
  | ne, a, b => a != b
  | lt, a, b => a < b
  | le, a, b => a ≤ b
  | gt, a, b => a > b
  | ge, a, b => a ≥ b

end CompareOp

inductive Connective where
  | and
  | or
  | implies
  deriving DecidableEq, Repr

namespace Connective

def symbol : Connective → String
  | and => "&&"
  | or => "||"
  | implies => "=>"

def ofSymbol? : String → Option Connective
  | "&&" => some and
  | "||" => some or
  | "=>" => some implies
  | _ => none

end Connective

inductive Formula where
  | truth (value : Bool)
  | predicate (name : Name) (args : List Arith)
  | neg (body : Formula)
  | connect (op : Connective) (left right : Formula)
  | compare (op : CompareOp) (left right : Arith)
  deriving DecidableEq

structure PredicateSymbol where
  name : Name
  arity : Nat
  deriving DecidableEq

namespace PredicateSymbol

instance : LT PredicateSymbol :=
  ⟨fun a b => a.name < b.name ∨ (a.name = b.name ∧ a.arity < b.arity)⟩

instance : DecidableLT PredicateSymbol := fun a b =>
  inferInstanceAs
    (Decidable (a.name < b.name ∨ (a.name = b.name ∧ a.arity < b.arity)))

theorem lt_irrefl (a : PredicateSymbol) : ¬ a < a := by
  rintro (less | ⟨-, less⟩)
  · exact Name.lt_irrefl _ less
  · exact Nat.lt_irrefl _ less

theorem lt_trans {a b c : PredicateSymbol} (hab : a < b) (hbc : b < c) :
    a < c := by
  rcases hab with less | ⟨same, less⟩
  · rcases hbc with more | ⟨same', -⟩
    · exact .inl (Name.lt_trans less more)
    · exact .inl (same' ▸ less)
  · rcases hbc with more | ⟨same', more⟩
    · exact .inl (same ▸ more)
    · exact .inr ⟨same.trans same', Nat.lt_trans less more⟩

theorem eq_of_not_lt {a b : PredicateSymbol} (hab : ¬ a < b)
    (hba : ¬ b < a) : a = b := by
  obtain ⟨name, arity⟩ := a
  obtain ⟨name', arity'⟩ := b
  have names : name = name' :=
    Name.eq_of_not_lt (mt .inl hab) (mt .inl hba)
  subst names
  have notBelow : ¬ arity < arity' := fun less => hab (.inr ⟨rfl, less⟩)
  have notAbove : ¬ arity' < arity := fun less => hba (.inr ⟨rfl, less⟩)
  rw [Nat.le_antisymm (Nat.le_of_not_lt notAbove)
    (Nat.le_of_not_lt notBelow)]

end PredicateSymbol

namespace Formula

def implies (left right : Formula) : Formula :=
  .connect .implies left right

/-- Fold `f1, f2, f3` into `f1 && (f2 && f3)`. -/
def conjoin? : List Formula → Option Formula
  | [] => none
  | first :: rest =>
      match conjoin? rest with
      | none => some first
      | some tail => some (.connect .and first tail)

def render : Formula → String
  | truth true => "true"
  | truth false => "false"
  | predicate name args =>
      name.text ++ "(" ++ ", ".intercalate (args.map Arith.render) ++ ")"
  | neg body => "!" ++ body.render
  | connect op left right =>
      "(" ++ left.render ++ " " ++ op.symbol ++ " " ++ right.render ++ ")"
  | compare op left right =>
      "(" ++ left.render ++ " " ++ op.symbol ++ " " ++ right.render ++ ")"

def subst (formula : Formula) (name : Name) (replacement : Arith) : Formula :=
  match formula with
  | truth value => .truth value
  | predicate symbol args =>
      .predicate symbol (args.map fun arg => arg.subst name replacement)
  | neg body => .neg (body.subst name replacement)
  | connect op left right =>
      .connect op (left.subst name replacement) (right.subst name replacement)
  | compare op left right =>
      .compare op (left.subst name replacement) (right.subst name replacement)

def occurrences : Formula → List Name
  | truth _ => []
  | predicate _ args => args.flatMap Arith.occurrences
  | neg body => body.occurrences
  | connect _ left right => left.occurrences ++ right.occurrences
  | compare _ left right => left.occurrences ++ right.occurrences

def freeVars (formula : Formula) : List Name :=
  OrderedSet.ofList formula.occurrences

theorem mem_freeVars {name : Name} {formula : Formula} :
    name ∈ formula.freeVars ↔ name ∈ formula.occurrences :=
  OrderedSet.mem_ofList (fun _ _ => Name.eq_of_not_lt) name
    formula.occurrences

def predicates : Formula → List PredicateSymbol
  | truth _ => []
  | predicate name args => [⟨name, args.length⟩]
  | neg body => body.predicates
  | connect _ left right => left.predicates ++ right.predicates
  | compare _ _ _ => []

def predicateSymbols (formula : Formula) : List PredicateSymbol :=
  OrderedSet.ofList formula.predicates

theorem mem_predicateSymbols {symbol : PredicateSymbol}
    {formula : Formula} :
    symbol ∈ formula.predicateSymbols ↔ symbol ∈ formula.predicates :=
  OrderedSet.mem_ofList (fun _ _ => PredicateSymbol.eq_of_not_lt) symbol
    formula.predicates

end Formula

end ProofOutline
