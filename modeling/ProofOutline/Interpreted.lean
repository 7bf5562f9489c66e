import ProofOutline.Triple

/-!
# Interpreted predicates

`even` and `odd` of one argument have a fixed meaning: they stand for a
statement about the remainder by two.  Expanding them leaves all other
predicate applications alone.
-/

namespace ProofOutline

structure Interpreted where
  name : String
  arity : Nat
  expand : List Arith → Formula

namespace Interpreted

def remainderByTwo (remainder : Word) (args : List Arith) : Formula :=
  .compare .eq (.binary .modulo (args.headD (.lit 0)) (.lit 2))
    (.lit remainder)

def known : List Interpreted :=
  [⟨"even", 1, remainderByTwo 0⟩, ⟨"odd", 1, remainderByTwo 1⟩]

def find? (name : String) : Option Interpreted :=
  known.find? fun symbol => symbol.name == name

def expand? (symbol : Interpreted) (args : List Arith) : Option Formula :=
  if args.length = symbol.arity then some (symbol.expand args) else none

end Interpreted

namespace Formula

def desugar : Formula → Formula
  | predicate name args =>
      ((Interpreted.find? name.text).bind (·.expand? args)).getD
        (.predicate name args)
  | neg body => .neg body.desugar
  | connect op left right => .connect op left.desugar right.desugar
  | truth value => .truth value
  | compare op left right => .compare op left right

end Formula

def Decl.desugar : Decl → Decl
  | assertion a => .assertion { a with formula := a.formula.desugar }
  | program p => .program p

end ProofOutline
