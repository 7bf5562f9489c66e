import ProofOutline.Formula

/-!
# SMT-LIB scripts

Expressions and formulas written in the SMT-LIB language.  Its `div` and `mod`
are Euclidean and unspecified at zero, so truncating division is spelled out by
case distinction.  A script declares the variables and predicate symbols of a
formula, asserts it and asks for satisfiability.
-/

namespace ProofOutline

/-- Division toward zero, with quotient `0` for divisor `0`. -/
def SmtLib.truncDiv (left right : String) : String :=
  s!"(ite (= {right} 0) 0 " ++
    s!"(ite (or (= (mod {left} {right}) 0) (>= {left} 0)) " ++
    s!"(div {left} {right}) " ++
    s!"(ite (>= {right} 0) " ++
    s!"(+ (div {left} {right}) 1) (- (div {left} {right}) 1))))"

/-- The remainder that goes with `truncDiv`, the dividend for divisor `0`. -/
def SmtLib.truncMod (left right : String) : String :=
  s!"(ite (= {right} 0) {left} " ++
    s!"(- {left} (* {truncDiv left right} {right})))"

def Word.toSmtLib (word : Word) : String :=
  if word.toInt < 0 then s!"(- {word.toInt.natAbs})" else toString word.toInt

open SmtLib in
def Arith.toSmtLib : Arith → String
  | lit word => word.toSmtLib
  | var name => name.text
  | binary .plus left right => s!"(+ {left.toSmtLib} {right.toSmtLib})"
  | binary .minus left right => s!"(- {left.toSmtLib} {right.toSmtLib})"
  | binary .times left right => s!"(* {left.toSmtLib} {right.toSmtLib})"
  | binary .divide left right => truncDiv left.toSmtLib right.toSmtLib
  | binary .modulo left right => truncMod left.toSmtLib right.toSmtLib

def Connective.smtSymbol : Connective → String
  | and => "and"
  | or => "or"
  | implies => "=>"

def CompareOp.toSmtLib (left right : String) : CompareOp → String
  | eq => s!"(= {left} {right})"
  | ne => s!"(not (= {left} {right}))"
  | lt => s!"(< {left} {right})"
  | le => s!"(<= {left} {right})"
  | gt => s!"(> {left} {right})"
  | ge => s!"(>= {left} {right})"

def Formula.toSmtLib : Formula → String
  | truth value => toString value
  | predicate name [] => name.text
  | predicate name args =>
      let inner := " ".intercalate (args.map Arith.toSmtLib)
      s!"({name.text} {inner})"
  | neg body => s!"(not {body.toSmtLib})"
  | connect op left right =>
      s!"({op.smtSymbol} {left.toSmtLib} {right.toSmtLib})"
  | compare op left right => op.toSmtLib left.toSmtLib right.toSmtLib

def Name.declaration (name : Name) : String :=
  s!"(declare-const {name.text} Int)\n"

def PredicateSymbol.declaration (symbol : PredicateSymbol) : String :=
  let domain := " ".intercalate (List.replicate symbol.arity "Int")
  s!"(declare-fun {symbol.name.text} ({domain}) Bool)\n"

def Formula.toScript (formula : Formula) : String :=
  String.join (formula.freeVars.map Name.declaration) ++
    String.join (formula.predicateSymbols.map PredicateSymbol.declaration) ++
    s!"(assert {formula.toSmtLib})\n(check-sat)\n"

end ProofOutline
