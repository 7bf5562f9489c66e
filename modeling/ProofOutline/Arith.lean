import ProofOutline.Name
import ProofOutline.Ordered
import ProofOutline.Word

/-!
# Arithmetic expressions

Expressions over words, with their printing, substitution, free variables and
evaluation.  Division truncates toward zero, `x / 0` is `0` and `x % 0` is `x`.
Evaluation in words gives nothing as soon as some intermediate result leaves
the range of a word.
-/

namespace ProofOutline

inductive ArithOp where
  | plus
  | minus
  | times
  | divide
  | modulo
  deriving DecidableEq, Repr

namespace ArithOp

def symbol : ArithOp → String
  | plus => "+"
  | minus => "-"
  | times => "*"
  | divide => "/"
  | modulo => "%"

def ofSymbol? : String → Option ArithOp
  | "+" => some plus
  | "-" => some minus
  | "*" => some times
  | "/" => some divide
  | "%" => some modulo
  | _ => none

def exact : ArithOp → Int → Int → Int
  | plus, a, b => a + b
  | minus, a, b => a - b
  | times, a, b => a * b
  | divide, a, b => a.tdiv b
  | modulo, a, b => a.tmod b

def onWords? : ArithOp → Word → Word → Option Word
  | plus, a, b => Word.checked (a.toBitVec.saddOverflow b.toBitVec) (a + b)
  | minus, a, b => Word.checked (a.toBitVec.ssubOverflow b.toBitVec) (a - b)
  | times, a, b => Word.checked (a.toBitVec.smulOverflow b.toBitVec) (a * b)
  | divide, a, b => Word.quotient? a b
  | modulo, a, b => Word.remainder? a b

end ArithOp

inductive Arith where
  | lit (value : Word)
  | var (name : Name)
  | binary (op : ArithOp) (left right : Arith)
  deriving DecidableEq

namespace Arith

/-- Unary minus is multiplication by `-1`. -/
def negate (expr : Arith) : Arith :=
  .binary .times (.lit (-1)) expr

def render : Arith → String
  | lit value => value.render
  | var name => name.text
  | binary op left right =>
      if op = .times ∧ left = .lit (-1) then "-" ++ right.render
      else
        "(" ++ left.render ++ " " ++ op.symbol ++ " " ++ right.render ++ ")"

def subst (expr : Arith) (name : Name) (replacement : Arith) : Arith :=
  match expr with
  | lit value => .lit value
  | var other => if other = name then replacement else .var other
  | binary op left right =>
      .binary op (left.subst name replacement) (right.subst name replacement)

def occurrences : Arith → List Name
  | lit _ => []
  | var name => [name]
  | binary _ left right => left.occurrences ++ right.occurrences

def freeVars (expr : Arith) : List Name :=
  OrderedSet.ofList expr.occurrences

theorem mem_freeVars {name : Name} {expr : Arith} :
    name ∈ expr.freeVars ↔ name ∈ expr.occurrences :=
  OrderedSet.mem_ofList (fun _ _ => Name.eq_of_not_lt) name expr.occurrences

def value (env : Name → Int) : Arith → Int
  | lit word => word.toInt
  | var name => env name
  | binary op left right => op.exact (left.value env) (right.value env)

def eval? (env : Name → Word) : Arith → Option Word
  | lit word => some word
  | var name => some (env name)
  | binary op left right =>
      match left.eval? env, right.eval? env with
      | some a, some b => op.onWords? a b
      | _, _ => none

end Arith

end ProofOutline
