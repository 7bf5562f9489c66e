import ProofOutline.Semantics

/-!
# The SMT-LIB language

As much of the language as scripts about integers use.  A text is read as a
sequence of symbolic expressions, and a symbolic expression has a value if it is
a well-sorted term over a signature.  The operators are those of the theories
`Core` and `Ints`.  Texts with comments, string literals or quoted symbols are
not covered, nor are terms with binders.
-/

namespace ProofOutline.SmtLib

/-! ## Symbolic expressions -/

inductive Lexeme where
  | opening
  | closing
  | word (text : String)
  deriving DecidableEq, Repr

namespace Lexeme

def isBlank (c : Char) : Bool :=
  c == ' ' || c == '\t' || c == '\n' || c == '\r'

def ofWord (word : List Char) : List Lexeme :=
  if word.isEmpty then [] else [.word (String.ofList word)]

def split (word : List Char) : List Char → List Lexeme
  | [] => ofWord word
  | c :: rest =>
      if c == '(' then ofWord word ++ .opening :: split [] rest
      else if c == ')' then ofWord word ++ .closing :: split [] rest
      else if isBlank c then ofWord word ++ split [] rest
      else split (word ++ [c]) rest

end Lexeme

inductive SExpr where
  | atom (text : String)
  | list (items : List SExpr)

namespace SExpr

def parse (items : List SExpr) (enclosing : List (List SExpr)) :
    List Lexeme → Option (List SExpr)
  | [] => if enclosing.isEmpty then some items else none
  | .word text :: rest => parse (items ++ [.atom text]) enclosing rest
  | .opening :: rest => parse [] (items :: enclosing) rest
  | .closing :: rest =>
      match enclosing with
      | [] => none
      | outer :: enclosing => parse (outer ++ [.list items]) enclosing rest

def read (text : String) : Option (List SExpr) :=
  parse [] [] (Lexeme.split [] text.toList)

end SExpr

/-! ## Atoms -/

def numeral? (text : String) : Option Nat :=
  let digits := text.toList
  if !digits.isEmpty && digits.all Char.isDigit &&
      (digits == ['0'] || digits.head? != some '0') then
    some (Nat.ofDigitChars 10 digits 0)
  else none

def isSymbolChar (c : Char) : Bool :=
  c.isAlphanum || "~!@$%^&*_-+=<>.?/".toList.contains c

def isSymbol (text : String) : Bool :=
  text.toList.all isSymbolChar && text.toList.head?.any (!·.isDigit)

/-- Symbols that have a meaning in the grammar, and the names of commands. -/
def reservedWords : List String :=
  ["!", "_", "as", "BINARY", "DECIMAL", "exists", "HEXADECIMAL", "forall",
    "let", "match", "NUMERAL", "par", "STRING", "assert", "check-sat",
    "check-sat-assuming", "declare-const", "declare-datatype",
    "declare-datatypes", "declare-fun", "declare-sort", "define-fun",
    "define-fun-rec", "define-funs-rec", "define-sort", "echo", "exit",
    "get-assertions", "get-assignment", "get-info", "get-model", "get-option",
    "get-proof", "get-unsat-assumptions", "get-unsat-core", "get-value", "pop",
    "push", "reset", "reset-assertions", "set-info", "set-logic", "set-option"]

inductive Operator where
  | truth (value : Bool)
  | not
  | and
  | or
  | xor
  | implies
  | equal
  | distinct
  | ite
  | plus
  | minus
  | times
  | div
  | mod
  | abs
  | less
  | atMost
  | greater
  | atLeast
  deriving DecidableEq, Repr

def operators : List (String × Operator) :=
  [("true", .truth true), ("false", .truth false), ("not", .not),
    ("and", .and), ("or", .or), ("xor", .xor), ("=>", .implies),
    ("=", .equal), ("distinct", .distinct), ("ite", .ite), ("+", .plus),
    ("-", .minus), ("*", .times), ("div", .div), ("mod", .mod),
    ("abs", .abs), ("<", .less), ("<=", .atMost), (">", .greater),
    (">=", .atLeast)]

/-- The language gives the symbol a meaning, so that no script declares it. -/
def Fixed (text : String) : Prop :=
  text ∈ reservedWords ∨ (operators.lookup text).isSome = true

instance (text : String) : Decidable (Fixed text) :=
  inferInstanceAs (Decidable (_ ∨ _))

/-! ## Values -/

inductive Value where
  | int (value : Int)
  | bool (value : Bool)
  deriving DecidableEq, Repr

namespace Value

def int? : Value → Option Int
  | int value => some value
  | bool _ => none

def bool? : Value → Option Bool
  | int _ => none
  | bool value => some value

def ints? : List Value → Option (List Int) := List.mapM int?

def bools? : List Value → Option (List Bool) := List.mapM bool?

def sameSort (values : List Value) : Bool :=
  (ints? values).isSome || (bools? values).isSome

end Value

structure Structure where
  constants : String → Int
  predicates : String → List Int → Bool
  /-- What `div` gives for each dividend when the divisor is zero. -/
  divZero : Int → Int
  /-- What `mod` gives for each dividend when the divisor is zero. -/
  modZero : Int → Int

namespace Structure

def ofNames (valuation : Valuation) (interpretation : Interpretation)
    (divZero modZero : Int → Int) : Structure where
  constants text := (Name.ofString? text).elim 0 valuation
  predicates text args :=
    (Name.ofString? text).elim false (interpretation · args)
  divZero
  modZero

variable (model : Structure)

def div (a b : Int) : Int := if b = 0 then model.divZero a else a.ediv b

def mod (a b : Int) : Int := if b = 0 then model.modZero a else a.emod b

end Structure

section Arguments

variable {α : Type}

def leftAssociated (op : α → α → α) : List α → Option α
  | first :: second :: rest => some (rest.foldl op (op first second))
  | _ => none

def rightAssociated (op : α → α → α) : List α → Option α
  | first :: second :: third :: rest =>
      (rightAssociated op (second :: third :: rest)).map (op first)
  | [first, second] => some (op first second)
  | _ => none

def chained (relation : α → α → Bool) : List α → Option Bool
  | first :: second :: third :: rest =>
      (chained relation (second :: third :: rest)).map
        (relation first second && ·)
  | [first, second] => some (relation first second)
  | _ => none

end Arguments

def Operator.apply (model : Structure) (args : List Value) :
    Operator → Option Value
  | truth value => if args.isEmpty then some (.bool value) else none
  | not =>
      match args with
      | [.bool a] => some (.bool !a)
      | _ => none
  | and => ((Value.bools? args).bind (leftAssociated (· && ·))).map .bool
  | or => ((Value.bools? args).bind (leftAssociated (· || ·))).map .bool
  | xor => ((Value.bools? args).bind (leftAssociated (· ^^ ·))).map .bool
  | implies =>
      ((Value.bools? args).bind (rightAssociated (!· || ·))).map .bool
  | equal =>
      if Value.sameSort args then (chained (· == ·) args).map .bool else none
  | distinct =>
      if Value.sameSort args && 2 ≤ args.length then
        some (.bool (decide args.Nodup))
      else none
  | ite =>
      match args with
      | [.bool condition, yes, no] =>
          if Value.sameSort [yes, no] then some (if condition then yes else no)
          else none
      | _ => none
  | plus => ((Value.ints? args).bind (leftAssociated (· + ·))).map .int
  | minus =>
      match args with
      | [.int a] => some (.int (-a))
      | _ => ((Value.ints? args).bind (leftAssociated (· - ·))).map .int
  | times => ((Value.ints? args).bind (leftAssociated (· * ·))).map .int
  | div => ((Value.ints? args).bind (leftAssociated model.div)).map .int
  | mod =>
      match args with
      | [.int a, .int b] => some (.int (model.mod a b))
      | _ => none
  | abs =>
      match args with
      | [.int a] => some (.int a.natAbs)
      | _ => none
  | less => ((Value.ints? args).bind (chained (· < ·))).map .bool
  | atMost => ((Value.ints? args).bind (chained (· ≤ ·))).map .bool
  | greater => ((Value.ints? args).bind (chained (· > ·))).map .bool
  | atLeast => ((Value.ints? args).bind (chained (· ≥ ·))).map .bool

/-! ## Terms -/

structure Signature where
  constants : List String
  predicates : List (String × Nat)

namespace Signature

variable (signature : Signature) (model : Structure)

/--
A declared symbol is told apart by the number of its arguments.  A symbol that
is declared both as a constant and as a predicate without arguments is
ambiguous.
-/
def apply (symbol : String) (args : List Value) : Option Value :=
  let isConstant := args.isEmpty && signature.constants.contains symbol
  let isPredicate := signature.predicates.contains (symbol, args.length)
  match isConstant, isPredicate with
  | true, false => some (.int (model.constants symbol))
  | false, true =>
      (Value.ints? args).map fun ints => .bool (model.predicates symbol ints)
  | _, _ => none

end Signature

namespace SExpr

variable (signature : Signature) (model : Structure)

def applied (symbol : String) (args : List Value) : Option Value :=
  match operators.lookup symbol with
  | some operator => operator.apply model args
  | none =>
      if isSymbol symbol && !reservedWords.contains symbol then
        signature.apply model symbol args
      else none

mutual

/-- The value of a term, and none of what is no well-sorted term. -/
def value : SExpr → Option Value
  | .atom text =>
      match numeral? text with
      | some number => some (.int number)
      | none => applied signature model text []
  | .list (.atom symbol :: args) =>
      if args.isEmpty then none
      else (values args).bind (applied signature model symbol)
  | .list _ => none

def values : List SExpr → Option (List Value)
  | [] => some []
  | first :: rest =>
      (value first).bind fun head =>
        (values rest).map fun tail => head :: tail

end

/-! ## Commands -/

def declareConst (name : String) : SExpr :=
  .list [.atom "declare-const", .atom name, .atom "Int"]

def declareFun (name : String) (arity : Nat) : SExpr :=
  .list [.atom "declare-fun", .atom name,
    .list (List.replicate arity (.atom "Int")), .atom "Bool"]

def assert (term : SExpr) : SExpr := .list [.atom "assert", term]

def checkSat : SExpr := .list [.atom "check-sat"]

end SExpr

end ProofOutline.SmtLib
