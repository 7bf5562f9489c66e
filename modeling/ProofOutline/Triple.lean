import ProofOutline.Command
import ProofOutline.Formula

/-!
# Assertions, programs and triples

What one source text denotes, kept together with that text: an assertion or a
program.  A Hoare triple puts a program between two assertions, and it holds
when its precondition implies the weakest one.  The weakest precondition of an
assignment is the postcondition with the assigned expression in place of the
variable; a sequence is taken from its end.
-/

namespace ProofOutline

structure Assertion where
  source : String
  formula : Formula
  deriving DecidableEq

structure Program where
  source : String
  command : Command
  deriving DecidableEq

def Assertion.render (assertion : Assertion) : String :=
  "\x7b " ++ assertion.formula.render ++ " \x7d"

def Program.render (program : Program) : String := program.command.render

inductive Decl where
  | assertion (assertion : Assertion)
  | program (program : Program)
  deriving DecidableEq

namespace Decl

def source : Decl → String
  | assertion a => a.source
  | program p => p.source

def render : Decl → String
  | assertion a => a.render
  | program p => p.render

/-- Same kind and same syntax, whatever the source texts. -/
def sameSyntax : Decl → Decl → Bool
  | assertion a, assertion b => a.formula == b.formula
  | program p, program q => p.command == q.command
  | _, _ => false

end Decl

structure Triple where
  pre : Assertion
  program : Program
  post : Assertion
  deriving DecidableEq

def Triple.render (triple : Triple) : String :=
  triple.pre.render ++ " " ++ triple.program.render ++ " " ++
    triple.post.render

def Primitive.precondition : Primitive → Formula → Formula
  | assign target value, post => post.subst target value
  | skip, post => post

def Command.precondition (command : Command) (post : Formula) : Formula :=
  command.primitives.foldr Primitive.precondition post

/-- The formula whose validity makes the triple valid. -/
def Triple.query (triple : Triple) : Formula :=
  .implies triple.pre.formula
    (triple.program.command.precondition triple.post.formula)

end ProofOutline
