import ProofOutline.Text

/-!
# Tokens

The words of the assertion and command language.  `spelling` is the source
text of a token; `describe` is how a token is named in messages.
-/

namespace ProofOutline

inductive TokenKind where
  | kwTrue
  | kwFalse
  | kwSkip
  | lbrace
  | rbrace
  | lparen
  | rparen
  | comma
  | semi
  | assign
  | eq
  | ne
  | lt
  | le
  | gt
  | ge
  | and
  | or
  | implies
  | bang
  | plus
  | minus
  | star
  | slash
  | percent
  | int (digits : String)
  | ident (text : String)
  | eof
  deriving DecidableEq, Repr

namespace TokenKind

def spelling : TokenKind → String
  | kwTrue => "true"
  | kwFalse => "false"
  | kwSkip => "skip"
  | lbrace => "\x7b"
  | rbrace => "\x7d"
  | lparen => "("
  | rparen => ")"
  | comma => ","
  | semi => ";"
  | assign => ":="
  | eq => "="
  | ne => "!="
  | lt => "<"
  | le => "<="
  | gt => ">"
  | ge => ">="
  | and => "&&"
  | or => "||"
  | implies => "=>"
  | bang => "!"
  | plus => "+"
  | minus => "-"
  | star => "*"
  | slash => "/"
  | percent => "%"
  | int digits => digits
  | ident text => text
  | eof => ""

def describe : TokenKind → String
  | eof => "end of input"
  | kind => "`" ++ kind.spelling ++ "`"

def isComparison : TokenKind → Bool
  | eq | ne | lt | le | gt | ge => true
  | _ => false

def isSum : TokenKind → Bool
  | plus | minus => true
  | _ => false

def isProduct : TokenKind → Bool
  | star | slash | percent => true
  | _ => false

end TokenKind

structure Token where
  kind : TokenKind
  span : Span
  deriving DecidableEq, Repr

end ProofOutline
