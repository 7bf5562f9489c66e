import ProofOutline.Name
import ProofOutline.Text
import ProofOutline.Token

/-!
# Splitting a source into tokens

At each position the longest lexeme is taken: a run of layout characters, a
comment from `#` to the end of its line, or a token.  A word that spells a
keyword is that keyword, any other word an identifier.  The token list ends
with an end-of-input token.
-/

namespace ProofOutline

inductive Lexeme where
  | gap (text : List Char)
  | token (kind : TokenKind)
  deriving DecidableEq, Repr

namespace Lexeme

def text : Lexeme → List Char
  | gap text => text
  | token kind => kind.spelling.toList

def isLayout (c : Char) : Bool :=
  c == ' ' || c == '\t' || c == '\n' || c == '\x0c' || c == '\r'

def word (text : List Char) : TokenKind :=
  match String.ofList text with
  | "true" => .kwTrue
  | "false" => .kwFalse
  | "skip" => .kwSkip
  | other => .ident other

/-- The operator or punctuation mark at the front, preferring the longer. -/
def mark? : List Char → Option (TokenKind × List Char)
  | ':' :: '=' :: rest => some (.assign, rest)
  | '!' :: '=' :: rest => some (.ne, rest)
  | '<' :: '=' :: rest => some (.le, rest)
  | '>' :: '=' :: rest => some (.ge, rest)
  | '&' :: '&' :: rest => some (.and, rest)
  | '|' :: '|' :: rest => some (.or, rest)
  | '=' :: '>' :: rest => some (.implies, rest)
  | '\x7b' :: rest => some (.lbrace, rest)
  | '\x7d' :: rest => some (.rbrace, rest)
  | '(' :: rest => some (.lparen, rest)
  | ')' :: rest => some (.rparen, rest)
  | ',' :: rest => some (.comma, rest)
  | ';' :: rest => some (.semi, rest)
  | '=' :: rest => some (.eq, rest)
  | '<' :: rest => some (.lt, rest)
  | '>' :: rest => some (.gt, rest)
  | '!' :: rest => some (.bang, rest)
  | '+' :: rest => some (.plus, rest)
  | '-' :: rest => some (.minus, rest)
  | '*' :: rest => some (.star, rest)
  | '/' :: rest => some (.slash, rest)
  | '%' :: rest => some (.percent, rest)
  | _ => none

def scan? : List Char → Option (Lexeme × List Char)
  | [] => none
  | c :: rest =>
      if isLayout c then
        some (.gap (c :: rest.takeWhile isLayout), rest.dropWhile isLayout)
      else if c = '#' then
        some (.gap (c :: rest.takeWhile (· ≠ '\n')),
          rest.dropWhile (· ≠ '\n'))
      else if c.isDigit then
        some
          (.token (.int (String.ofList (c :: rest.takeWhile Char.isDigit))),
            rest.dropWhile Char.isDigit)
      else if isNameStart c then
        some (.token (word (c :: rest.takeWhile isNamePart)),
          rest.dropWhile isNamePart)
      else
        (mark? (c :: rest)).map fun (kind, rest) => (.token kind, rest)

private theorem length_of_mark? {input rest : List Char} {kind : TokenKind}
    (h : mark? input = some (kind, rest)) : rest.length < input.length := by
  unfold mark? at h
  split at h <;> cases h <;> simp only [List.length_cons] <;> omega

theorem length_dropWhile_le (p : Char → Bool) (text : List Char) :
    (text.dropWhile p).length ≤ text.length :=
  (List.dropWhile_sublist p).length_le

theorem length_of_scan? {input rest : List Char} {lexeme : Lexeme}
    (h : scan? input = some (lexeme, rest)) : rest.length < input.length := by
  unfold scan? at h
  split at h
  · contradiction
  · rename_i c tail
    split at h
    · cases h
      exact Nat.lt_succ_of_le (length_dropWhile_le _ tail)
    split at h
    · cases h
      exact Nat.lt_succ_of_le (length_dropWhile_le _ tail)
    split at h
    · cases h
      exact Nat.lt_succ_of_le (length_dropWhile_le _ tail)
    split at h
    · cases h
      exact Nat.lt_succ_of_le (length_dropWhile_le _ tail)
    obtain ⟨⟨kind, remaining⟩, found, eq⟩ := Option.map_eq_some_iff.mp h
    cases eq
    exact length_of_mark? found

end Lexeme

/--
A character at which no lexeme starts.  That an error is one character wide,
even in a run of such characters, is the rule of the lexer library underneath.
-/
structure LexError where
  offset : Nat
  char : Char
  deriving DecidableEq, Repr

namespace LexError

def detail (error : LexError) : String :=
  "unexpected token `" ++ error.char.toString ++ "`"

def span (error : LexError) : Span :=
  ⟨error.offset, error.offset + error.char.utf8Size⟩

def message (error : LexError) : String := "lex error: " ++ error.detail

def diagnostic (error : LexError) : Diagnostic where
  code := "imp::lex"
  message := error.message
  span := some error.span

end LexError

namespace Token

def lexFrom (offset : Nat) : List Char → Except LexError (List Token)
  | [] => .ok [⟨.eof, ⟨offset, offset⟩⟩]
  | c :: tail =>
      match h : Lexeme.scan? (c :: tail) with
      | none => .error ⟨offset, c⟩
      | some (.gap text, rest) =>
          have := Lexeme.length_of_scan? h
          lexFrom (offset + Text.byteLength text) rest
      | some (.token kind, rest) =>
          have := Lexeme.length_of_scan? h
          let next := offset + Text.byteLength kind.spelling.toList
          match lexFrom next rest with
          | .ok tokens => .ok (⟨kind, ⟨offset, next⟩⟩ :: tokens)
          | .error error => .error error
termination_by input => input.length
decreasing_by all_goals assumption

def lexChars (source : List Char) : Except LexError (List Token) :=
  lexFrom 0 source

def lex (source : String) : Except LexError (List Token) :=
  lexChars source.toList

end Token

end ProofOutline
