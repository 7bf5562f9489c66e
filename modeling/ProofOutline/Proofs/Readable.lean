import ProofOutline.SmtLib.Language

/-!
# Symbolic expressions are read back

A word ends where a blank or a parenthesis stands.  A symbolic expression with
single blanks between its items is therefore read as itself, and lines of them
are read as a sequence.
-/

namespace ProofOutline.SmtLib

/-! ## Words -/

def isWordChar (c : Char) : Bool :=
  c != '(' && c != ')' && !Lexeme.isBlank c

def IsWord (text : String) : Prop :=
  text.toList ≠ [] ∧ text.toList.all isWordChar = true

instance (text : String) : Decidable (IsWord text) :=
  inferInstanceAs (Decidable (_ ∧ _))

/-- What stands behind a word, so that it ends there. -/
def Ends (rest : List Char) : Prop :=
  ∀ c ∈ rest.head?, isWordChar c = false

@[simp] theorem ends_nil : Ends [] := by
  intro c first
  cases first

@[simp] theorem ends_cons (c : Char) (rest : List Char) :
    Ends (c :: rest) ↔ isWordChar c = false := by
  simp [Ends]

namespace Lexeme

@[simp] theorem ofWord_nil : ofWord [] = [] := rfl

@[simp] theorem split_opening (word rest : List Char) :
    split word ('(' :: rest) = ofWord word ++ .opening :: split [] rest := rfl

@[simp] theorem split_closing (word rest : List Char) :
    split word (')' :: rest) = ofWord word ++ .closing :: split [] rest := rfl

theorem split_blank {c : Char} (blank : isBlank c = true)
    (word rest : List Char) :
    split word (c :: rest) = ofWord word ++ split [] rest := by
  have notOpening : (c == '(') = false := by
    rw [beq_eq_false_iff_ne]
    rintro rfl
    cases blank
  have notClosing : (c == ')') = false := by
    rw [beq_eq_false_iff_ne]
    rintro rfl
    cases blank
  simp [split, notOpening, notClosing, blank]

private theorem split_wordChar {c : Char} (isChar : isWordChar c = true)
    (word rest : List Char) :
    split word (c :: rest) = split (word ++ [c]) rest := by
  simp only [isWordChar, Bool.and_eq_true, bne_iff_ne, ne_eq,
    Bool.not_eq_true'] at isChar
  simp [split, isChar]

private theorem split_ends {rest : List Char} (ends : Ends rest)
    (word : List Char) :
    split word rest = ofWord word ++ split [] rest := by
  cases rest with
  | nil => simp [split]
  | cons c rest =>
      rw [ends_cons] at ends
      simp only [isWordChar, Bool.and_eq_false_iff, bne_eq_false_iff_eq,
        Bool.not_eq_false'] at ends
      rcases ends with (rfl | rfl) | blank
      · simp
      · simp
      · simp [split_blank blank]

private theorem split_word {text rest : List Char}
    (all : text.all isWordChar = true) (ends : Ends rest) (word : List Char) :
    split word (text ++ rest) = ofWord (word ++ text) ++ split [] rest := by
  induction text generalizing word with
  | nil => simpa using split_ends ends word
  | cons c text ih =>
      rw [List.all_cons, Bool.and_eq_true] at all
      rw [List.cons_append, split_wordChar all.1, ih all.2]
      simp

private theorem ofWord_toList {text : String} (isWord : IsWord text) :
    ofWord text.toList = [.word text] := by
  simp [ofWord, isWord.1]

end Lexeme

/-! ## Symbolic expressions as texts -/

namespace SExpr

mutual

def chars : SExpr → List Char
  | .atom text => text.toList
  | .list [] => ['(', ')']
  | .list (first :: rest) => '(' :: (first.chars ++ (charsAfter rest ++ [')']))

def charsAfter : List SExpr → List Char
  | [] => []
  | item :: rest => ' ' :: (item.chars ++ charsAfter rest)

def lexemes : SExpr → List Lexeme
  | .atom text => [.word text]
  | .list items => .opening :: (lexemesAll items ++ [.closing])

def lexemesAll : List SExpr → List Lexeme
  | [] => []
  | item :: rest => item.lexemes ++ lexemesAll rest

def Worded : SExpr → Prop
  | .atom text => IsWord text
  | .list items => AllWorded items

def AllWorded : List SExpr → Prop
  | [] => True
  | item :: rest => item.Worded ∧ AllWorded rest

end

private theorem ends_charsAfter {rest : List Char} (ends : Ends rest)
    (items : List SExpr) : Ends (charsAfter items ++ rest) := by
  cases items with
  | nil => exact ends
  | cons item items => simp [charsAfter, isWordChar, Lexeme.isBlank]

mutual

theorem split_chars : ∀ (expr : SExpr) {rest : List Char}, expr.Worded →
    Ends rest → Lexeme.split [] (expr.chars ++ rest) =
      expr.lexemes ++ Lexeme.split [] rest
  | .atom text, rest, isWord, ends => by
      rw [chars, Lexeme.split_word isWord.2 ends, List.nil_append,
        Lexeme.ofWord_toList isWord, lexemes]
  | .list [], rest, _, _ => by simp [chars, lexemes, lexemesAll]
  | .list (first :: items), rest, worded, _ => by
      have closing : Ends (')' :: rest) := by simp [isWordChar]
      have head := split_chars first worded.1 (ends_charsAfter closing items)
      have tail := split_charsAfter items worded.2 closing
      simp [chars, lexemes, lexemesAll, head, tail]

private theorem split_charsAfter : ∀ (items : List SExpr) {rest : List Char},
    AllWorded items → Ends rest →
      Lexeme.split [] (charsAfter items ++ rest) =
        lexemesAll items ++ Lexeme.split [] rest
  | [], rest, _, _ => rfl
  | item :: items, rest, worded, ends => by
      have head := split_chars item worded.1 (ends_charsAfter ends items)
      have tail := split_charsAfter items worded.2 ends
      rw [charsAfter, List.cons_append, Lexeme.split_blank rfl,
        List.append_assoc, head, tail]
      simp [lexemesAll]

end

mutual

private theorem parse_lexemes : ∀ (expr : SExpr) (items : List SExpr)
    (enclosing : List (List SExpr)) (rest : List Lexeme),
    parse items enclosing (expr.lexemes ++ rest) =
      parse (items ++ [expr]) enclosing rest
  | .atom text, items, enclosing, rest => rfl
  | .list inner, items, enclosing, rest => by
      have content := parse_lexemesAll inner [] (items :: enclosing)
        (.closing :: rest)
      simp [lexemes, parse, content]

theorem parse_lexemesAll : ∀ (exprs items : List SExpr)
    (enclosing : List (List SExpr)) (rest : List Lexeme),
    parse items enclosing (lexemesAll exprs ++ rest) =
      parse (items ++ exprs) enclosing rest
  | [], items, enclosing, rest => by simp [lexemesAll]
  | expr :: exprs, items, enclosing, rest => by
      rw [lexemesAll, List.append_assoc, parse_lexemes, parse_lexemesAll]
      simp

end

/-- The text is that of the expression, with single blanks in it. -/
structure Spells (text : String) (expr : SExpr) : Prop where
  chars : text.toList = expr.chars
  worded : expr.Worded

theorem read_of_spells {text : String} {expr : SExpr}
    (spells : Spells text expr) : read text = some [expr] := by
  have split : Lexeme.split [] expr.chars = expr.lexemes := by
    simpa [Lexeme.split] using split_chars expr spells.worded ends_nil
  have parsed : parse [] [] expr.lexemes = some [expr] := by
    simpa [parse] using parse_lexemes expr [] [] []
  rw [read, spells.chars, split, parsed]

def lines (exprs : List SExpr) : List Char :=
  exprs.flatMap fun expr => expr.chars ++ ['\n']

private theorem split_lines {exprs : List SExpr} (worded : AllWorded exprs) :
    Lexeme.split [] (lines exprs) = lexemesAll exprs := by
  induction exprs with
  | nil => rfl
  | cons expr exprs ih =>
      have ends : Ends ('\n' :: lines exprs) := by
        simp [isWordChar, Lexeme.isBlank]
      have head := split_chars expr worded.1 ends
      rw [Lexeme.split_blank rfl, ih worded.2] at head
      simpa [lines, lexemesAll] using head

theorem read_of_lines {text : String} {exprs : List SExpr}
    (worded : AllWorded exprs) (same : text.toList = lines exprs) :
    read text = some exprs := by
  have parsed : parse [] [] (lexemesAll exprs) = some exprs := by
    simpa [parse] using parse_lexemesAll exprs [] [] []
  rw [read, same, split_lines worded, parsed]

end SExpr

end ProofOutline.SmtLib
