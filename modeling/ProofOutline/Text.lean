/-!
# Texts

Positions in a source text count the bytes of its UTF-8 encoding.  A span is
given by its two ends, and `slice?` cuts a span out of a text when both ends
fall between characters.  A diagnostic says what is wrong with a text and,
where it can, under which span.
-/

namespace ProofOutline

structure Span where
  start : Nat
  stop : Nat
  deriving DecidableEq, Repr

namespace Span

def length (span : Span) : Nat := span.stop - span.start

def through (first last : Span) : Span := ⟨first.start, last.stop⟩

end Span

namespace Text

def byteLength : List Char → Nat
  | [] => 0
  | c :: rest => c.utf8Size + byteLength rest

/-- Drop exactly `count` bytes, if they end between two characters. -/
def dropBytes? : Nat → List Char → Option (List Char)
  | 0, text => some text
  | _ + 1, [] => none
  | count + 1, c :: rest =>
      if c.utf8Size ≤ count + 1 then
        dropBytes? (count + 1 - c.utf8Size) rest
      else none

def takeBytes? : Nat → List Char → Option (List Char)
  | 0, _ => some []
  | _ + 1, [] => none
  | count + 1, c :: rest =>
      if c.utf8Size ≤ count + 1 then
        (takeBytes? (count + 1 - c.utf8Size) rest).map (c :: ·)
      else none

def slice? (text : List Char) (span : Span) : Option (List Char) :=
  if span.start ≤ span.stop then
    (dropBytes? span.start text).bind (takeBytes? span.length)
  else none

/-- The text under a span; nothing when the span does not fit the text. -/
def slice (text : List Char) (span : Span) : List Char :=
  (slice? text span).getD []

/-! ### Blank characters

Blank means the Unicode property `White_Space`, which has twenty-five members.
Texts typed by a student are trimmed by it at both ends. -/

def isBlank (c : Char) : Bool :=
  let code := c.toNat
  (9 ≤ code && code ≤ 13) || code == 0x20 || code == 0x85 || code == 0xA0 ||
    code == 0x1680 || (0x2000 ≤ code && code ≤ 0x200A) || code == 0x2028 ||
    code == 0x2029 || code == 0x202F || code == 0x205F || code == 0x3000

def trimLeft (text : List Char) : List Char :=
  text.dropWhile isBlank

def trimRight (text : List Char) : List Char :=
  (text.reverse.dropWhile isBlank).reverse

def trimChars (text : List Char) : List Char :=
  trimRight (trimLeft text)

def trim (text : String) : String :=
  String.ofList (trimChars text.toList)

/-! ### Decimal numerals

Leading zeros are allowed, a sign may stand in front, and at least one digit
is needed. -/

def digitValue (digit : Char) : Nat := digit.toNat - '0'.toNat

def digitsValue (digits : List Char) : Nat :=
  digits.foldl (fun total digit => 10 * total + digitValue digit) 0

def readDigits? (text : List Char) : Option Nat :=
  if !text.isEmpty && text.all Char.isDigit then some (digitsValue text)
  else none

def readNatural? : List Char → Option Nat
  | '+' :: digits => readDigits? digits
  | digits => readDigits? digits

def readInteger? : List Char → Option Int
  | '-' :: digits => (readDigits? digits).map fun value => -(value : Int)
  | text => (readNatural? text).map Int.ofNat

/-! ### Lines

A line ends at a line feed, with or without a carriage return before it.  A
text that ends in a line feed has no further, empty line after it. -/

def linesOfChars : List Char → List (List Char)
  | [] => []
  | '\n' :: rest => [] :: linesOfChars rest
  | '\r' :: '\n' :: rest => [] :: linesOfChars rest
  | c :: rest =>
      match linesOfChars rest with
      | [] => [[c]]
      | line :: more => (c :: line) :: more

def lines (text : String) : List String :=
  (linesOfChars text.toList).map String.ofList

def unlines (lines : List String) : String :=
  String.join (lines.map (· ++ "\n"))

def padLeft (width : Nat) (text : String) : String :=
  String.ofList (List.replicate (width - text.length) ' ') ++ text

def padRight (width : Nat) (text : String) : String :=
  text ++ String.ofList (List.replicate (width - text.length) ' ')

end Text

/-- What the program says about a rejected input; the code is stable for each
kind of problem. -/
structure Diagnostic where
  code : String
  message : String
  help : Option String := none
  span : Option Span := none
  deriving DecidableEq, Repr

end ProofOutline
