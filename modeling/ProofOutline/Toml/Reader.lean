import ProofOutline.Toml.Value
import ProofOutline.Word

/-!
# Reading TOML

The lexical part of TOML: keys, strings in their four forms, integers in four
bases, booleans, arrays and inline tables.  Dates and fractional numbers have
no place in an exercise and are refused.  Loops carry a bound that the length
of the text never reaches.
-/

namespace ProofOutline.Toml

abbrev Reader := StateT (List Char) Option

namespace Reader

def peek : Reader (Option Char) := do
  return (← get).head?

def next : Reader Char := do
  match ← get with
  | c :: rest =>
      set rest
      return c
  | [] => failure

def expect (c : Char) : Reader Unit := do
  if (← next) = c then return () else failure

def accept (text : List Char) : Reader Bool := do
  let input ← get
  if text.isPrefixOf input then
    set (input.drop text.length)
    return true
  else return false

def takeWhile (isWanted : Char → Bool) : Reader (List Char) := do
  let input ← get
  set (input.dropWhile isWanted)
  return input.takeWhile isWanted

/-- A bound for loops that take a character in each round. -/
def bound : Reader Nat := do
  return (← get).length + 1

/-! ## Layout -/

def isSpace (c : Char) : Bool := c == ' ' || c == '\t'

/-- Characters of comments and quoted texts: no controls but the tab. -/
def isPlain (c : Char) : Bool :=
  c == '\t' || (0x20 ≤ c.toNat && c.toNat != 0x7f)

def spaces : Reader Unit := do
  let _ ← takeWhile isSpace

def newline : Reader Bool := do
  if ← accept ['\n'] then return true
  accept ['\r', '\n']

def comment : Reader Unit := do
  if (← peek) = some '#' then
    let _ ← takeWhile isPlain

def lineEnd : Reader Unit := do
  spaces
  comment
  if (← get).isEmpty then return ()
  if ← newline then return () else failure

def layoutRounds : Nat → Reader Unit
  | 0 => return ()
  | rounds + 1 => do
      spaces
      comment
      if ← newline then layoutRounds rounds

def layout : Reader Unit := do
  layoutRounds (← bound)

/-! ## Strings -/

def hexValue? (c : Char) : Option Nat :=
  if c.isDigit then some (c.toNat - '0'.toNat)
  else if 'a' ≤ c ∧ c ≤ 'f' then some (c.toNat - 'a'.toNat + 10)
  else if 'A' ≤ c ∧ c ≤ 'F' then some (c.toNat - 'A'.toNat + 10)
  else none

def hexDigits : Nat → Nat → Reader Nat
  | 0, value => return value
  | more + 1, value => do
      match hexValue? (← next) with
      | some digit => hexDigits more (16 * value + digit)
      | none => failure

def codePoint (digits : Nat) : Reader Char := do
  let code ← hexDigits digits 0
  if code.isValidChar then return Char.ofNat code else failure

def escape : Reader Char := do
  match ← next with
  | 'b' => return '\x08'
  | 't' => return '\t'
  | 'n' => return '\n'
  | 'f' => return '\x0c'
  | 'r' => return '\r'
  | '"' => return '"'
  | '\\' => return '\\'
  | 'u' => codePoint 4
  | 'U' => codePoint 8
  | _ => failure

def basicRounds : Nat → Reader (List Char)
  | 0 => failure
  | rounds + 1 => do
      match ← next with
      | '"' => return []
      | '\\' =>
          let c ← escape
          return c :: (← basicRounds rounds)
      | c =>
          if isPlain c then return c :: (← basicRounds rounds) else failure

def literalRounds : Nat → Reader (List Char)
  | 0 => failure
  | rounds + 1 => do
      let c ← next
      if c = '\'' then return []
      else if isPlain c then return c :: (← literalRounds rounds)
      else failure

def endsLine (afterBackslash : List Char) : Bool :=
  let rest := afterBackslash.dropWhile isSpace
  ['\n'].isPrefixOf rest || ['\r', '\n'].isPrefixOf rest

def skipBlankLines : Nat → Reader Unit
  | 0 => return ()
  | rounds + 1 => do
      spaces
      if ← newline then skipBlankLines rounds

/--
The rest of a text in triple quotes.  Fewer than three quotes in a row belong
to the text, and up to two may stand right before the closing three.
-/
def multilineRounds (delimiter : Char) (escapes : Bool) :
    Nat → Reader (List Char)
  | 0 => failure
  | rounds + 1 => do
      let run := ((← get).takeWhile (· = delimiter)).length
      if 5 < run then failure
      else if 3 ≤ run then
        set ((← get).drop run)
        return List.replicate (run - 3) delimiter
      else if ← newline then
        return '\n' :: (← multilineRounds delimiter escapes rounds)
      else
        let c ← next
        if escapes ∧ c = '\\' then
          if endsLine (← get) then
            skipBlankLines (← bound)
            multilineRounds delimiter escapes rounds
          else
            let c ← escape
            return c :: (← multilineRounds delimiter escapes rounds)
        else if isPlain c then
          return c :: (← multilineRounds delimiter escapes rounds)
        else failure

/-- A line end right after the opening quotes is not part of the text. -/
def multiline (delimiter : Char) (escapes : Bool) : Reader String := do
  let _ ← newline
  return String.ofList
    (← multilineRounds delimiter escapes (← bound))

def quoted : Reader String := do
  if ← accept ['"', '"', '"'] then multiline '"' true
  else if ← accept ['\'', '\'', '\''] then multiline '\'' false
  else if ← accept ['"'] then
    return String.ofList (← basicRounds (← bound))
  else if ← accept ['\''] then
    return String.ofList (← literalRounds (← bound))
  else failure

/-! ## Keys -/

def isBareKeyChar (c : Char) : Bool :=
  c.isAlphanum || c == '_' || c == '-'

def simpleKey : Reader String := do
  if ← accept ['"'] then return String.ofList (← basicRounds (← bound))
  else if ← accept ['\''] then
    return String.ofList (← literalRounds (← bound))
  else
    let bare ← takeWhile isBareKeyChar
    if bare.isEmpty then failure else return String.ofList bare

def keyRounds : Nat → Reader (List String × String)
  | 0 => failure
  | rounds + 1 => do
      spaces
      let key ← simpleKey
      spaces
      if ← accept ['.'] then
        let (path, last) ← keyRounds rounds
        return (key :: path, last)
      else return ([], key)

def key : Reader (List String × String) := do
  keyRounds (← bound)

/-! ## Integers and booleans -/

def ungroup? (isDigit : Char → Bool) : List Char → Option (List Char)
  | [] => none
  | [c] => if isDigit c then some [c] else none
  | c :: '_' :: rest =>
      if isDigit c then (ungroup? isDigit rest).map (c :: ·) else none
  | c :: rest =>
      if isDigit c then (ungroup? isDigit rest).map (c :: ·) else none

def digitsIn? (base : Nat) (text : List Char) : Option Nat := do
  let isDigit := fun c => ((hexValue? c).map (decide <| · < base)).getD false
  let digits ← ungroup? isDigit text
  return digits.foldl
    (fun total c => base * total + (hexValue? c).getD 0) 0

/-- Only zero itself may start with a zero. -/
def decimal? (text : List Char) : Option Nat :=
  match text with
  | '0' :: _ :: _ => none
  | _ => digitsIn? 10 text

def integer? : List Char → Option Int
  | '0' :: 'x' :: digits => (digitsIn? 16 digits).map Int.ofNat
  | '0' :: 'o' :: digits => (digitsIn? 8 digits).map Int.ofNat
  | '0' :: 'b' :: digits => (digitsIn? 2 digits).map Int.ofNat
  | '+' :: digits => (decimal? digits).map Int.ofNat
  | '-' :: digits => (decimal? digits).map fun value => -(value : Int)
  | digits => (decimal? digits).map Int.ofNat

def isWordChar (c : Char) : Bool :=
  isBareKeyChar c || c == '+' || c == '.' || c == ':'

/-- Integers are those of 64 bits. -/
def scalar : Reader Value := do
  let word ← takeWhile isWordChar
  if word = ['t', 'r', 'u', 'e'] then return .boolean true
  else if word = ['f', 'a', 'l', 's', 'e'] then return .boolean false
  else
    match integer? word with
    | some value =>
        if Word.InRange value then return .integer value else failure
    | none => failure

/-! ## Values -/

mutual

def valueWithin : Nat → Reader Value
  | 0 => failure
  | depth + 1 => do
      match ← peek with
      | some '"' | some '\'' => return .string (← quoted)
      | some '[' =>
          let _ ← next
          return .array (← itemsWithin depth)
      | some '\x7b' =>
          let _ ← next
          spaces
          if ← accept ['\x7d'] then return .table .inline []
          return .table .inline (← membersWithin depth [])
      | _ => scalar

def itemsWithin : Nat → Reader (List Value)
  | 0 => failure
  | rounds + 1 => do
      layout
      if ← accept [']'] then return []
      let item ← valueWithin rounds
      layout
      if ← accept [','] then return item :: (← itemsWithin rounds)
      expect ']'
      return [item]

def membersWithin : Nat → Entries → Reader Entries
  | 0, _ => failure
  | rounds + 1, entries => do
      let (path, last) ← key
      expect '='
      spaces
      let value ← valueWithin rounds
      spaces
      match entries.assign? path last value with
      | none => failure
      | some entries =>
          if ← accept [','] then membersWithin rounds entries
          else
            expect '\x7d'
            return entries

end

def value : Reader Value := do
  valueWithin (← bound)

end Reader

end ProofOutline.Toml
