import ProofOutline.Text

/-!
# Names

Variables and predicates are named by ASCII letters, digits and underscores,
not starting with a digit.  Names are ordered as texts.
-/

namespace ProofOutline

def isNameStart (c : Char) : Bool := c.isAlpha || c == '_'

def isNamePart (c : Char) : Bool := c.isAlphanum || c == '_'

def isNameText : List Char → Bool
  | [] => false
  | c :: rest => isNameStart c && rest.all isNamePart

structure Name where
  text : String
  valid : isNameText text.toList = true
  deriving DecidableEq

namespace Name

instance : LT Name := ⟨fun a b => a.text < b.text⟩

instance : DecidableLT Name :=
  fun a b => inferInstanceAs (Decidable (a.text < b.text))

instance : ToString Name := ⟨Name.text⟩

def ofString? (raw : String) : Option Name :=
  if valid : isNameText raw.toList = true then some ⟨raw, valid⟩ else none

theorem lt_irrefl (a : Name) : ¬ a < a := String.lt_irrefl a.text

theorem lt_trans {a b c : Name} (hab : a < b) (hbc : b < c) : a < c :=
  String.lt_trans hab hbc

theorem lt_of_not_lt_of_ne {a b : Name} (hab : ¬ a < b) (hne : a ≠ b) :
    b < a := by
  have text_ne : b.text ≠ a.text :=
    fun h => hne (by cases a; cases b; cases h; rfl)
  exact show b.text < a.text from
    Std.lt_of_le_of_ne (String.not_lt.mp hab) text_ne

theorem eq_of_not_lt {a b : Name} (hab : ¬ a < b) (hba : ¬ b < a) : a = b :=
  Decidable.byContradiction fun hne => hba (lt_of_not_lt_of_ne hab hne)

def sort (names : List Name) : List Name :=
  names.mergeSort fun a b => !decide (b < a)

end Name

structure NameError where
  raw : String
  deriving DecidableEq, Repr

namespace NameError

def message (error : NameError) : String :=
  "invalid name `" ++ error.raw ++ "`"

def diagnostic (error : NameError) : Diagnostic where
  code := "imp::name"
  message := error.message
  help := some
    "names are ASCII letters, digits and `_`, not starting with a digit"

end NameError

def Name.read (raw : String) : Except NameError Name :=
  match Name.ofString? raw with
  | some name => .ok name
  | none => .error ⟨raw⟩

end ProofOutline
