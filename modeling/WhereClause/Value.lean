import WhereClause.Calendar
import WhereClause.Decimal.Notation
import WhereClause.Text.Basic

/-!
The values that filters compare with, their plain text, and their text as a literal inside a
condition. Integers have 64 bits. The plain text of a value does not tell its kind: the number 1
and the text `1` have the same one. A text reads as a number if, with blanks around it or without,
it is an optional sign, digits with an optional point before, between or behind them, and an
optional exponent. Digits are the ASCII digits, and the words for infinity and for no number are not
numerals.
-/
namespace WhereClause

namespace Numeral

def isPadding (c : Char) : Bool :=
  c = ' ' || c = '\t' || c = '\n' || c = '\r' || c = '\x0b' || c = '\x0c'

def dropSign : List Char → List Char
  | [] => []
  | c :: rest => if c = '+' ∨ c = '-' then rest else c :: rest

def isExponent : List Char → Bool
  | [] => true
  | c :: rest =>
    (c = 'e' || c = 'E') && !(dropSign rest).isEmpty && (dropSign rest).all Char.isDigit

def fraction : List Char → List Char × List Char
  | [] => ([], [])
  | c :: rest =>
    if c = '.' then (rest.takeWhile Char.isDigit, rest.dropWhile Char.isDigit) else ([], c :: rest)

def isUnsigned (s : List Char) : Bool :=
  let (places, rest) := fraction (s.dropWhile Char.isDigit)
  !(s.takeWhile Char.isDigit ++ places).isEmpty && isExponent rest

def isNumeral (s : List Char) : Bool :=
  isUnsigned (dropSign (Text.trimEnds isPadding s))

end Numeral

inductive Value where
  | null
  | bool (value : Bool)
  | int (value : Int64)
  | float (value : Float)
  | text (value : String)
  | date (value : Date)
  | moment (value : Moment)
  | list (items : List Value)
  deriving Inhabited

namespace Value

mutual

def display : Value → String
  | null => ""
  | bool value => toString value
  | int value => toString value.toInt
  | float value => Decimal.render .text value
  | text value => value
  | date value => value.text
  | moment value => value.text
  | list items => ", ".intercalate (displays items)

def displays : List Value → List String
  | [] => []
  | item :: rest => item.display :: displays rest

end

def isNull : Value → Bool
  | null => true
  | _ => false

def isList : Value → Bool
  | list _ => true
  | _ => false

/-- Null, false, the zeros, the texts without characters or with a single `0`, and the list without
items do not hold; all else does. -/
def holds : Value → Bool
  | null => false
  | bool value => value
  | int value => value ≠ 0
  | float value => value != 0
  | text value => value ≠ "" && value ≠ "0"
  | date _ => true
  | moment _ => true
  | list items => !items.isEmpty

def dateText? : Value → Option String
  | date value => some value.text
  | moment value => some value.date.text
  | _ => none

def isNumeric : Value → Bool
  | int _ => true
  | float value => value.isFinite
  | text value => Numeral.isNumeral value.toList
  | _ => false

def quote : Text.Needle := ⟨['\''], by decide⟩

def quotedLiteral (s : String) : String :=
  String.ofList ('\'' :: Text.replaceAll quote ['\'', '\''] s.toList ++ ['\''])

def literal (value : Value) : String :=
  match value with
  | bool _ | int _ | float _ => value.display
  | _ => quotedLiteral value.display

end Value

end WhereClause
