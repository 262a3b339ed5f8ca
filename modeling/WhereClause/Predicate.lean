import WhereClause.Connective
import WhereClause.Value

/-!
Conditions as trees and their text. A part of a group is put in parentheses when it is itself a
group of several parts, and also when its own text mentions a connective between blanks, be it
inside a quoted text; a group of one part is written as the part alone.
-/
namespace WhereClause

/-- A condition. The texts of columns, symbols and bounds stand as they will be written. -/
inductive Predicate where
  | comparison (left symbol right : String)
  | isIn (column : String) (values : List Value)
  | between (column low high : String)
  | isNull (column : String)
  | isNotNull (column : String)
  | group (connective : Connective) (parts : List Predicate)
  deriving Inhabited

namespace Predicate

def count : Predicate → Nat
  | group _ parts => parts.length
  | _ => 1

def isEmpty (predicate : Predicate) : Bool := predicate.count = 0

/-- Adds a part at the end of a group. A part that is empty is left out, and a condition that is no
group stays as it is. -/
def add (predicate part : Predicate) : Predicate :=
  match predicate with
  | group connective parts =>
    if part.isEmpty then predicate else group connective (parts ++ [part])
  | _ => predicate

def ofParts (connective : Connective) (parts : List Predicate) : Predicate :=
  group connective (parts.filter fun part => !part.isEmpty)

def andBetweenBlanks : Text.Needle := ⟨[' ', 'A', 'N', 'D', ' '], by decide⟩

def orBetweenBlanks : Text.Needle := ⟨[' ', 'O', 'R', ' '], by decide⟩

/-- Whether a text has a connective between blanks, in capitals or not. -/
def mentionsConnective (text : String) : Bool :=
  let raised := (Text.raised text).toList
  Text.occurs orBetweenBlanks raised || Text.occurs andBetweenBlanks raised

def isCompound : Predicate → Bool
  | group _ parts => 1 < parts.length
  | _ => false

def enclose (part : Predicate) (text : String) : String :=
  if part.isCompound || mentionsConnective text then "(" ++ text ++ ")" else text

def joinTexts (connective : Connective) (parts : List Predicate) : List String → String
  | [text] => text
  | texts => connective.separator.intercalate (parts.zipWith enclose texts)

mutual

def text : Predicate → String
  | comparison left symbol right => left ++ " " ++ symbol ++ " " ++ right
  | isIn column values => column ++ " IN (" ++ ", ".intercalate (values.map Value.literal) ++ ")"
  | between column low high => column ++ " BETWEEN " ++ low ++ " AND " ++ high
  | isNull column => column ++ " IS NULL"
  | isNotNull column => column ++ " IS NOT NULL"
  | group connective parts => joinTexts connective parts (texts parts)

def texts : List Predicate → List String
  | [] => []
  | part :: rest => part.text :: texts rest

end

end Predicate

end WhereClause
