import WhereClause.Json.Basic
import WhereClause.Json.Reader
import WhereClause.Value

/-!
Values as JSON documents and back. Dates and moments become strings and stay strings when they are
read; an integer that needs more than 63 bits becomes a double; an object is no value.
-/
namespace WhereClause.Value

mutual

def toJson : Value → Json
  | null => .null
  | bool value => .bool value
  | int value => .int value.toInt
  | float value => .float value
  | text value => .string value
  | date value => .string value.text
  | moment value => .string value.isoText
  | list items => .array (toJsons items)

def toJsons : List Value → List Json
  | [] => []
  | item :: rest => item.toJson :: toJsons rest

end

mutual

def ofJson? : Json → Option Value
  | .null => some null
  | .bool value => some (bool value)
  | .int value =>
    if Int64.minValue.toInt ≤ value ∧ value ≤ Int64.maxValue.toInt then
      some (int (Int64.ofInt value))
    else
      some (float (Json.wordFloat value.toNat))
  | .float value => some (float value)
  | .string value => some (text value)
  | .array items => (ofJsons? items).map list
  | .object _ => none

def ofJsons? : List Json → Option (List Value)
  | [] => some []
  | item :: rest =>
    match ofJson? item, ofJsons? rest with
    | some value, some values => some (value :: values)
    | _, _ => none

end

def jsonText (value : Value) : String := value.toJson.text

def objectRefusal : String := "objects are not valid filter values"

inductive TextError where
  | malformed (error : Json.Error)
  | holdsObject
  deriving DecidableEq

def TextError.message : TextError → String
  | malformed error => error.message
  | holdsObject => objectRefusal

/-- Reads a value from JSON text. An object in the document is found before anything behind it. -/
def ofJsonText (text : String) : Except TextError Value :=
  match Json.takeValue Json.depthLimit text.toList with
  | .error fault => .error (.malformed (fault.locate text))
  | .ok taken =>
    match ofJson? taken.value, Json.requireEnd taken.rest with
    | none, _ => .error .holdsObject
    | some _, .error fault => .error (.malformed (fault.locate text))
    | some value, .ok () => .ok value

end WhereClause.Value
