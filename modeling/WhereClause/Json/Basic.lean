import WhereClause.Decimal.Notation
import WhereClause.Text.Printable

/-!
JSON documents. An integer is one that a 64-bit word can hold, with or without a sign; every other
number is a double. The members of an object stand in the order of their first mention. The text of
a document is compact: no blanks, and in strings an escape only for the quote, the backslash and the
control characters. Numbers that are not finite become `null`.
-/
namespace WhereClause

inductive Json where
  | null
  | bool (value : Bool)
  | int (value : Int)
  | float (value : Float)
  | string (value : String)
  | array (items : List Json)
  | object (members : List (String × Json))
  deriving Inhabited

namespace Json

def describe : Json → String
  | null => "null"
  | bool value => "boolean `" ++ toString value ++ "`"
  | int value => "integer `" ++ toString value ++ "`"
  | float value => "floating point `" ++ Decimal.render .json value ++ "`"
  | string value => "string " ++ Text.quoted value
  | array _ => "sequence"
  | object _ => "map"

def codeEscape (c : Char) : List Char :=
  ['\\', 'u', '0', '0', Nat.digitChar (c.toNat / 16), Nat.digitChar (c.toNat % 16)]

def writtenChar (c : Char) : List Char :=
  if c = '"' ∨ c = '\\' then ['\\', c]
  else if c = '\x08' then ['\\', 'b']
  else if c = '\t' then ['\\', 't']
  else if c = '\n' then ['\\', 'n']
  else if c = '\x0c' then ['\\', 'f']
  else if c = '\r' then ['\\', 'r']
  else if c.toNat < 0x20 then codeEscape c
  else [c]

def writtenString (s : String) : List Char :=
  '"' :: s.toList.flatMap writtenChar ++ ['"']

def separated (items : List (List Char)) : List Char :=
  [','].intercalate items

mutual

def written : Json → List Char
  | .null => "null".toList
  | .bool value => (toString value).toList
  | .int value => (toString value).toList
  | .float value => if value.isFinite then (Decimal.render .json value).toList else "null".toList
  | .string value => writtenString value
  | .array items => '[' :: separated (writtenItems items) ++ [']']
  | .object members => '\x7b' :: separated (writtenMembers members) ++ ['\x7d']

def writtenItems : List Json → List (List Char)
  | [] => []
  | item :: rest => written item :: writtenItems rest

def writtenMembers : List (String × Json) → List (List Char)
  | [] => []
  | (name, item) :: rest => (writtenString name ++ ':' :: written item) :: writtenMembers rest

end

def text (document : Json) : String := String.ofList (written document)

end Json

end WhereClause
