/-!
What can be wrong with a JSON text and where. A reader notes a fault by its cause and the number
of bytes that are left behind it; from the whole text that number gives the line and the column.
Lines count from 1 and end at line feeds, columns are bytes since the last line feed.
-/
namespace WhereClause.Json

inductive Cause where
  | endInValue
  | endInList
  | endInObject
  | endInString
  | expectedValue
  | expectedWord
  | expectedColon
  | expectedListEnd
  | expectedObjectEnd
  | keyNotString
  | trailingComma
  | trailingCharacters
  | tooDeep
  | controlCharacter
  | invalidEscape
  | loneSurrogate
  | brokenSurrogatePair
  | invalidNumber
  | numberOutOfRange
  | invalidType (found expected : String)
  | invalidValue (found expected : String)
  | unknownVariant (found first second : String)
  | duplicateField (name : String)
  deriving DecidableEq

def Cause.message : Cause → String
  | endInValue => "EOF while parsing a value"
  | endInList => "EOF while parsing a list"
  | endInObject => "EOF while parsing an object"
  | endInString => "EOF while parsing a string"
  | expectedValue => "expected value"
  | expectedWord => "expected ident"
  | expectedColon => "expected `:`"
  | expectedListEnd => "expected `,` or `]`"
  | expectedObjectEnd => "expected `,` or `\x7d`"
  | keyNotString => "key must be a string"
  | trailingComma => "trailing comma"
  | trailingCharacters => "trailing characters"
  | tooDeep => "recursion limit exceeded"
  | controlCharacter => "control character (\\u0000-\\u001F) found while parsing a string"
  | invalidEscape => "invalid escape"
  | loneSurrogate => "lone leading surrogate in hex escape"
  | brokenSurrogatePair => "unexpected end of hex escape"
  | invalidNumber => "invalid number"
  | numberOutOfRange => "number out of range"
  | invalidType found expected => "invalid type: " ++ found ++ ", expected " ++ expected
  | invalidValue found expected => "invalid value: " ++ found ++ ", expected " ++ expected
  | unknownVariant found first second =>
    "unknown variant `" ++ found ++ "`, expected `" ++ first ++ "` or `" ++ second ++ "`"
  | duplicateField name => "duplicate field `" ++ name ++ "`"

def byteCount : List Char → Nat
  | [] => 0
  | c :: rest => c.utf8Size + byteCount rest

/-- A cause and the number of bytes that are left behind the place of the fault. -/
structure Fault where
  cause : Cause
  left : Nat
  deriving DecidableEq

def Fault.here (cause : Cause) (rest : List Char) : Fault := ⟨cause, byteCount rest⟩

/-- A fault behind the first byte of the rest of the text, if it has one. -/
def Fault.ahead (cause : Cause) (rest : List Char) : Fault := ⟨cause, byteCount rest - 1⟩

structure Place where
  line : Nat
  column : Nat
  deriving DecidableEq

/-- The place that lies `offset` bytes behind `place`, through the text that follows it. -/
def Place.advance (place : Place) (offset : Nat) : List Char → Place
  | [] => place
  | c :: rest =>
    if offset = 0 then place
    else if c = '\n' then Place.advance ⟨place.line + 1, 0⟩ (offset - 1) rest
    else
      Place.advance ⟨place.line, place.column + min c.utf8Size offset⟩ (offset - c.utf8Size) rest

structure Error where
  cause : Cause
  place : Place
  deriving DecidableEq

def Fault.locate (fault : Fault) (text : String) : Error :=
  ⟨fault.cause, Place.advance ⟨1, 0⟩ (text.utf8ByteSize - fault.left) text.toList⟩

def Error.message (error : Error) : String :=
  error.cause.message ++ " at line " ++ toString error.place.line ++ " column " ++
    toString error.place.column

end WhereClause.Json
