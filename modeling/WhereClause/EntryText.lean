import WhereClause.Filter

/-!
Entries from JSON text: an object of keys and values, or of paths and directions. The size of the
text is checked before it is read, the number of its distinct keys after, and its items last.
-/
namespace WhereClause.EntryText

def readObject (settings : Settings) (text : String) : Except FilterError (List (String × Json)) :=
  if settings.maxBytes < text.utf8ByteSize then .error (.tooManyBytes settings.maxBytes)
  else
    let member := Json.plainMember (Json.takeValue (Json.depthLimit - 1))
    match Json.readAll (Json.takeRecord "a map" member []) text with
    | .error error => .error (.invalidEntries (.malformed error))
    | .ok members =>
      if settings.maxFilters < members.length then .error (.tooManyFilters settings.maxFilters)
      else .ok members

def valueOf (key : String) (item : Json) : Except FilterError Value :=
  match Value.ofJson? item with
  | some value => .ok value
  | none => .error (.invalidEntries (.holdsObject key))

def directionOf (key : String) : Json → Except FilterError String
  | .string direction => .ok direction
  | found => .error (.invalidEntries (.notDirection key found))

def convert {α : Type} (item : String → Json → Except FilterError α) :
    List (String × Json) → Except FilterError (List (String × α))
  | [] => .ok []
  | (key, found) :: rest => do
    let first ← item key found
    let more ← convert item rest
    return (key, first) :: more

def readFilters (settings : Settings) (text : String) : Except FilterError Filters := do
  let members ← readObject settings text
  return Table.ofList (← convert valueOf members)

def readSorting (settings : Settings) (text : String) : Except FilterError Sorting := do
  let members ← readObject settings text
  return Table.ofList (← convert directionOf members)

end WhereClause.EntryText
