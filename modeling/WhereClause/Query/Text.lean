import WhereClause.Query

/-!
The text of a query. Each join stands behind a root: the one that the chain of its sources leads
to, or the first root where the chain leads to none. The chain is followed for at most as many
steps as there are joins, so a cycle of sources ends too. Parameters stand as `:name`, or with
their values put in between double quotes, longer names first.
-/
namespace WhereClause

def JoinKind.words : JoinKind → String
  | inner => "INNER JOIN"
  | left => "LEFT JOIN"

def Root.text (root : Root) : String := root.entity ++ " " ++ root.aliasName

namespace Join

def text (join : Join) : String := join.kind.words ++ " " ++ join.source ++ " " ++ join.aliasName

def base (join : Join) : String :=
  String.ofList (join.source.toList.takeWhile fun c => c != '.')

def follow (joins : List Join) : (steps : Nat) → (aliasName : String) → String
  | 0, aliasName => aliasName
  | steps + 1, aliasName =>
    match joins.find? fun join => join.aliasName = aliasName with
    | none => aliasName
    | some parent => follow joins steps parent.base

end Join

namespace Query

def rootIndex (query : Query) (join : Join) : Nat :=
  let aliasName := Join.follow query.joins query.joins.length join.base
  (query.roots.findIdx? fun root => root.aliasName = aliasName).getD 0

def rootText (query : Query) (root : Root) (index : Nat) : String :=
  let joins := query.joins.filter fun join => query.rootIndex join = index
  " ".intercalate (root.text :: joins.map Join.text)

def selectText (query : Query) : String :=
  ", ".intercalate
    (if query.selected.isEmpty then query.roots.map Root.aliasName else query.selected)

def fromText (query : Query) : String :=
  if query.roots.isEmpty then ""
  else
    " FROM " ++
      ", ".intercalate (query.roots.zipIdx.map fun (root, index) => query.rootText root index)

def whereText (query : Query) : String :=
  match query.condition with
  | none => ""
  | some predicate => if predicate.isEmpty then "" else " WHERE " ++ predicate.text

def orderText (query : Query) : String :=
  if query.order.isEmpty then "" else " ORDER BY " ++ ", ".intercalate query.order

def text (query : Query) : String :=
  "SELECT " ++ query.selectText ++ query.fromText ++ query.whereText ++ query.orderText

def placeholder (name : String) : Text.Needle := ⟨':' :: name.toList, List.cons_ne_nil _ _⟩

def inline (text : List Char) (parameter : String × Value) : List Char :=
  Text.replaceAll (placeholder parameter.1) ('"' :: parameter.2.display.toList ++ ['"']) text

/-- The parameters, longer names first; names of one length keep their order. -/
def longestFirst (parameters : List (String × Value)) : List (String × Value) :=
  parameters.mergeSort fun left right => right.1.utf8ByteSize ≤ left.1.utf8ByteSize

def inlinedText (query : Query) : String :=
  String.ofList ((longestFirst query.parameters.entries).foldl inline query.text.toList)

end Query

end WhereClause
