import WhereClause.Digest.Md5
import WhereClause.Outcome
import WhereClause.Settings

/-!
Filters and sortings. Filters are entries of a key and a value, compiled into conditions of a query.
A member of a key is resolved first, which can join an entity; then its operator and the value give
a condition and perhaps a parameter to bind, or an error. An error ends the work and takes nothing
back: joins and parameters of members before it stay, and so does the join of the member that
failed. Entries of a sorting are a path and a direction and become order terms; a dotted path joins
an entity as it does in a filter, and directions are not looked at.
-/
namespace WhereClause

abbrev Filters := Table Value

structure Clause where
  predicate : Predicate
  binding? : Option (String × Value)

namespace Filter

/-- The wildcards of a search text and the character that takes them literally, each after that
character. Backslashes are the first to be replaced, so none is doubled that was added. -/
def escapeLike (text : String) : String :=
  let backslash : Text.Needle := ⟨['\\'], by decide⟩
  let percent : Text.Needle := ⟨['%'], by decide⟩
  let underscore : Text.Needle := ⟨['_'], by decide⟩
  let escaped := Text.replaceAll backslash ['\\', '\\'] text.toList
  let escaped := Text.replaceAll percent ['\\', '%'] escaped
  String.ofList (Text.replaceAll underscore ['\\', '_'] escaped)

/-- The name of the parameter of a member. Members whose digests begin alike share one. -/
def parameterName (settings : Settings) (member : String) : String :=
  settings.stem ++ Digest.short member settings.hashLength

def pattern (settings : Settings) (value : Value) : String :=
  let text := value.display
  "%" ++ (if settings.escapeLike then escapeLike text else text) ++ "%"

def doubleQuoted (text : String) : String := "\"" ++ text ++ "\""

def comparand (value : Value) : String :=
  match value.dateText? with
  | some date => doubleQuoted date
  | none => value.display

/-- A bound of a range: a date or a text in quotes, a number as it is. -/
def bound (value : Value) : String :=
  match value.dateText? with
  | some date => doubleQuoted date
  | none => if value.isNumeric then value.display else doubleQuoted value.display

def bindingClause (settings : Settings) (member column symbol : String) (value : Value) : Clause :=
  let name := parameterName settings member
  ⟨.comparison column symbol (":" ++ name), some (name, value)⟩

def plainClause (predicate : Predicate) : Except FilterError Clause := .ok ⟨predicate, none⟩

def requireScalar (operator? : Option Operator) (value : Value) (clause : Clause) :
    Except FilterError Clause :=
  if value.isList then .error (.wrongShape operator? .scalar) else .ok clause

/-- The column of an equality: without a joined entity the whole member, suffix included. -/
def equalityColumn (member : String) (field : Field) (target : Target) : String :=
  if field.isDotted then target.column else qualified target.aliasName member

def choices : Value → List Value
  | .list items => items
  | value => [value]

def nullTest (column : String) : Value → Except FilterError Predicate
  | .null => .ok (.isNull column)
  | .text "null" => .ok (.isNull column)
  | .text "not_null" => .ok (.isNotNull column)
  | value => .error (.invalidIsValue value.display)

def clause (settings : Settings) (member : String) (target : Target) (value : Value) :
    Except FilterError Clause :=
  let field := Field.ofMember member
  let column := target.column
  match field.operator? with
  | none =>
    requireScalar none value
      (bindingClause settings member (equalityColumn member field target) "=" value)
  | some .like =>
    requireScalar (some .like) value
      (bindingClause settings member column "LIKE" (.text (pattern settings value)))
  | some (.compare comparison) =>
    requireScalar (some (.compare comparison)) value
      ⟨.comparison column comparison.symbol (comparand value), none⟩
  | some .isIn => plainClause (.isIn column (choices value))
  | some .between =>
    match value with
    | .list [low, high] => plainClause (.between column (bound low) (bound high))
    | _ => .error (.wrongShape (some .between) .pair)
  | some .null => plainClause (if value.holds then .isNull column else .isNotNull column)
  | some .is => (nullTest column value).bind plainClause

def Clause.bindIn (clause : Clause) (query : Query) : Outcome Predicate :=
  match clause.binding? with
  | none => ⟨query, .ok clause.predicate⟩
  | some (name, value) => ⟨query.bind name value, .ok clause.predicate⟩

def compileMember (settings : Settings) (value : Value) (member : String) (query : Query) :
    Outcome Predicate :=
  match query.rootAlias? with
  | none => ⟨query, .error .missingSource⟩
  | some root =>
    let (target, query) := query.resolve root (Field.ofMember member).path
    match clause settings member target value with
    | .error error => ⟨query, .error error⟩
    | .ok clause => Clause.bindIn clause query

def compileMembers (settings : Settings) (value : Value) :
    List String → Query → Outcome (List Predicate)
  | [], query => ⟨query, .ok []⟩
  | member :: rest, query =>
    (compileMember settings value member query).andThen fun predicate query =>
      (compileMembers settings value rest query).andThen fun predicates query =>
        ⟨query, .ok (predicate :: predicates)⟩

def compile (settings : Settings) (key : String) (value : Value) (query : Query) :
    Outcome Predicate :=
  (compileMembers settings value (Key.members key) query).andThen fun predicates query =>
    ⟨query, .ok (.ofParts .or predicates)⟩

def applyEntries (settings : Settings) (mode : Connective) :
    List (String × Value) → Query → Outcome Unit
  | [], query => ⟨query, .ok ()⟩
  | (key, value) :: rest, query =>
    (compile settings key value query).andThen fun predicate query =>
      applyEntries settings mode rest (query.restrict mode predicate)

def apply (settings : Settings) (mode : Connective) (filters : Filters) (query : Query) :
    Outcome Unit :=
  applyEntries settings mode filters.entries query

def applyDefault (settings : Settings) (filters : Filters) (query : Query) : Outcome Unit :=
  apply settings settings.mode filters query

end Filter

abbrev Sorting := Table String

namespace Sorting

def addTerm (root : String) (query : Query) (entry : String × String) : Query :=
  let (target, query) := query.resolve root entry.1
  query.addOrder target.column entry.2

def apply (sorting : Sorting) (query : Query) : Outcome Unit :=
  if sorting.isEmpty then ⟨query, .ok ()⟩
  else
    match query.rootAlias? with
    | none => ⟨query, .error .missingSource⟩
    | some root => ⟨sorting.entries.foldl (addTerm root) query, .ok ()⟩

end Sorting

end WhereClause
