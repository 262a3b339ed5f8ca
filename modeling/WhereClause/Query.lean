import WhereClause.Key
import WhereClause.Predicate
import WhereClause.Table

/-!
A query as it is built up: selected expressions, root entities, joins, a condition, bound
parameters and order terms. Everything but the bound parameters only grows; binding a name again
replaces its value. Nothing checks that an alias is given once.
-/
namespace WhereClause

structure Root where
  entity : String
  aliasName : String
  deriving DecidableEq

inductive JoinKind where
  | inner
  | left
  deriving DecidableEq

/-- A joined entity; its source is an alias and a field of it. -/
structure Join where
  kind : JoinKind
  source : String
  aliasName : String
  deriving DecidableEq

structure Target where
  leaf : String
  aliasName : String
  deriving DecidableEq

def qualified (aliasName field : String) : String := aliasName ++ "." ++ field

def Target.column (target : Target) : String := qualified target.aliasName target.leaf

structure Query where
  selected : List String := []
  roots : List Root := []
  joins : List Join := []
  condition : Option Predicate := none
  parameters : Table Value := ∅
  order : List String := []

/-- The group that further conditions are added to: an earlier condition of the same connective, or
a new group that holds the earlier condition if there is one. -/
def groupOn (connective : Connective) : Option Predicate → Predicate
  | none => .group connective []
  | some (.group present parts) =>
    if present = connective then .group present parts
    else (Predicate.group connective []).add (.group present parts)
  | some leaf => (Predicate.group connective []).add leaf

def conjoin (connective : Connective) (earlier : Option Predicate) (predicate : Predicate) :
    Predicate :=
  (groupOn connective earlier).add predicate

namespace Query

def empty : Query := {}

instance : Inhabited Query := ⟨empty⟩

def select (query : Query) (expression : String) : Query :=
  { query with selected := query.selected ++ [expression] }

def addRoot (query : Query) (entity aliasName : String) : Query :=
  { query with roots := query.roots ++ [⟨entity, aliasName⟩] }

def leftJoin (query : Query) (source aliasName : String) : Query :=
  { query with joins := query.joins ++ [⟨.left, source, aliasName⟩] }

def restrict (query : Query) (connective : Connective) (predicate : Predicate) : Query :=
  { query with condition := some (conjoin connective query.condition predicate) }

def bind (query : Query) (name : String) (value : Value) : Query :=
  { query with parameters := query.parameters.put name value }

def addOrder (query : Query) (field direction : String) : Query :=
  { query with order := query.order ++ [field ++ " " ++ direction] }

def aliases (query : Query) : List String :=
  query.roots.map Root.aliasName ++ query.joins.map Join.aliasName

def rootAlias? (query : Query) : Option String := query.aliases.head?

/-- The alias under which a source is joined; of several joins the last. -/
def joinedAlias? (query : Query) (source : String) : Option String :=
  (query.joins.reverse.find? fun join => join.source = source).map Join.aliasName

/-- The alias of the entity behind a field, which is joined under the field's name unless it is
joined already. -/
def joinField (query : Query) (base field : String) : String × Query :=
  match query.joinedAlias? (qualified base field) with
  | some aliasName => (aliasName, query)
  | none => (field, query.leftJoin (qualified base field) field)

def resolve (query : Query) (base path : String) : Target × Query :=
  match Key.splitPath? path with
  | none => (⟨path, base⟩, query)
  | some (segment, leaf) =>
    let (aliasName, query) := query.joinField base segment
    (⟨leaf, aliasName⟩, query)

end Query

end WhereClause
