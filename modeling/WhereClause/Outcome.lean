import WhereClause.Query
import WhereClause.Value.Document

/-!
What is left of a step on a query: an answer, or why filters are refused, with a code for programs
and a message for people. A step that fails has a query to leave as well: what it did before the
failure is not taken back.
-/
namespace WhereClause

inductive Shape where
  | scalar
  | pair
  deriving DecidableEq

def Shape.words : Shape → String
  | scalar => "a scalar value"
  | pair => "a two-element list"

inductive EntryError where
  | malformed (error : Json.Error)
  | holdsObject (key : String)
  | notDirection (key : String) (found : Json)

def EntryError.message : EntryError → String
  | malformed error => error.message
  | holdsObject key => key ++ ": " ++ Value.objectRefusal
  | notDirection key found => key ++ ": sort direction must be a string, got " ++ found.text

inductive FilterError where
  | missingSource
  | invalidIsValue (display : String)
  | wrongShape (operator? : Option Operator) (expected : Shape)
  | unknownForm (name : String)
  | tooManyBytes (limit : Nat)
  | tooManyFilters (limit : Nat)
  | invalidEntries (reason : EntryError)

namespace FilterError

def code : FilterError → String
  | missingSource => "MISSING_QUERY_SOURCE"
  | invalidIsValue _ => "INVALID_FILTER_VALUE"
  | wrongShape _ _ => "INVALID_VALUE_SHAPE"
  | unknownForm _ => "INVALID_FILTER_FORM"
  | tooManyBytes _ => "FILTER_JSON_TOO_LARGE"
  | tooManyFilters _ => "TOO_MANY_FILTERS"
  | invalidEntries _ => "INVALID_FILTER_JSON"

/-- How an operator is named in a message; equality is the operator of a key without one. -/
def operatorName (operator? : Option Operator) : String :=
  (operator?.map Operator.suffix).getD "="

def message : FilterError → String
  | missingSource => "Before running Filters apply you must add a from"
  | invalidIsValue display =>
    "Invalid is filter value " ++ display ++
      ", must be \"null\", null or \"not_null\", no other case is yet implemented"
  | wrongShape operator? expected =>
    "Filter operator " ++ operatorName operator? ++ " expects " ++ expected.words
  | unknownForm name => "Filter form " ++ name ++ " is not registered as a FilterForm"
  | tooManyBytes limit => "Filter JSON exceeds maximum size of " ++ toString limit ++ " bytes"
  | tooManyFilters limit => "Maximum " ++ toString limit ++ " filters allowed"
  | invalidEntries reason => "Invalid filter JSON: " ++ reason.message

end FilterError

structure Outcome (α : Type) where
  query : Query
  result : Except FilterError α

namespace Outcome

variable {α β : Type}

def andThen (outcome : Outcome α) (next : α → Query → Outcome β) : Outcome β :=
  match outcome.result with
  | .ok answer => next answer outcome.query
  | .error error => ⟨outcome.query, .error error⟩

@[simp] theorem andThen_ok (query : Query) (answer : α) (next : α → Query → Outcome β) :
    andThen ⟨query, .ok answer⟩ next = next answer query := rfl

@[simp] theorem andThen_error (query : Query) (error : FilterError) (next : α → Query → Outcome β) :
    andThen ⟨query, .error error⟩ next = ⟨query, .error error⟩ := rfl

end Outcome

end WhereClause
