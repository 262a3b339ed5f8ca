/-!
The operators that a key can end in. A key without one of them asks for equality, which has no
suffix of its own.
-/
namespace WhereClause

inductive Comparison where
  | less
  | lessOrEqual
  | greater
  | greaterOrEqual
  deriving DecidableEq

inductive Operator where
  | like
  | isIn
  | between
  | compare (comparison : Comparison)
  | null
  | is
  deriving DecidableEq

def Comparison.symbol : Comparison → String
  | less => "<"
  | lessOrEqual => "<="
  | greater => ">"
  | greaterOrEqual => ">="

namespace Operator

def suffix : Operator → String
  | like => "like"
  | isIn => "in"
  | between => "between"
  | compare .less => "lt"
  | compare .lessOrEqual => "lte"
  | compare .greater => "gt"
  | compare .greaterOrEqual => "gte"
  | null => "null"
  | is => "is"

def all : List Operator :=
  [like, isIn, between, compare .less, compare .lessOrEqual, compare .greater,
    compare .greaterOrEqual, null, is]

def ofSuffix? (word : String) : Option Operator :=
  all.find? fun operator => operator.suffix = word

def symbol? : Operator → Option String
  | compare comparison => some comparison.symbol
  | _ => none

theorem mem_all (operator : Operator) : operator ∈ all := by
  rcases operator with _ | _ | _ | (_ | _ | _ | _) | _ | _ <;> decide

theorem ofSuffix?_suffix (operator : Operator) : ofSuffix? operator.suffix = some operator := by
  rcases operator with _ | _ | _ | (_ | _ | _ | _) | _ | _ <;> rfl

theorem ofSuffix?_eq_none_iff {word : String} :
    ofSuffix? word = none ↔ ∀ operator : Operator, operator.suffix ≠ word := by
  simp [ofSuffix?, mem_all]

theorem ofSuffix?_eq_some_iff {word : String} {operator : Operator} :
    ofSuffix? word = some operator ↔ operator.suffix = word := by
  constructor
  · intro h
    rw [ofSuffix?] at h
    simpa using List.find?_some h
  · rintro rfl
    exact ofSuffix?_suffix operator

end Operator

end WhereClause
