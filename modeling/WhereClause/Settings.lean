import WhereClause.Connective
import WhereClause.Table

/-!
Settings that compiling and reading share, their default values, and the conditions on them. The
conditions are checked when settings are loaded and nowhere else.
-/
namespace WhereClause

/-- How entries are combined where the caller does not say, the stem of the names of parameters and
how many digits follow it, whether the wildcards in a text that is searched for are taken literally,
the greatest number of entries in JSON text and its greatest size in bytes, and what else the file
of settings holds. -/
structure Settings where
  mode : Connective := .and
  stem : String := "f"
  hashLength : Nat := 5
  escapeLike : Bool := false
  maxFilters : Nat := 50
  maxBytes : Nat := 64 * 1024
  extra : Table Json := ∅

namespace Settings

def default : Settings := {}

instance : Inhabited Settings := ⟨default⟩

def maxHashLength : Nat := 32

inductive Problem where
  | stemBeginning
  | stemCharacters
  | hashLength
  | noFilters
  | noBytes
  deriving DecidableEq

def Problem.message : Problem → String
  | stemBeginning => "Configuration error: parameter_prefix must start with an ASCII letter"
  | stemCharacters =>
    "Configuration error: parameter_prefix may only contain letters, digits and '_'"
  | hashLength =>
    "Configuration error: parameter_hash_len must be between 1 and " ++ toString maxHashLength
  | noFilters => "Configuration error: max_filters must be greater than 0"
  | noBytes => "Configuration error: max_filter_json_bytes must be greater than 0"

def startsWithLetter (stem : String) : Bool :=
  match stem.toList with
  | [] => false
  | c :: _ => c.isAlpha

def isNameChar (c : Char) : Bool := c.isAlphanum || c = '_'

def problem? (settings : Settings) : Option Problem :=
  if !startsWithLetter settings.stem then some .stemBeginning
  else if !settings.stem.toList.all isNameChar then some .stemCharacters
  else if settings.hashLength = 0 ∨ maxHashLength < settings.hashLength then some .hashLength
  else if settings.maxFilters = 0 then some .noFilters
  else if settings.maxBytes = 0 then some .noBytes
  else none

end Settings

end WhereClause
