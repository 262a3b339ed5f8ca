import WhereClause.Settings.File
import WhereClause.Text.Basic
import WhereClause.Text.Printable

/-!
Loading settings: the default values, over them a file, over that four environment variables. The
result is checked once, at the end, so a variable can mend what the file has wrong. Fields of the
file that nothing knows are loaded and named in a warning.
-/
namespace WhereClause.Settings

structure File where
  path : String
  text? : Option String

structure Environment where
  mode : Option String := none
  escapeLike : Option String := none
  stem : Option String := none
  maxFilters : Option String := none

namespace Variable

def mode : String := "QUERY_FILTERS_MODE"

def escapeLike : String := "QUERY_FILTERS_ESCAPE_LIKE"

def stem : String := "QUERY_FILTERS_PARAMETER_PREFIX"

def maxFilters : String := "QUERY_FILTERS_MAX_FILTERS"

end Variable

def Environment.ofLookup (lookup : String → Option String) : Environment where
  mode := lookup Variable.mode
  escapeLike := lookup Variable.escapeLike
  stem := lookup Variable.stem
  maxFilters := lookup Variable.maxFilters

inductive LoadError where
  | missingFile (path : String)
  | malformedFile (path : String) (error : Json.Error)
  | invalidMode (text : String) (unknown : UnknownConnective)
  | invalidEscapeLike (text : String)
  | invalidMaxFilters (text : String) (error : Text.CountError)
  | invalid (problem : Problem)
  deriving DecidableEq

def flagWord (text : String) : String := Text.lowered (Text.trim text)

def flagOfText? (text : String) : Option Bool :=
  if flagWord text ∈ ["1", "true", "yes", "on"] then some true
  else if flagWord text ∈ ["0", "false", "no", "off"] then some false
  else none

namespace LoadError

def invalidVariable (name text : String) : String := "Invalid " ++ name ++ ": " ++ text

def message : LoadError → String
  | missingFile path => "Failed to read config file: " ++ path
  | malformedFile path _ => "Failed to parse config file: " ++ path
  | invalidMode text _ => invalidVariable Variable.mode text
  | invalidEscapeLike text => invalidVariable Variable.escapeLike text
  | invalidMaxFilters text _ => invalidVariable Variable.maxFilters text
  | invalid problem => problem.message

def causes : LoadError → List String
  | missingFile _ => ["No such file or directory (os error 2)"]
  | malformedFile _ error => [error.message]
  | invalidMode _ unknown => [unknown.message]
  | invalidEscapeLike text => ["expected a boolean, got " ++ Text.quoted (flagWord text)]
  | invalidMaxFilters _ error => [error.message]
  | invalid _ => []

end LoadError

def ofFile (file? : Option File) : Except LoadError Settings :=
  match file? with
  | none => .ok default
  | some file =>
    match file.text? with
    | none => .error (.missingFile file.path)
    | some text =>
      match ofJsonText text with
      | .error error => .error (.malformedFile file.path error)
      | .ok settings => .ok settings

def overrideWith {α : Type} (present : α) (text? : Option String)
    (read : String → Except LoadError α) : Except LoadError α :=
  match text? with
  | none => .ok present
  | some text => read text

def readMode (text : String) : Except LoadError Connective :=
  match Connective.ofText text with
  | .ok mode => .ok mode
  | .error unknown => .error (.invalidMode text unknown)

def readEscapeLike (text : String) : Except LoadError Bool :=
  match flagOfText? text with
  | some flag => .ok flag
  | none => .error (.invalidEscapeLike text)

def readMaxFilters (text : String) : Except LoadError Nat :=
  match Text.readCount text with
  | .ok count => .ok count
  | .error error => .error (.invalidMaxFilters text error)

def override (settings : Settings) (environment : Environment) : Except LoadError Settings := do
  let mode ← overrideWith settings.mode environment.mode readMode
  let escapeLike ← overrideWith settings.escapeLike environment.escapeLike readEscapeLike
  let maxFilters ← overrideWith settings.maxFilters environment.maxFilters readMaxFilters
  return { settings with mode, escapeLike, maxFilters, stem := environment.stem.getD settings.stem }

def validate (settings : Settings) : Except LoadError Settings :=
  match settings.problem? with
  | none => .ok settings
  | some problem => .error (.invalid problem)

def warnings (settings : Settings) : List String :=
  if settings.extra.isEmpty then [] else [", ".intercalate settings.extra.names]

/-- Settings or the reason why there are none, and the warnings up to there. -/
structure Loaded where
  result : Except LoadError Settings
  warnings : List String

def load (file? : Option File) (environment : Environment) : Loaded :=
  match ofFile file? with
  | .error error => ⟨.error error, []⟩
  | .ok settings => ⟨settings.override environment >>= validate, settings.warnings⟩

end WhereClause.Settings
