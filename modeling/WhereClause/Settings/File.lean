import WhereClause.Settings

/-!
Reading settings from the JSON text of a file. Fields are checked in the order of the file; a known
one may stand there once, and an unknown one is kept, the last of a name in the place of the first.
-/
namespace WhereClause.Settings

open Json

structure Draft where
  mode : Option Connective := none
  stem : Option String := none
  hashLength : Option Nat := none
  escapeLike : Option Bool := none
  maxFilters : Option Nat := none
  maxBytes : Option Nat := none
  extra : Table Json := ∅

def Draft.settings (draft : Draft) : Settings where
  mode := draft.mode.getD default.mode
  stem := draft.stem.getD default.stem
  hashLength := draft.hashLength.getD default.hashLength
  escapeLike := draft.escapeLike.getD default.escapeLike
  maxFilters := draft.maxFilters.getD default.maxFilters
  maxBytes := draft.maxBytes.getD default.maxBytes
  extra := draft.extra

/-- A repeated field. Its place is noted behind the end of the object, if that comes next. -/
def repeated (name : String) (rest : List Char) : Fault :=
  match skipBlanks rest with
  | [] => .here (.duplicateField name) []
  | c :: more => .here (.duplicateField name) (if c = '\x7d' then more else c :: more)

def takeField {α : Type} (name : String) (earlier : Option α) (reader : Reader α)
    (set : α → Draft) : Reader Draft := fun s =>
  if earlier.isSome then .error (repeated name s)
  else do
    let colon ← takeColon s
    let item ← reader colon.rest
    .ok (colon.after (item.map set))

def takeExtra (draft : Draft) (name : String) : Reader Draft := fun s => do
  let colon ← takeColon s
  let item ← takeValue (depthLimit - 1) colon.rest
  .ok (colon.after (item.map fun value => { draft with extra := draft.extra.put name value }))

def takeNamed (draft : Draft) (name : String) : Reader Draft :=
  match name with
  | "mode" => takeField name draft.mode Connective.takeDocument
      fun value => { draft with mode := some value }
  | "parameter_prefix" => takeField name draft.stem takeText
      fun value => { draft with stem := some value }
  | "parameter_hash_len" => takeField name draft.hashLength takeCount
      fun value => { draft with hashLength := some value }
  | "escape_like" => takeField name draft.escapeLike takeFlag
      fun value => { draft with escapeLike := some value }
  | "max_filters" => takeField name draft.maxFilters takeCount
      fun value => { draft with maxFilters := some value }
  | "max_filter_json_bytes" => takeField name draft.maxBytes takeCount
      fun value => { draft with maxBytes := some value }
  | _ => takeExtra draft name

def ofJsonText (text : String) : Except Json.Error Settings :=
  (readAll (takeRecord "struct FiltersConfig" takeNamed {}) text).map Draft.settings

end WhereClause.Settings
