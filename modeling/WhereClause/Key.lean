import WhereClause.Operator
import WhereClause.Text.Basic

/-!
The keys of filters. A key is one member or several alternatives, and a member is a path with an
operator's suffix or without one. Delimiters are found from left to right without overlap, so in a
run of underscores the first two are taken together.
-/
namespace WhereClause

namespace Key

def orDelimiter : Text.Needle := ⟨['_', '_', '_', 'o', 'r', '_', '_', '_'], by decide⟩

def suffixDelimiter : Text.Needle := ⟨['_', '_'], by decide⟩

def pathDelimiter : Text.Needle := ⟨['.'], by decide⟩

def members (key : String) : List String :=
  (Text.splitAll orDelimiter key.toList).map String.ofList

def splitPath? (path : String) : Option (String × String) :=
  (Text.cut? pathDelimiter path.toList).map fun (segment, rest) =>
    (String.ofList segment, String.ofList rest)

end Key

structure Field where
  path : String
  suffix? : Option String
  deriving DecidableEq

namespace Field

/-- With one delimiter whatever follows it is the suffix. With more of them the last piece is one
only if it is an operator's; otherwise the delimiters belong to the path. -/
def ofMember (member : String) : Field :=
  match Text.splitAll Key.suffixDelimiter member.toList with
  | [path, suffix] => ⟨String.ofList path, some (String.ofList suffix)⟩
  | pieces =>
    let last := String.ofList (pieces.getLastD [])
    if 2 < pieces.length ∧ (Operator.ofSuffix? last).isSome then
      ⟨String.ofList (Key.suffixDelimiter.chars.intercalate pieces.dropLast), some last⟩
    else
      ⟨member, none⟩

def operator? (field : Field) : Option Operator := field.suffix?.bind Operator.ofSuffix?

def isDotted (field : Field) : Bool := (Key.splitPath? field.path).isSome

end Field

end WhereClause
