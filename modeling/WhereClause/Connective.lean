import WhereClause.Json.Reader
import WhereClause.Text.Basic

/-!
The two connectives that combine conditions, and the texts and JSON documents that name them. In
plain text `1` and `2` name them as well, and capitals and blanks at the ends are ignored; in JSON
only the small words do, alone or as the key of an object whose item is `null`.
-/
namespace WhereClause

inductive Connective where
  | and
  | or
  deriving DecidableEq, Inhabited

structure UnknownConnective where
  text : String
  deriving DecidableEq

def UnknownConnective.message (unknown : UnknownConnective) : String :=
  "unknown combination mode: " ++ unknown.text ++ " (expected \"and\" or \"or\")"

namespace Connective

def name : Connective → String
  | and => "and"
  | or => "or"

def separator : Connective → String
  | and => " AND "
  | or => " OR "

def ofText (text : String) : Except UnknownConnective Connective :=
  let word := Text.lowered (Text.trim text)
  if word = "and" ∨ word = "1" then .ok and
  else if word = "or" ∨ word = "2" then .ok or
  else .error ⟨text⟩

def ofName? (text : String) : Option Connective :=
  if text = "and" then some and else if text = "or" then some or else none

open Json in
def takeName : Json.Reader Connective := fun s => do
  let word ← takeString s
  match ofName? word.value with
  | some connective => .ok (word.map fun _ => connective)
  | none => .error (.here (.unknownVariant word.value "and" "or") word.rest)

open Json in
def takeNothing : Json.Reader Unit := fun s => do
  let colon ← takeColon s
  let nothing ← takeNull colon.rest
  match _h : skipBlanks nothing.rest with
  | [] => .error (.here .endInObject [])
  | c :: rest =>
    if c = '\x7d' then
      .ok (colon.after (nothing.after (((Taken.none () rest).behind c).afterBlanks _h)))
    else .error (.here .expectedValue (c :: rest))

open Json in
/-- Takes the one member of an object that names a connective, behind the opening brace. The object
may not be empty. -/
def takeMember : Json.Reader Connective := fun s =>
  match _h : skipBlanks s with
  | [] => .error (.ahead .endInObject [])
  | c :: rest =>
    if c = '"' then do
      let key ← takeName rest
      let nothing ← takeNothing key.rest
      .ok (((key.after (nothing.map fun _ => key.value)).behind c).afterBlanks _h)
    else if c = '\x7d' then .error (.ahead .expectedValue (c :: rest))
    else .error (.ahead .keyNotString (c :: rest))

open Json in
def takeDocument : Json.Reader Connective := fun s =>
  match _h : skipBlanks s with
  | [] => .error (.ahead .endInValue [])
  | c :: rest =>
    if c = '\x7b' then (takeMember rest).map fun t => (t.behind c).afterBlanks _h
    else if c = '"' then (takeName rest).map fun t => (t.behind c).afterBlanks _h
    else .error (.ahead .expectedValue (c :: rest))

def ofJsonText (text : String) : Except Json.Error Connective :=
  Json.readAll takeDocument text

end Connective

end WhereClause
