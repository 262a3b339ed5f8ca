import WhereClause.Json.Number
import WhereClause.Table

/-!
Reading JSON text. A document may nest arrays and objects 127 deep. The first fault in the text
is the one that is reported, and a fault in the text of a scalar comes before the finding that the
scalar is of the wrong kind. Readers for documents of a known kind are built from the same parts as
the general one: each refuses a document of another kind in the words `invalid type`, and a negative
count in the words `invalid value`.
-/
namespace WhereClause.Json

variable {α σ : Type}

def depthLimit : Nat := 127

def hexValue? (c : Char) : Option Nat :=
  if c.isDigit then some (c.toNat - '0'.toNat)
  else if 'a' ≤ c ∧ c ≤ 'f' then some (c.toNat - 'a'.toNat + 10)
  else if 'A' ≤ c ∧ c ≤ 'F' then some (c.toNat - 'A'.toNat + 10)
  else none

def fourHexValue? (a b c d : Char) : Option Nat := do
  return (← hexValue? a) * 4096 + (← hexValue? b) * 256 + (← hexValue? c) * 16 + (← hexValue? d)

def hexFault (s : List Char) : Fault :=
  if byteCount s < 4 then .here .endInString [] else ⟨.invalidEscape, byteCount s - 4⟩

def takeHex : Reader Nat
  | a :: b :: c :: d :: rest =>
    match fourHexValue? a b c d with
    | some code => .ok ((((Taken.none code rest).behind d).behind c).behind b |>.behind a)
    | none => .error (hexFault (a :: b :: c :: d :: rest))
  | s => .error (hexFault s)

/-- Takes the `u` that must stand behind a backslash in the second half of a surrogate pair, and the
backslash before it. -/
def takeHalfMark : Reader Unit
  | [] => .error (.here .endInString [])
  | '\\' :: [] => .error (.here .endInString [])
  | '\\' :: 'u' :: rest => .ok (((Taken.none () rest).behind 'u').behind '\\')
  | '\\' :: rest => .error (.ahead .brokenSurrogatePair rest)
  | s => .error (.ahead .brokenSurrogatePair s)

def takeSecondHalf (first : Nat) : Reader Char := fun s => do
  let mark ← takeHalfMark s
  let second ← takeHex mark.rest
  if 0xDC00 ≤ second.value ∧ second.value ≤ 0xDFFF then
    let code := (first - 0xD800) * 1024 + (second.value - 0xDC00) + 0x10000
    .ok (mark.after (second.map fun _ => Char.ofNat code))
  else .error (.here .loneSurrogate second.rest)

/-- Takes a character that is given by its code; two codes make one outside the first plane. -/
def takeCoded : Reader Char := fun s => do
  let code ← takeHex s
  if 0xDC00 ≤ code.value ∧ code.value ≤ 0xDFFF then .error (.here .loneSurrogate code.rest)
  else if 0xD800 ≤ code.value ∧ code.value ≤ 0xDBFF then
    (takeSecondHalf code.value code.rest).map code.after
  else .ok (code.map Char.ofNat)

def escaped? (c : Char) : Option Char :=
  if c = '"' ∨ c = '\\' ∨ c = '/' then some c
  else if c = 'b' then some '\x08'
  else if c = 'f' then some '\x0c'
  else if c = 'n' then some '\n'
  else if c = 'r' then some '\r'
  else if c = 't' then some '\t'
  else none

def takeEscape : Reader Char
  | [] => .error (.here .endInString [])
  | c :: rest =>
    if c = 'u' then (takeCoded rest).map (.behind c)
    else match escaped? c with
      | some d => .ok ((Taken.none d rest).behind c)
      | none => .error (.ahead .invalidEscape (c :: rest))

def takeCharacters (s : List Char) : Except Fault (Taken (List Char) s) :=
  match s with
  | [] => .error (.here .endInString [])
  | c :: rest =>
    if c = '"' then .ok ((Taken.none [] rest).behind c)
    else if c = '\\' then do
      let escape ← takeEscape rest
      let more ← takeCharacters escape.rest
      .ok ((escape.after (more.map (escape.value :: ·))).behind c)
    else if c.toNat < 0x20 then .error (.ahead .controlCharacter (c :: rest))
    else do
      let more ← takeCharacters rest
      .ok ((more.map (c :: ·)).behind c)
termination_by s.length
decreasing_by
  · exact Nat.lt_succ_of_le escape.length_le
  · exact Nat.lt_succ_self _

def takeString : Reader String := fun s =>
  (takeCharacters s).map (·.map String.ofList)

def takeScalar : Reader Json
  | [] => .error (.ahead .endInValue [])
  | c :: rest =>
    if c = 'n' then
      (takeWord "ull".toList rest).map fun t => (t.map fun _ => null).behind c
    else if c = 't' then
      (takeWord "rue".toList rest).map fun t => (t.map fun _ => bool true).behind c
    else if c = 'f' then
      (takeWord "alse".toList rest).map fun t => (t.map fun _ => bool false).behind c
    else if c = '"' then (takeString rest).map fun t => (t.map string).behind c
    else if c = '-' then (takeNumber true rest).map (.behind c)
    else if c.isDigit then takeNumber false (c :: rest)
    else .error (.ahead .expectedValue (c :: rest))

def takeItems (item : Reader α) (s : List Char) : Except Fault (Taken (List α) s) := do
  let first ← item s
  match _h : skipBlanks first.rest with
  | [] => .error (.ahead .endInList [])
  | c :: rest =>
    if c = ']' then .ok (first.after (((Taken.none [first.value] rest).behind c).afterBlanks _h))
    else if c = ',' then
      match _h' : skipBlanks rest with
      | [] => .error (.ahead .endInValue [])
      | d :: next =>
        if d = ']' then .error (.ahead .trailingComma (d :: next))
        else do
          let more ← takeItems item (d :: next)
          let items := more.map (first.value :: ·)
          .ok (first.after (((items.afterBlanks _h').behind c).afterBlanks _h))
    else .error (.ahead .expectedListEnd (c :: rest))
termination_by s.length
decreasing_by
  have := first.length_le
  have := length_skipBlanks_le first.rest
  have := length_skipBlanks_le rest
  simp only [_h, _h', List.length_cons] at *
  omega

def takeArray (item : Reader α) : Reader (List α) := fun s =>
  match _h : skipBlanks s with
  | [] => .error (.ahead .endInList [])
  | c :: rest =>
    if c = ']' then .ok (((Taken.none [] rest).behind c).afterBlanks _h)
    else (takeItems item (c :: rest)).map (.afterBlanks _h)

def takeColon : Reader Unit := fun s =>
  match _h : skipBlanks s with
  | [] => .error (.ahead .endInObject [])
  | c :: rest =>
    if c = ':' then .ok (((Taken.none () rest).behind c).afterBlanks _h)
    else .error (.ahead .expectedColon (c :: rest))

/-- Takes members from the quote of a key on, and the closing brace. `member` takes what follows a
key, the colon included, and adds it to what was read before. -/
def takeMembers (member : σ → String → Reader σ) (state : σ) (s : List Char) :
    Except Fault (Taken σ s) := do
  let key ← takeString s
  let item ← member state key.value key.rest
  match _h : skipBlanks item.rest with
  | [] => .error (.ahead .endInObject [])
  | c :: rest =>
    if c = '\x7d' then
      .ok (key.after (item.after (((Taken.none item.value rest).behind c).afterBlanks _h)))
    else if c = ',' then
      match _h' : skipBlanks rest with
      | [] => .error (.ahead .endInValue [])
      | d :: next =>
        if d = '"' then do
          let more ← takeMembers member item.value next
          let members := ((more.behind d).afterBlanks _h').behind c
          .ok (key.after (item.after (members.afterBlanks _h)))
        else if d = '\x7d' then .error (.ahead .trailingComma (d :: next))
        else .error (.ahead .keyNotString (d :: next))
    else .error (.ahead .expectedObjectEnd (c :: rest))
termination_by s.length
decreasing_by
  have := key.length_le
  have := item.length_le
  have := length_skipBlanks_le item.rest
  have := length_skipBlanks_le rest
  simp only [_h, _h', List.length_cons] at *
  omega

def takeObject (member : σ → String → Reader σ) (state : σ) : Reader σ := fun s =>
  match _h : skipBlanks s with
  | [] => .error (.ahead .endInObject [])
  | c :: rest =>
    if c = '"' then (takeMembers member state rest).map fun t => (t.behind c).afterBlanks _h
    else if c = '\x7d' then .ok (((Taken.none state rest).behind c).afterBlanks _h)
    else .error (.ahead .keyNotString (c :: rest))

/-- A member of a plain object: a later one of the same name replaces the item of the earlier. -/
def plainMember (item : Reader α) (members : List (String × α)) (name : String) :
    Reader (List (String × α)) := fun s => do
  let colon ← takeColon s
  let found ← item colon.rest
  .ok (colon.after (found.map fun value => Entries.upsert name value members))

/-- Takes a document; `inner` takes what is inside an array or an object, where more nesting is
allowed. -/
def takeNested (inner : Option (Reader Json)) : Reader Json := fun s =>
  match _h : skipBlanks s with
  | [] => .error (.ahead .endInValue [])
  | c :: rest =>
    if c = '[' then
      match inner with
      | none => .error (.ahead .tooDeep (c :: rest))
      | some item =>
        (takeArray item rest).map fun t => ((t.map array).behind c).afterBlanks _h
    else if c = '\x7b' then
      match inner with
      | none => .error (.ahead .tooDeep (c :: rest))
      | some item =>
        (takeObject (plainMember item) [] rest).map fun t =>
          ((t.map object).behind c).afterBlanks _h
    else (takeScalar (c :: rest)).map (.afterBlanks _h)

def takeValue : (depth : Nat) → Reader Json
  | 0 => takeNested none
  | depth + 1 => takeNested (some (takeValue depth))

/-- The fault of a document of the wrong kind: an array or an object is refused where it begins and
a scalar behind its end. -/
def wrongKind (expected : String) (s : List Char) : Fault :=
  match s with
  | '[' :: _ => .here (.invalidType "sequence" expected) s
  | '\x7b' :: _ => .here (.invalidType "map" expected) s
  | _ =>
    match takeScalar s with
    | .error fault => fault
    | .ok taken => .here (.invalidType taken.value.describe expected) taken.rest

/-- Takes a scalar that `accept` turns into something, or gives the cause to refuse it. -/
def takeAccepted (expected : String) (accept : Json → Except Cause α) : Reader α := fun s =>
  match _h : skipBlanks s with
  | [] => .error (.ahead .endInValue [])
  | c :: rest =>
    if c = '[' ∨ c = '\x7b' then .error (wrongKind expected (c :: rest))
    else
      match takeScalar (c :: rest) with
      | .error fault => .error fault
      | .ok taken =>
        match accept taken.value with
        | .ok a => .ok ((taken.map fun _ => a).afterBlanks _h)
        | .error cause => .error (.here cause taken.rest)

def takeRecord (expected : String) (member : σ → String → Reader σ) (state : σ) : Reader σ :=
  fun s =>
    match _h : skipBlanks s with
    | [] => .error (.ahead .endInValue [])
    | c :: rest =>
      if c = '\x7b' then
        (takeObject member state rest).map fun t => (t.behind c).afterBlanks _h
      else .error (wrongKind expected (c :: rest))

def requireEnd (rest : List Char) : Except Fault Unit :=
  match skipBlanks rest with
  | [] => .ok ()
  | c :: more => .error (.ahead .trailingCharacters (c :: more))

def readAll (reader : Reader α) (text : String) : Except Error α :=
  match reader text.toList with
  | .error fault => .error (fault.locate text)
  | .ok taken =>
    match requireEnd taken.rest with
    | .error fault => .error (fault.locate text)
    | .ok () => .ok taken.value

def refuse {α : Type} (expected : String) (document : Json) : Except Cause α :=
  .error (.invalidType document.describe expected)

def takeText : Reader String :=
  takeAccepted "a string" fun
    | .string value => .ok value
    | other => refuse "a string" other

def takeFlag : Reader Bool :=
  takeAccepted "a boolean" fun
    | .bool value => .ok value
    | other => refuse "a boolean" other

def takeCount : Reader Nat :=
  takeAccepted "usize" fun
    | .int value =>
      if 0 ≤ value then .ok value.toNat
      else .error (.invalidValue (Json.int value).describe "usize")
    | other => refuse "usize" other

def takeNull : Reader Unit :=
  takeAccepted "unit" fun
    | .null => .ok ()
    | other => refuse "unit" other

end WhereClause.Json
