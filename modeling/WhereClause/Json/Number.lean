import WhereClause.Json.Basic
import WhereClause.Json.Taken

/-!
Reading a number. Its digits are gathered in a 64-bit word: integer digits from the first one that
does not fit only raise the exponent, and fraction digits from the first one that does not fit are
dropped. A number without fraction and exponent that a word holds stays an integer. Every other
one becomes the double nearest to the word, multiplied or divided once by the double nearest to the
power of ten, so the result can lie one place beside the nearest double.
-/
namespace WhereClause.Json

def wordLimit : Nat := 0xFFFFFFFFFFFFFFFF

def exponentLimit : Nat := 0x7FFFFFFF

def wordFloat (word : Nat) : Float := (UInt64.ofNat word).toFloat

def powerOfTen (exponent : Nat) : Float := Float.ofScientific 1 false exponent

/-- Divides by a power of ten, by at most `1e308` at a time. -/
def divideByPower (x : Float) (exponent : Nat) : Float :=
  if exponent ≤ 308 then x / powerOfTen exponent
  else if x == 0 then x
  else divideByPower (x / powerOfTen 308) (exponent - 308)
termination_by exponent

def scaledFloat? (word : Nat) (exponent : Int) : Option Float :=
  if exponent < 0 then some (divideByPower (wordFloat word) (-exponent).toNat)
  else if exponent ≤ 308 then
    let x := wordFloat word * powerOfTen exponent.toNat
    if x.isInf then none else some x
  else if word = 0 then some (wordFloat 0)
  else none

def signed (negative : Bool) (x : Float) : Float := if negative then -x else x

def takeFloat (negative : Bool) (word : Nat) (exponent : Int) : Reader Json := fun s =>
  match scaledFloat? word exponent with
  | none => .error (.here .numberOutOfRange s)
  | some x => .ok (.none (.float (signed negative x)) s)

def negativeLimit : Nat := 0x8000000000000000

/-- Ends a number that has neither fraction nor exponent. A negative zero is a double. -/
def integer (negative : Bool) (word : Nat) : Json :=
  if !negative then .int word
  else if word = 0 ∨ negativeLimit < word then .float (-wordFloat word)
  else .int (-word)

/-- Takes the digits of a written exponent. An exponent that is too large by itself leaves a zero,
unless it is positive and the word is not zero. -/
def takeExponentDigits (negative : Bool) (word : Nat) (exponent : Int) (down : Bool) :
    Reader Json := fun s =>
    let taken := takeDigits exponentLimit 0 0 s
    match _h : taken.rest with
    | [] => finish s taken
    | c :: rest =>
      if c.isDigit then
        if word ≠ 0 ∧ !down then .error (.here .numberOutOfRange rest)
        else
          .ok (taken.within _h
            (((dropDigits rest).map fun _ => .float (signed negative 0)).behind c))
      else finish s taken
where
  finish (s : List Char) (taken : Taken (Nat × Nat) s) : Except Fault (Taken Json s) :=
    let written : Int := taken.value.1
    (takeFloat negative word (if down then exponent - written else exponent + written)
      taken.rest).map taken.after

def takeExponent (negative : Bool) (word : Nat) (exponent : Int) : Reader Json
  | [] => .error (.here .endInValue [])
  | c :: rest =>
    if c = '+' ∨ c = '-' then
      match rest with
      | [] => .error (.here .endInValue [])
      | d :: more =>
        if d.isDigit then
          (takeExponentDigits negative word exponent (c = '-') (d :: more)).map (.behind c)
        else .error (.ahead .invalidNumber (d :: more))
    else if c.isDigit then takeExponentDigits negative word exponent false (c :: rest)
    else .error (.ahead .invalidNumber (c :: rest))

def takeScale (negative : Bool) (word : Nat) (exponent : Int) : Reader Json
  | [] => takeFloat negative word exponent []
  | c :: rest =>
    if c = 'e' ∨ c = 'E' then (takeExponent negative word exponent rest).map (.behind c)
    else takeFloat negative word exponent (c :: rest)

def takeFraction (negative : Bool) (word dropped : Nat) : Reader Json := fun s =>
  let taken := takeDigits wordLimit word 0 s
  let skipped := dropDigits taken.rest
  if taken.value.2 = 0 ∧ skipped.value = 0 then
    match s with
    | [] => .error (.here .endInValue [])
    | _ => .error (.ahead .invalidNumber s)
  else
    (takeScale negative taken.value.1 ((dropped : Int) - taken.value.2) skipped.rest).map
      fun scaled => taken.after (skipped.after scaled)

/-- Takes what follows the integer part, of which `dropped` digits did not fit. -/
def takeTail (negative : Bool) (word dropped : Nat) : Reader Json
  | [] => takeWhole []
  | c :: rest =>
    if c = '.' then (takeFraction negative word dropped rest).map (.behind c)
    else if c = 'e' ∨ c = 'E' then takeScale negative word dropped (c :: rest)
    else takeWhole (c :: rest)
where
  takeWhole (s : List Char) : Except Fault (Taken Json s) :=
    if dropped = 0 then .ok (.none (integer negative word) s)
    else takeFloat negative word dropped s

def takeNumber (negative : Bool) : Reader Json
  | [] => .error (.here .endInValue [])
  | c :: rest =>
    if c = '0' then
      if startsWithDigit rest then .error (.ahead .invalidNumber rest)
      else (takeTail negative 0 0 rest).map (.behind c)
    else if c.isDigit then
      let taken := takeDigits wordLimit 0 0 (c :: rest)
      let skipped := dropDigits taken.rest
      (takeTail negative taken.value.1 skipped.value skipped.rest).map
        fun tail => taken.after (skipped.after tail)
    else .error (.ahead .invalidNumber (c :: rest))

end WhereClause.Json
