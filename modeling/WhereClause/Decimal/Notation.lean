import WhereClause.Decimal.Shortest

/-!
How a double is written: the digits of its shortest decimal with the point in place, or with an
exponent outside a given range. Two styles are in use. Plain text never has an exponent and gives
a whole number no point; JSON text keeps a `.0` on whole numbers and takes an exponent for very
small and very large ones.
-/
namespace WhereClause.Decimal

/-- The decisions of a style. `plain` bounds the decimal exponents that are written without an
exponent part, and `whole` follows the digits of a whole number that has none. -/
structure Style where
  tie : Tie
  plain : Option (Int × Int)
  whole : String

/-- Never an exponent, and no point in a whole number. Of two equally near decimals the upper. -/
def Style.text : Style := ⟨.up, none, ""⟩

/-- Without an exponent from `0.00001` up to all numbers of 16 digits. Of two equally near
decimals the even one. -/
def Style.json : Style := ⟨.even, some (-5, 15), ".0"⟩

def Scaled.digits (d : Scaled) : List Char := Nat.toDigits 10 d.coefficient

def Scaled.leading (d : Scaled) : Int := d.digits.length + d.exponent - 1

def Scaled.positional (whole : List Char) (d : Scaled) : List Char :=
  let places := (-d.exponent).toNat
  let count := d.digits.length
  if places = 0 then d.digits ++ List.replicate d.exponent.toNat '0' ++ whole
  else if places < count then
    d.digits.take (count - places) ++ '.' :: d.digits.drop (count - places)
  else
    '0' :: '.' :: List.replicate (places - count) '0' ++ d.digits

def Scaled.exponential (d : Scaled) : List Char :=
  let sign := if d.leading < 0 then ['-'] else ['+']
  let more := if 1 < d.digits.length then '.' :: d.digits.drop 1 else []
  d.digits.take 1 ++ more ++ 'e' :: sign ++ Nat.toDigits 10 d.leading.natAbs

def Scaled.render (style : Style) (d : Scaled) : List Char :=
  match style.plain with
  | none => d.positional style.whole.toList
  | some (least, most) =>
    if least ≤ d.leading ∧ d.leading ≤ most then d.positional style.whole.toList
    else d.exponential

def isNegative (x : Float) : Bool := 0x8000000000000000 ≤ x.toBits.toNat

def sign (x : Float) : List Char := if isNegative x then ['-'] else []

def render (style : Style) (x : Float) : String :=
  if x.isNaN then "NaN"
  else if x.isInf then String.ofList (sign x ++ "inf".toList)
  else
    let magnitude := match Binary.ofFloat? x with
      | none => Scaled.mk 0 0
      | some b => b.shortest style.tie
    String.ofList (sign x ++ magnitude.render style)

end WhereClause.Decimal
