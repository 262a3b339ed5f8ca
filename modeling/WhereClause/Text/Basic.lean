/-!
Plain work on texts. A search for a nonempty part cuts at its leftmost occurrence, splits at all
occurrences from left to right or replaces each of them; occurrences that overlap an earlier one are
not found. Trimming takes off white space as Unicode's property `White_Space` lists it, so that the
zero-width space and the byte order mark stay. A count is an optional plus sign and ASCII digits,
below `2 ^ 64`; its characters are examined from left to right and the first one that cannot be
taken decides the error, so a stray letter after too many digits reports the digits. Main
statements: joining the pieces of a split gives the text back, and every split has at least one
piece.
-/
namespace WhereClause.Text

structure Needle where
  chars : List Char
  chars_ne_nil : chars ≠ [] := by decide

/-- The text before and after the leftmost occurrence. -/
def cut? (needle : Needle) : List Char → Option (List Char × List Char)
  | [] => none
  | c :: rest =>
    if needle.chars.isPrefixOf (c :: rest) then
      some ([], (c :: rest).drop needle.chars.length)
    else
      (cut? needle rest).map fun (before, after) => (c :: before, after)

theorem eq_of_cut? {needle : Needle} {s before after : List Char}
    (h : cut? needle s = some (before, after)) : s = before ++ needle.chars ++ after := by
  induction s generalizing before with
  | nil => simp [cut?] at h
  | cons c rest ih =>
    rw [cut?] at h
    split at h
    · next found =>
      obtain ⟨tail, htail⟩ := List.isPrefixOf_iff_prefix.1 found
      obtain ⟨rfl, rfl⟩ := Prod.mk.inj (Option.some.inj h)
      rw [← htail]
      simp
    · obtain ⟨⟨b, a⟩, hb, he⟩ := Option.map_eq_some_iff.1 h
      obtain ⟨rfl, rfl⟩ := Prod.mk.inj he
      simp [ih hb]

theorem length_lt_of_cut? {needle : Needle} {s before after : List Char}
    (h : cut? needle s = some (before, after)) : after.length < s.length := by
  have nonempty := List.length_pos_iff.2 needle.chars_ne_nil
  rw [eq_of_cut? h]
  simp only [List.length_append]
  omega

def splitAll (needle : Needle) (s : List Char) : List (List Char) :=
  match _h : cut? needle s with
  | none => [s]
  | some (before, after) => before :: splitAll needle after
termination_by s.length
decreasing_by exact length_lt_of_cut? _h

theorem splitAll_of_cut?_none {needle : Needle} {s : List Char} (h : cut? needle s = none) :
    splitAll needle s = [s] := by
  rw [splitAll]
  split <;> simp_all

theorem splitAll_of_cut? {needle : Needle} {s before after : List Char}
    (h : cut? needle s = some (before, after)) :
    splitAll needle s = before :: splitAll needle after := by
  rw [splitAll]
  split <;> simp_all

theorem splitAll_ne_nil (needle : Needle) (s : List Char) : splitAll needle s ≠ [] := by
  cases h : cut? needle s with
  | none => simp [splitAll_of_cut?_none h]
  | some parts => rw [splitAll_of_cut? h]; exact List.cons_ne_nil _ _

theorem intercalate_splitAll (needle : Needle) (s : List Char) :
    needle.chars.intercalate (splitAll needle s) = s := by
  fun_induction splitAll needle s with
  | case1 s h => simp [List.intercalate]
  | case2 s before after h ih =>
    obtain ⟨piece, pieces, hp⟩ := List.exists_cons_of_ne_nil (splitAll_ne_nil needle after)
    rw [hp] at ih ⊢
    rw [eq_of_cut? h, ← ih]
    simp [List.intercalate, List.intersperse]

def replaceAll (needle : Needle) (new s : List Char) : List Char :=
  new.intercalate (splitAll needle s)

def occurs (needle : Needle) (s : List Char) : Bool :=
  (cut? needle s).isSome

def isBlank (c : Char) : Bool :=
  let n := c.toNat
  (0x9 ≤ n && n ≤ 0xD) || n == 0x20 || n == 0x85 || n == 0xA0 || n == 0x1680 ||
    (0x2000 ≤ n && n ≤ 0x200A) || n == 0x2028 || n == 0x2029 || n == 0x202F || n == 0x205F ||
    n == 0x3000

def trimEnds (drop : Char → Bool) (s : List Char) : List Char :=
  ((s.dropWhile drop).reverse.dropWhile drop).reverse

def trim (s : String) : String :=
  String.ofList (trimEnds isBlank s.toList)

def lowered (s : String) : String :=
  s.map Char.toLower

def raised (s : String) : String :=
  s.map Char.toUpper

inductive CountError where
  | empty
  | invalidDigit
  | tooLarge
  deriving DecidableEq

def CountError.message : CountError → String
  | .empty => "cannot parse integer from empty string"
  | .invalidDigit => "invalid digit found in string"
  | .tooLarge => "number too large to fit in target type"

def maxCount : Nat := 0xFFFFFFFFFFFFFFFF

def digitValue (c : Char) : Nat := c.toNat - '0'.toNat

/-- Takes the digits one by one; each is checked before the value that it leads to. -/
def countFrom (value : Nat) : List Char → Except CountError Nat
  | [] => .ok value
  | c :: rest =>
    if !c.isDigit then .error .invalidDigit
    else if maxCount < value * 10 + digitValue c then .error .tooLarge
    else countFrom (value * 10 + digitValue c) rest

def readCount (s : String) : Except CountError Nat :=
  match s.toList with
  | [] => .error .empty
  | ['+'] => .error .invalidDigit
  | '+' :: digits => countFrom 0 digits
  | digits => countFrom 0 digits

end WhereClause.Text
