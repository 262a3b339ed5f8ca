import WhereClause.Value

/-! The numbers that texts are read as: a sign, then digits with a point before, between or behind
them or without one, then an exponent; only one digit is required. Main statement: a numeric value
is written as such a number, perhaps with blanks around it. What the number is worth is not said. -/
namespace WhereClause.Numeral

def IsSign (s : List Char) : Prop := s = [] ∨ s = ['+'] ∨ s = ['-']

def IsDigits (s : List Char) : Prop := ∀ c ∈ s, c.isDigit = true

inductive IsMantissa : List Char → Prop
  | whole {digits : List Char} : digits ≠ [] → IsDigits digits → IsMantissa digits
  | point {digits places : List Char} : digits ++ places ≠ [] → IsDigits digits → IsDigits places →
      IsMantissa (digits ++ '.' :: places)

inductive IsPower : List Char → Prop
  | none : IsPower []
  | some {c : Char} {sign digits : List Char} : c = 'e' ∨ c = 'E' → IsSign sign → digits ≠ [] →
      IsDigits digits → IsPower (c :: (sign ++ digits))

inductive IsNumber : List Char → Prop
  | intro {sign mantissa power : List Char} : IsSign sign → IsMantissa mantissa → IsPower power →
      IsNumber (sign ++ (mantissa ++ power))

/-- Whether a text is a number with nothing but blanks around it. -/
def IsPaddedNumber (s : List Char) : Prop :=
  ∃ front number back, s = front ++ (number ++ back) ∧ IsNumber number ∧
    (∀ c ∈ front, isPadding c = true) ∧ ∀ c ∈ back, isPadding c = true

section

variable {s places left : List Char}

theorem IsNumber.padded (h : IsNumber s) : IsPaddedNumber s :=
  ⟨[], s, [], by rw [List.nil_append, List.append_nil], h, List.forall_mem_nil _,
    List.forall_mem_nil _⟩

theorem IsMantissa.exists_digit (h : IsMantissa s) : ∃ c ∈ s, c.isDigit = true := by
  cases h with
  | whole nonempty digits =>
    obtain ⟨c, among⟩ := List.exists_mem_of_ne_nil _ nonempty
    exact ⟨c, among, digits c among⟩
  | point nonempty digits places =>
    obtain ⟨c, among⟩ := List.exists_mem_of_ne_nil _ nonempty
    rcases List.mem_append.1 among with before | behind
    · exact ⟨c, List.mem_append_left _ before, digits c before⟩
    · exact ⟨c, List.mem_append_right _ (List.mem_cons_of_mem _ behind), places c behind⟩

theorem IsPaddedNumber.exists_digit (h : IsPaddedNumber s) : ∃ c ∈ s, c.isDigit = true := by
  obtain ⟨front, number, back, rfl, isNumber, -, -⟩ := h
  obtain ⟨-, mantissa, -⟩ := isNumber
  obtain ⟨c, among, digit⟩ := mantissa.exists_digit
  refine ⟨c, ?_, digit⟩
  simp only [List.mem_append]
  exact Or.inr (Or.inl (Or.inr (Or.inl among)))

theorem isDigits_takeWhile (s : List Char) : IsDigits (s.takeWhile Char.isDigit) :=
  List.all_eq_true.1 List.all_takeWhile

theorem exists_sign (s : List Char) : ∃ sign, s = sign ++ dropSign s ∧ IsSign sign := by
  cases s with
  | nil => exact ⟨[], rfl, Or.inl rfl⟩
  | cons c rest =>
    rw [dropSign]
    split
    · next isSign =>
      rcases isSign with rfl | rfl
      · exact ⟨['+'], rfl, Or.inr (Or.inl rfl)⟩
      · exact ⟨['-'], rfl, Or.inr (Or.inr rfl)⟩
    · exact ⟨[], rfl, Or.inl rfl⟩

theorem isPower_of_isExponent (h : isExponent s = true) : IsPower s := by
  cases s with
  | nil => exact .none
  | cons c rest =>
    rw [isExponent, Bool.and_eq_true, Bool.and_eq_true, Bool.or_eq_true, decide_eq_true_iff,
      decide_eq_true_iff, Bool.not_eq_true', List.isEmpty_eq_false_iff, List.all_eq_true] at h
    obtain ⟨⟨letter, nonempty⟩, digits⟩ := h
    obtain ⟨sign, split, isSign⟩ := exists_sign rest
    rw [split]
    exact .some letter isSign nonempty digits

theorem eq_of_fraction (h : fraction s = (places, left)) :
    (places = [] ∧ s = left) ∨ (s = '.' :: (places ++ left) ∧ IsDigits places) := by
  cases s with
  | nil =>
    obtain ⟨rfl, rfl⟩ := Prod.mk.inj h
    exact Or.inl ⟨rfl, rfl⟩
  | cons c rest =>
    rw [fraction] at h
    split at h
    · next point =>
      obtain ⟨rfl, rfl⟩ := Prod.mk.inj h
      exact Or.inr ⟨by rw [point, List.takeWhile_append_dropWhile], isDigits_takeWhile rest⟩
    · obtain ⟨rfl, rfl⟩ := Prod.mk.inj h
      exact Or.inl ⟨rfl, rfl⟩

theorem exists_of_isUnsigned (h : isUnsigned s = true) :
    ∃ mantissa power, s = mantissa ++ power ∧ IsMantissa mantissa ∧ IsPower power := by
  obtain ⟨places, left, taken⟩ : ∃ places left,
      fraction (s.dropWhile Char.isDigit) = (places, left) := ⟨_, _, rfl⟩
  rw [isUnsigned, taken] at h
  simp only [Bool.and_eq_true, Bool.not_eq_true', List.isEmpty_eq_false_iff] at h
  obtain ⟨nonempty, exponent⟩ := h
  have digits := isDigits_takeWhile s
  have split : s = s.takeWhile Char.isDigit ++ s.dropWhile Char.isDigit :=
    List.takeWhile_append_dropWhile.symm
  rcases eq_of_fraction taken with ⟨rfl, rest⟩ | ⟨rest, isDigits⟩
  · rw [rest] at split
    rw [List.append_nil] at nonempty
    exact ⟨_, left, split, .whole nonempty digits, isPower_of_isExponent exponent⟩
  · rw [rest, ← List.cons_append, ← List.append_assoc] at split
    exact ⟨_, left, split, .point nonempty digits isDigits, isPower_of_isExponent exponent⟩

theorem dropWhile_eq_trimEnds_append (drop : Char → Bool) (s : List Char) :
    s.dropWhile drop =
      Text.trimEnds drop s ++ ((s.dropWhile drop).reverse.takeWhile drop).reverse := by
  rw [Text.trimEnds, ← List.reverse_append, List.takeWhile_append_dropWhile, List.reverse_reverse]

theorem exists_trimEnds (drop : Char → Bool) (s : List Char) :
    ∃ front back, s = front ++ (Text.trimEnds drop s ++ back) ∧
      (∀ c ∈ front, drop c = true) ∧ ∀ c ∈ back, drop c = true := by
  refine ⟨s.takeWhile drop, ((s.dropWhile drop).reverse.takeWhile drop).reverse, ?_, ?_, ?_⟩
  · rw [← dropWhile_eq_trimEnds_append, List.takeWhile_append_dropWhile]
  · exact List.all_eq_true.1 List.all_takeWhile
  · exact fun c among => List.all_eq_true.1 List.all_takeWhile c (List.mem_reverse.1 among)

theorem isNumber_of_isUnsigned (h : isUnsigned (dropSign s) = true) : IsNumber s := by
  obtain ⟨sign, signed, isSign⟩ := exists_sign s
  obtain ⟨mantissa, power, unsigned, isMantissa, isPower⟩ := exists_of_isUnsigned h
  rw [signed, unsigned]
  exact .intro isSign isMantissa isPower

theorem isPaddedNumber_of_isNumeral (h : isNumeral s = true) : IsPaddedNumber s := by
  obtain ⟨front, back, split, before, behind⟩ := exists_trimEnds isPadding s
  exact ⟨front, _, back, split, isNumber_of_isUnsigned h, before, behind⟩

end

section

variable {s : List Char}

def isNumberChar (c : Char) : Bool :=
  c.isDigit || c = '+' || c = '-' || c = '.' || c = 'e' || c = 'E'

theorem IsDigits.isNumberChar (h : IsDigits s) : ∀ c ∈ s, isNumberChar c = true := by
  intro c among
  rw [Numeral.isNumberChar, h c among]
  rfl

theorem IsSign.isNumberChar (h : IsSign s) : ∀ c ∈ s, isNumberChar c = true := by
  rcases h with rfl | rfl | rfl <;> exact List.all_eq_true.1 (by decide)

theorem IsMantissa.isNumberChar (h : IsMantissa s) : ∀ c ∈ s, isNumberChar c = true := by
  cases h with
  | whole _ digits => exact digits.isNumberChar
  | point _ digits places =>
    refine List.forall_mem_append.2 ⟨digits.isNumberChar, List.forall_mem_cons.2 ⟨by decide, ?_⟩⟩
    exact places.isNumberChar

theorem IsPower.isNumberChar (h : IsPower s) : ∀ c ∈ s, isNumberChar c = true := by
  cases h with
  | none => exact List.forall_mem_nil _
  | some letter sign _ digits =>
    refine List.forall_mem_cons.2 ⟨?_, ?_⟩
    · rcases letter with rfl | rfl <;> decide
    · exact List.forall_mem_append.2 ⟨sign.isNumberChar, digits.isNumberChar⟩

theorem IsNumber.isNumberChar (h : IsNumber s) : ∀ c ∈ s, isNumberChar c = true := by
  obtain ⟨sign, mantissa, power⟩ := h
  refine List.forall_mem_append.2 ⟨sign.isNumberChar, ?_⟩
  exact List.forall_mem_append.2 ⟨mantissa.isNumberChar, power.isNumberChar⟩

end

theorem isDigits_toDigits (n : Nat) : IsDigits (Nat.toDigits 10 n) :=
  fun _ among => Nat.isDigit_of_mem_toDigits (by omega) (by omega) among

theorem isMantissa_toDigits (n : Nat) : IsMantissa (Nat.toDigits 10 n) :=
  .whole Nat.toDigits_ne_nil (isDigits_toDigits n)

theorem isDigits_replicate_zero (count : Nat) : IsDigits (List.replicate count '0') := by
  intro c among
  rw [List.eq_of_mem_replicate among]
  decide

theorem isMantissa_positional (d : Decimal.Scaled) : IsMantissa (d.positional []) := by
  have digits : IsDigits d.digits := isDigits_toDigits d.coefficient
  have nonempty : d.digits ≠ [] := Nat.toDigits_ne_nil
  unfold Decimal.Scaled.positional
  dsimp only
  split
  · rw [List.append_nil]
    exact .whole (List.append_ne_nil_of_left_ne_nil nonempty _)
      (List.forall_mem_append.2 ⟨digits, isDigits_replicate_zero _⟩)
  · split
    · refine .point ?_ (fun c among => digits c (List.mem_of_mem_take among))
        (fun c among => digits c (List.mem_of_mem_drop among))
      rwa [List.take_append_drop]
    · have zero : IsDigits ['0'] := isDigits_replicate_zero 1
      exact .point (List.cons_ne_nil _ _) zero
        (List.forall_mem_append.2 ⟨isDigits_replicate_zero _, digits⟩)

theorem IsMantissa.isNumber {sign mantissa : List Char} (h : IsMantissa mantissa)
    (isSign : IsSign sign) : IsNumber (sign ++ mantissa) := by
  have number := IsNumber.intro isSign h .none
  rwa [List.append_nil] at number

theorem isNumber_display_int (n : Int) : IsNumber (toString n).toList := by
  rw [Int.toString_eq_repr, Int.repr_eq_if]
  split
  · rw [Nat.toList_repr]
    exact (isMantissa_toDigits _).isNumber (Or.inl rfl)
  · rw [String.toList_append, Nat.toList_repr]
    exact (isMantissa_toDigits _).isNumber (Or.inr (Or.inr rfl))

theorem not_special_of_isFinite {x : Float} (h : x.isFinite = true) :
    x.isNaN = false ∧ x.isInf = false := by
  unfold Float.isFinite Float.Model.isFinite at h
  unfold Float.isNaN Float.isInf Float.Model.isNaN Float.Model.isInf
  cases unpacked : x.toModel.unpack with
  | _ =>
    rw [unpacked] at h
    first
      | exact ⟨rfl, rfl⟩
      | cases h

theorem isNumber_display_float {x : Float} (h : x.isFinite = true) :
    IsNumber (Decimal.render .text x).toList := by
  obtain ⟨isNumber, isBounded⟩ := not_special_of_isFinite h
  have isSign : IsSign (Decimal.sign x) := by
    unfold Decimal.sign
    split
    · exact Or.inr (Or.inr rfl)
    · exact Or.inl rfl
  rw [Decimal.render, isNumber, isBounded, if_neg Bool.false_ne_true, if_neg Bool.false_ne_true,
    String.toList_ofList]
  exact (isMantissa_positional _).isNumber isSign

theorem isPaddedNumber_display {value : Value} (h : value.isNumeric = true) :
    IsPaddedNumber value.display.toList := by
  cases value with
  | int value => exact (isNumber_display_int value.toInt).padded
  | float value => exact (isNumber_display_float h).padded
  | text value => exact isPaddedNumber_of_isNumeral h
  | _ => cases h

end WhereClause.Numeral
