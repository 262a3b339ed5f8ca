import Mathlib.Data.List.TakeWhile
import WhereClause.Proofs.Bounds

/-! Which texts are taken for numbers. Blanks at both ends are left out of account, all of them and
nothing else, and what remains is held against the grammar of numbers. Main statement: a text is
numeric exactly if a number of the grammar is left of it, the plain text of a numeric value is
numeric again, and so is every bound of a range that stands without quotes. -/
namespace WhereClause

namespace Text

/-- Whether `middle` is left of a text when all characters at both ends that satisfy `drop` are
removed. -/
structure IsTrimmed (drop : Char → Bool) (s middle : List Char) : Prop where
  around : ∃ front back, s = front ++ (middle ++ back) ∧ (∀ c ∈ front, drop c = true) ∧
    ∀ c ∈ back, drop c = true
  first : ∀ c ∈ middle.head?, drop c = false
  last : ∀ c ∈ middle.getLast?, drop c = false

section

variable {drop : Char → Bool} {s middle : List Char}

theorem head?_dropWhile (drop : Char → Bool) (s : List Char) :
    ∀ c ∈ (s.dropWhile drop).head?, drop c = false := by
  intro c first
  have stops := List.head?_dropWhile_not drop s
  rw [Option.mem_def.1 first] at stops
  exact stops

theorem isTrimmed_trimEnds (drop : Char → Bool) (s : List Char) :
    IsTrimmed drop s (trimEnds drop s) where
  around := Numeral.exists_trimEnds drop s
  first := by
    intro c first
    refine head?_dropWhile drop s c ?_
    rw [Numeral.dropWhile_eq_trimEnds_append, Option.mem_def, List.head?_append,
      Option.mem_def.1 first]
    rfl
  last := by
    intro c last
    rw [trimEnds, List.getLast?_reverse] at last
    exact head?_dropWhile drop _ c last

theorem IsTrimmed.eq_trimEnds (h : IsTrimmed drop s middle) : trimEnds drop s = middle := by
  obtain ⟨⟨front, back, rfl, before, behind⟩, first, last⟩ := h
  have behind : ∀ c ∈ back.reverse, drop c = true := fun c among =>
    behind c (List.mem_reverse.1 among)
  cases middle with
  | nil =>
    have all : back.dropWhile drop = [] :=
      List.dropWhile_eq_nil_iff.2 fun c among => behind c (List.mem_reverse.2 among)
    rw [trimEnds, List.nil_append, List.dropWhile_append_of_pos before, all]
    rfl
  | cons c rest =>
    have left : (front ++ (c :: rest ++ back)).dropWhile drop = c :: rest ++ back :=
      dropWhile_run before first
    have right : (back.reverse ++ (c :: rest).reverse).dropWhile drop = (c :: rest).reverse :=
      dropWhile_run behind (by rwa [List.head?_reverse])
    rw [trimEnds, left, List.reverse_append, right, List.reverse_reverse]

end

end Text

namespace Numeral

section

variable {s digits rest sign mantissa power : List Char}

theorem IsDigits.head? (h : IsDigits digits) (nonempty : digits ≠ []) (rest : List Char) :
    ∀ c ∈ (digits ++ rest).head?, c.isDigit = true := by
  intro c first
  cases digits with
  | nil => exact absurd rfl nonempty
  | cons digit more =>
    obtain rfl := Option.some.inj first
    exact h _ List.mem_cons_self

theorem IsMantissa.head? (h : IsMantissa mantissa) (rest : List Char) :
    ∀ c ∈ (mantissa ++ rest).head?, c.isDigit = true ∨ c = '.' := by
  intro c first
  cases h with
  | whole nonempty digits => exact Or.inl (digits.head? nonempty rest c first)
  | @point before places _ digits _ =>
    cases before with
    | nil => exact Or.inr (Option.some.inj first).symm
    | cons digit more =>
      obtain rfl := Option.some.inj first
      exact Or.inl (digits _ List.mem_cons_self)

theorem IsPower.head? (h : IsPower power) : ∀ c ∈ power.head?, c = 'e' ∨ c = 'E' := by
  intro c first
  cases h with
  | none => cases first
  | some letter =>
    obtain rfl := Option.some.inj first
    exact letter

theorem dropSign_append (isSign : IsSign sign)
    (unsigned : ∀ c ∈ rest.head?, c.isDigit = true ∨ c = '.') : dropSign (sign ++ rest) = rest := by
  rcases isSign with rfl | rfl | rfl
  · cases rest with
    | nil => rfl
    | cons c more =>
      refine if_neg ?_
      rintro (rfl | rfl)
      · exact absurd (unsigned _ rfl) (by decide)
      · exact absurd (unsigned _ rfl) (by decide)
  · rfl
  · rfl

theorem isExponent_of_isPower (h : IsPower power) : isExponent power = true := by
  cases h with
  | none => rfl
  | @some c sign digits letter isSign nonempty isDigits =>
    have first := isDigits.head? nonempty []
    rw [List.append_nil] at first
    have behind : dropSign (sign ++ digits) = digits :=
      dropSign_append isSign fun c among => Or.inl (first c among)
    rw [isExponent, behind, Bool.and_eq_true, Bool.and_eq_true, Bool.or_eq_true, decide_eq_true_iff,
      decide_eq_true_iff, Bool.not_eq_true', List.isEmpty_eq_false_iff, List.all_eq_true]
    exact ⟨⟨letter, nonempty⟩, isDigits⟩

theorem isUnsigned_append (isMantissa : IsMantissa mantissa) (isPower : IsPower power) :
    isUnsigned (mantissa ++ power) = true := by
  have noDigit : ∀ c ∈ power.head?, c.isDigit = false := by
    intro c first
    rcases isPower.head? c first with rfl | rfl <;> decide
  have exponent := isExponent_of_isPower isPower
  cases isMantissa with
  | whole nonempty digits =>
    have noPoint : fraction power = ([], power) := by
      cases power with
      | nil => rfl
      | cons c rest =>
        refine if_neg ?_
        rcases isPower.head? c rfl with rfl | rfl <;> decide
    rw [isUnsigned, Text.dropWhile_run digits noDigit, Text.takeWhile_run digits noDigit, noPoint]
    dsimp only
    rw [List.append_nil, exponent, List.isEmpty_eq_false_iff.2 nonempty]
    rfl
  | @point before places nonempty digits isDigits =>
    have point : fraction ('.' :: (places ++ power)) = (places, power) := by
      rw [fraction, if_pos rfl, Text.takeWhile_run isDigits noDigit,
        Text.dropWhile_run isDigits noDigit]
    have ends : ∀ c ∈ ('.' :: (places ++ power)).head?, c.isDigit = false := by
      intro c first
      obtain rfl := Option.some.inj first
      rfl
    rw [List.append_assoc, List.cons_append, isUnsigned, Text.dropWhile_run digits ends,
      Text.takeWhile_run digits ends, point]
    dsimp only
    rw [exponent, List.isEmpty_eq_false_iff.2 nonempty]
    rfl

theorem isUnsigned_dropSign_iff : isUnsigned (dropSign s) = true ↔ IsNumber s := by
  refine ⟨isNumber_of_isUnsigned, fun h => ?_⟩
  obtain ⟨isSign, isMantissa, isPower⟩ := h
  rw [dropSign_append isSign (isMantissa.head? _)]
  exact isUnsigned_append isMantissa isPower

theorem isNumeral_iff :
    isNumeral s = true ↔ ∃ middle, Text.IsTrimmed isPadding s middle ∧ IsNumber middle := by
  constructor
  · intro h
    exact ⟨_, Text.isTrimmed_trimEnds isPadding s, isUnsigned_dropSign_iff.1 h⟩
  · rintro ⟨middle, trimmed, isNumber⟩
    rw [isNumeral, trimmed.eq_trimEnds]
    exact isUnsigned_dropSign_iff.2 isNumber

theorem not_isPadding_of_isNumberChar {c : Char} (h : isNumberChar c = true) :
    isPadding c = false := by
  cases padding : isPadding c with
  | false => rfl
  | true =>
    simp only [isPadding, Bool.or_eq_true, decide_eq_true_eq] at padding
    rcases padding with ((((rfl | rfl) | rfl) | rfl) | rfl) | rfl <;> cases h

theorem IsPaddedNumber.isNumeral (h : IsPaddedNumber s) : isNumeral s = true := by
  obtain ⟨front, number, back, split, isNumber, before, behind⟩ := h
  have inside : ∀ c ∈ number, isPadding c = false := fun c among =>
    not_isPadding_of_isNumberChar (isNumber.isNumberChar c among)
  refine isNumeral_iff.2 ⟨number, ⟨⟨front, back, split, before, behind⟩, ?_, ?_⟩, isNumber⟩
  · exact fun c first => inside c (List.mem_of_head? first)
  · exact fun c last => inside c (List.mem_of_getLast? last)

end

end Numeral

theorem Value.isNumeric_display {value : Value} (h : value.isNumeric = true) :
    (Value.text value.display).isNumeric = true :=
  (Numeral.isPaddedNumber_display h).isNumeral

namespace Filter

theorem isNumeric_bound {value : Value} (h : ∀ text, bound value ≠ doubleQuoted text) :
    (Value.text (bound value)).isNumeric = true := by
  cases numeric : value.isNumeric with
  | true =>
    rw [bound_of_isNumeric numeric]
    exact Value.isNumeric_display numeric
  | false =>
    unfold bound at h
    rw [numeric] at h
    cases date : value.dateText? with
    | none =>
      rw [date] at h
      exact absurd rfl (h value.display)
    | some text =>
      rw [date] at h
      exact absurd rfl (h text)

theorem exists_pair_of_accepts {value : Value} (h : accepts (some .between) value = true) :
    ∃ first last, value = .list [first, last] := by
  cases value with
  | list items =>
    match items, h with
    | [first, last], _ => exact ⟨first, last, rfl⟩
  | _ => cases h

theorem exists_bounds_of_between {settings : Settings} {value : Value} {member : String}
    {query : Query} {column low high : String}
    (h : (compileMember settings value member query).result = .ok (.between column low high)) :
    ∃ first last, value = .list [first, last] ∧ low = bound first ∧ high = bound last := by
  obtain ⟨source, taken⟩ := takes_of_compileMember h
  obtain ⟨root, source⟩ := Option.ne_none_iff_exists'.1 source
  rw [compileMember_of_takes source taken] at h
  have written := Except.ok.inj h
  unfold leafIn leaf at written
  rw [takes] at taken
  dsimp only at written
  generalize (Field.ofMember member).operator? = operator? at written taken
  cases operator? with
  | none => cases written
  | some operator =>
    cases operator with
    | between =>
      obtain ⟨first, last, rfl⟩ := exists_pair_of_accepts taken
      cases written
      exact ⟨first, last, rfl, rfl, rfl⟩
    | compare comparison => cases comparison <;> cases written
    | null =>
      dsimp only at written
      split at written <;> cases written
    | is =>
      dsimp only at written
      split at written <;> cases written
    | like | isIn => cases written

end Filter

/-- A text is numeric exactly if a number of the grammar is left of it without the blanks at its
ends. The plain text of a numeric value is numeric, and so is each end of a compiled range that does
not stand between double quotes. -/
theorem Value.isNumeric_exact :
    (∀ s : String, (Value.text s).isNumeric = true ↔
      ∃ middle, Text.IsTrimmed Numeral.isPadding s.toList middle ∧ Numeral.IsNumber middle) ∧
    (∀ value : Value, value.isNumeric = true → (Value.text value.display).isNumeric = true) ∧
    ∀ (settings : Settings) (value : Value) (member : String) (query : Query)
      (column low high : String),
      (Filter.compileMember settings value member query).result = .ok (.between column low high) →
        ∀ bound ∈ [low, high], (∀ text, bound ≠ Filter.doubleQuoted text) →
          (Value.text bound).isNumeric = true := by
  refine ⟨fun s => Numeral.isNumeral_iff, fun value => Value.isNumeric_display, ?_⟩
  intro settings value member query column low high compiled bound among unquoted
  obtain ⟨first, last, -, rfl, rfl⟩ := Filter.exists_bounds_of_between compiled
  rcases List.mem_cons.1 among with rfl | among
  · exact Filter.isNumeric_bound unquoted
  · obtain rfl := List.mem_singleton.1 among
    exact Filter.isNumeric_bound unquoted

theorem Value.isNumeric_exact_padded_bound :
    let query : Query := { roots := [⟨"test", "t"⟩] }
    let value : Value := .list [.text " -.5e+3\t", .text "x"]
    (Filter.compileMember {} value "a__between" query).result =
        .ok (.between "t.a" " -.5e+3\t" "\"x\"") ∧
      (∀ text, " -.5e+3\t" ≠ Filter.doubleQuoted text) ∧
      (Value.text " -.5e+3\t").isNumeric = true ∧
      (∃ middle, Text.IsTrimmed Numeral.isPadding " -.5e+3\t".toList middle ∧
        Numeral.IsNumber middle) ∧
      (Value.int (-7)).isNumeric = true ∧ (Value.text "-7").isNumeric = true ∧
      (Value.text "\u00a07").isNumeric = false := by
  intro query value
  obtain ⟨texts, displays, bounds⟩ := Value.isNumeric_exact
  have compiled : (Filter.compileMember {} value "a__between" query).result =
      .ok (.between "t.a" " -.5e+3\t" "\"x\"") := by
    with_unfolding_all rfl
  have unquoted : ∀ text, " -.5e+3\t" ≠ Filter.doubleQuoted text := by
    intro text same
    have first := congrArg (fun s => s.toList.head?) same
    simp [Filter.doubleQuoted] at first
  have numeric := bounds {} value "a__between" query _ _ _ compiled _ List.mem_cons_self unquoted
  exact ⟨compiled, unquoted, numeric, (texts _).1 numeric, rfl, displays (.int (-7)) rfl,
    by decide +kernel⟩

end WhereClause
