import Mathlib.Tactic.IntervalCases
import WhereClause.Json.Basic
import WhereClause.Proofs.Json.Takes
import WhereClause.Proofs.Numerals

/-! Readers take what the writer wrote, whatever follows it: the digits of a number as long as what
follows does not go on with the number, and the characters of a string up to its closing quote.
Nothing is said about the digits of a double. -/
namespace WhereClause.Json

variable {α : Type}

def endsNumber : List Char → Bool
  | [] => true
  | c :: _ => !c.isDigit && c ≠ '.' && c ≠ 'e' && c ≠ 'E'

def opens : List Char → Bool
  | [] => false
  | c :: _ => !isBlank c && c ≠ ']'

theorem opens_append {s : List Char} (h : opens s = true) (rest : List Char) :
    opens (s ++ rest) = true := by
  cases s with
  | nil => cases h
  | cons c more => exact h

theorem exists_of_opens {s : List Char} (h : opens s = true) :
    ∃ c next, s = c :: next ∧ skipBlanks s = c :: next ∧ c ≠ ']' := by
  cases s with
  | nil => cases h
  | cons c next =>
    simp only [opens, Bool.and_eq_true, Bool.not_eq_true', decide_eq_true_eq] at h
    exact ⟨c, next, rfl, skipBlanks_cons h.1 next, h.2⟩

section Numbers

variable {rest : List Char} {n : Nat}

theorem le_ofDigitChars (digits : List Char) (value : Nat) :
    value ≤ Nat.ofDigitChars 10 digits value := by
  induction digits generalizing value with
  | nil => exact Nat.le_refl value
  | cons c rest ih =>
    rw [Nat.ofDigitChars_cons]
    have later := ih (10 * value + (c.toNat - '0'.toNat))
    omega

theorem takeDigits_append {digits : List Char} {limit value : Nat} (count : Nat)
    (all : ∀ c ∈ digits, c.isDigit = true) (stop : startsWithDigit rest = false)
    (within : Nat.ofDigitChars 10 digits value ≤ limit) :
    (takeDigits limit value count (digits ++ rest)).value =
        (Nat.ofDigitChars 10 digits value, count + digits.length) ∧
      (takeDigits limit value count (digits ++ rest)).rest = rest := by
  induction digits generalizing value count with
  | nil =>
    cases rest with
    | nil => exact ⟨rfl, rfl⟩
    | cons c more =>
      rw [startsWithDigit] at stop
      rw [List.nil_append, takeDigits, stop]
      exact ⟨rfl, rfl⟩
  | cons c digits ih =>
    obtain ⟨isDigit, all⟩ := List.forall_mem_cons.1 all
    have next : 10 * value + (c.toNat - '0'.toNat) = value * 10 + Text.digitValue c := by
      rw [Text.digitValue, Nat.mul_comm]
    rw [Nat.ofDigitChars_cons, next] at within
    have fits := Nat.le_trans (le_ofDigitChars digits _) within
    have taken := ih (count + 1) all within
    rw [List.cons_append, takeDigits, if_pos (by rw [isDigit, decide_eq_true fits]; rfl),
      Nat.ofDigitChars_cons, next, List.length_cons, Nat.add_comm digits.length 1, ← Nat.add_assoc]
    exact taken

theorem toDigits_eq_cons (n : Nat) :
    ∃ c more, Nat.toDigits 10 n = c :: more ∧ c.isDigit = true := by
  obtain ⟨c, more, same⟩ := List.exists_cons_of_ne_nil (Nat.toDigits_ne_nil (b := 10) (n := n))
  exact ⟨c, more, same, Numeral.isDigits_toDigits n c (same ▸ List.mem_cons_self)⟩

theorem ne_zero_of_toDigits_eq_cons {c : Char} {more : List Char} (positive : 0 < n)
    (same : Nat.toDigits 10 n = c :: more) : c ≠ '0' := by
  induction n using Nat.strongRecOn generalizing more with
  | ind n ih =>
    by_cases small : n < 10
    · rw [Nat.toDigits_of_lt_base small] at same
      obtain ⟨rfl, -⟩ := List.cons.inj same
      interval_cases n <;> decide
    · obtain ⟨d, front, front_eq, -⟩ := toDigits_eq_cons (n / 10)
      rw [Nat.toDigits_of_base_le (by omega) (by omega), front_eq] at same
      obtain ⟨rfl, -⟩ := List.cons.inj same
      exact ih (n / 10) (by omega) (by omega) front_eq

theorem startsWithDigit_of_endsNumber (stop : endsNumber rest = true) :
    startsWithDigit rest = false := by
  cases rest with
  | nil => rfl
  | cons c more =>
    simp only [endsNumber, Bool.and_eq_true, Bool.not_eq_true'] at stop
    exact stop.1.1.1

theorem dropDigits_of_not_startsWithDigit (stop : startsWithDigit rest = false) :
    (dropDigits rest).value = 0 ∧ (dropDigits rest).rest = rest := by
  cases rest with
  | nil => exact ⟨rfl, rfl⟩
  | cons c more =>
    have notDigit : ¬c.isDigit = true := Bool.eq_false_iff.1 stop
    exact ⟨by rw [dropDigits, List.takeWhile_cons_of_neg notDigit]; rfl,
      List.dropWhile_cons_of_neg notDigit⟩

theorem takes_tail (negative : Bool) (word : Nat) (stop : endsNumber rest = true) :
    Takes (takeTail negative word 0) rest (integer negative word) rest := by
  cases rest with
  | nil => exact ⟨_, rfl, rfl, rfl⟩
  | cons c more =>
    simp only [endsNumber, Bool.and_eq_true, decide_eq_true_eq] at stop
    obtain ⟨⟨⟨-, noPoint⟩, noSmall⟩, noLarge⟩ := stop
    rw [Takes, takeTail, if_neg noPoint, if_neg (not_or.2 ⟨noSmall, noLarge⟩)]
    exact ⟨_, rfl, rfl, rfl⟩

theorem takes_number_zero (negative : Bool) (stop : endsNumber rest = true) :
    Takes (takeNumber negative) ('0' :: rest) (integer negative 0) rest := by
  have same : takeNumber negative ('0' :: rest) =
      (takeTail negative 0 0 rest).map (.behind '0') := by
    rw [takeNumber, if_pos rfl, startsWithDigit_of_endsNumber stop]
    rfl
  exact takes_of_map (f := id) same (fun _ => rfl) (fun _ => rfl) (takes_tail negative 0 stop)

theorem takes_number_of_tail {negative : Bool} {c : Char} {s : List Char} {document : Json}
    {taken : Taken (Nat × Nat) (c :: s)} (isDigit : c.isDigit = true) (noZero : c ≠ '0')
    (gathered : takeDigits wordLimit 0 0 (c :: s) = taken)
    (h : Takes (takeTail negative taken.value.1 (dropDigits taken.rest).value)
      (dropDigits taken.rest).rest document rest) :
    Takes (takeNumber negative) (c :: s) document rest := by
  have same : takeNumber negative (c :: s) =
      (takeTail negative taken.value.1 (dropDigits taken.rest).value
        (dropDigits taken.rest).rest).map fun tail =>
          taken.after ((dropDigits taken.rest).after tail) := by
    rw [takeNumber, if_neg noZero, if_pos isDigit, ← gathered]
  exact takes_of_map (f := id) same (fun _ => rfl) (fun _ => rfl) h

theorem takes_number (negative : Bool) (within : n ≤ wordLimit) (stop : endsNumber rest = true) :
    Takes (takeNumber negative) (Nat.toDigits 10 n ++ rest) (integer negative n) rest := by
  rcases Nat.eq_zero_or_pos n with rfl | positive
  · exact takes_number_zero negative stop
  · obtain ⟨c, more, digits, isDigit⟩ := toDigits_eq_cons n
    have noDigit := startsWithDigit_of_endsNumber stop
    have read : Nat.ofDigitChars 10 (Nat.toDigits 10 n) 0 = n :=
      Nat.ofDigitChars_toDigits (by omega) (by omega)
    have fits : Nat.ofDigitChars 10 (Nat.toDigits 10 n) 0 ≤ wordLimit := by rwa [read]
    obtain ⟨value, left⟩ := takeDigits_append 0 (Numeral.isDigits_toDigits n) noDigit fits
    obtain ⟨none, same⟩ := dropDigits_of_not_startsWithDigit noDigit
    rw [read, digits, List.cons_append] at value
    rw [digits, List.cons_append] at left ⊢
    refine takes_number_of_tail isDigit (ne_zero_of_toDigits_eq_cons positive digits) rfl ?_
    rw [value, left, none, same]
    exact takes_tail negative n stop

end Numbers

section Strings

variable {s after rest more : List Char} {c d : Char}

theorem takes_characters_close (rest : List Char) : Takes takeCharacters ('"' :: rest) [] rest := by
  rw [Takes, takeCharacters]
  exact ⟨_, if_pos rfl, rfl, rfl⟩

theorem takes_characters_plain (noQuote : c ≠ '"') (noEscape : c ≠ '\\') (shown : ¬c.toNat < 0x20)
    (h : Takes takeCharacters s more rest) : Takes takeCharacters (c :: s) (c :: more) rest := by
  have same : takeCharacters (c :: s) =
      (takeCharacters s).map fun t => (t.map (c :: ·)).behind c := by
    rw [takeCharacters, if_neg noQuote, if_neg noEscape, if_neg shown]
    rfl
  exact takes_of_map same (fun _ => rfl) (fun _ => rfl) h

theorem takes_characters_escape (escape : Takes takeEscape s c after)
    (h : Takes takeCharacters after more rest) :
    Takes takeCharacters ('\\' :: s) (c :: more) rest := by
  obtain ⟨taken, took, rfl, rfl⟩ := escape
  have same : takeCharacters ('\\' :: s) = (takeCharacters taken.rest).map fun t =>
      (taken.after (t.map (taken.value :: ·))).behind '\\' := by
    rw [takeCharacters, if_neg (by decide), if_pos rfl, took]
    rfl
  exact takes_of_map same (fun _ => rfl) (fun _ => rfl) h

theorem takes_escape_of_letter (known : escaped? c = some d) (noCode : c ≠ 'u') (rest : List Char) :
    Takes takeEscape (c :: rest) d rest := by
  rw [Takes, takeEscape, if_neg noCode, known]
  exact ⟨_, rfl, rfl, rfl⟩

theorem takes_coded {code : Nat} (hex : Takes takeHex s code rest)
    (low : ¬(0xDC00 ≤ code ∧ code ≤ 0xDFFF)) (high : ¬(0xD800 ≤ code ∧ code ≤ 0xDBFF)) :
    Takes takeCoded s (Char.ofNat code) rest := by
  obtain ⟨taken, took, rfl, rfl⟩ := hex
  rw [Takes, takeCoded, took]
  simp only [bind, Except.bind]
  rw [if_neg low, if_neg high]
  exact ⟨_, rfl, rfl, rfl⟩

theorem fourHexValue?_digitChar {code : Nat} (h : code < 0x20) :
    fourHexValue? '0' '0' (Nat.digitChar (code / 16)) (Nat.digitChar (code % 16)) = some code := by
  interval_cases code <;> rfl

theorem takes_escape_of_code (h : c.toNat < 0x20) (rest : List Char) :
    Takes takeEscape ('u' :: '0' :: '0' :: Nat.digitChar (c.toNat / 16) ::
      Nat.digitChar (c.toNat % 16) :: rest) c rest := by
  have hex : Takes takeHex ('0' :: '0' :: Nat.digitChar (c.toNat / 16) ::
      Nat.digitChar (c.toNat % 16) :: rest) c.toNat rest := by
    rw [Takes, takeHex, fourHexValue?_digitChar h]
    exact ⟨_, rfl, rfl, rfl⟩
  have coded := takes_coded hex (by omega) (by omega)
  rw [Char.ofNat_toNat] at coded
  have same : ∀ s, takeEscape ('u' :: s) = (takeCoded s).map (.behind 'u') := fun _ => rfl
  exact takes_of_map (f := id) (same _) (fun _ => rfl) (fun _ => rfl) coded

theorem takes_characters_written (c : Char) (h : Takes takeCharacters s more rest) :
    Takes takeCharacters (writtenChar c ++ s) (c :: more) rest := by
  have escaped : ∀ {letter : Char}, escaped? letter = some c → letter ≠ 'u' →
      Takes takeCharacters ('\\' :: letter :: s) (c :: more) rest :=
    fun known noCode => takes_characters_escape (takes_escape_of_letter known noCode s) h
  unfold writtenChar
  split
  · next marked => rcases marked with rfl | rfl <;> exact escaped rfl (by decide)
  next plain =>
    obtain ⟨noQuote, noEscape⟩ := not_or.1 plain
    iterate 5
      split
      · next same => exact escaped (same ▸ rfl) (by decide)
    split
    · next control => exact takes_characters_escape (takes_escape_of_code control s) h
    · next shown => exact takes_characters_plain noQuote noEscape shown h

theorem takes_characters (chars rest : List Char) :
    Takes takeCharacters (chars.flatMap writtenChar ++ '"' :: rest) chars rest := by
  induction chars with
  | nil => exact takes_characters_close rest
  | cons c chars ih =>
    rw [List.flatMap_cons, List.append_assoc]
    exact takes_characters_written c ih

theorem takes_string (text : String) (rest : List Char) :
    Takes takeString (text.toList.flatMap writtenChar ++ '"' :: rest) text rest := by
  have same : ∀ s, takeString s = (takeCharacters s).map (·.map String.ofList) := fun _ => rfl
  have taken := takes_of_map (f := String.ofList) (same _) (fun _ => rfl) (fun _ => rfl)
    (takes_characters text.toList rest)
  rwa [String.ofList_toList] at taken

end Strings

section Scalars

variable {c : Char} {s rest : List Char} {document : Json}

theorem takes_scalar_of_isDigit (isDigit : c.isDigit = true)
    (h : Takes (takeNumber false) (c :: s) document rest) :
    Takes takeScalar (c :: s) document rest := by
  have apart : ∀ letter : Char, letter.isDigit = false → c ≠ letter := by
    rintro letter noDigit rfl
    rw [isDigit] at noDigit
    cases noDigit
  rw [Takes, takeScalar, if_neg (apart 'n' rfl), if_neg (apart 't' rfl), if_neg (apart 'f' rfl),
    if_neg (apart '"' rfl), if_neg (apart '-' rfl), if_pos isDigit]
  exact h

theorem takes_scalar_null (rest : List Char) :
    Takes takeScalar (written .null ++ rest) .null rest :=
  ⟨_, rfl, rfl, rfl⟩

theorem takes_scalar_bool (value : Bool) (rest : List Char) :
    Takes takeScalar (written (.bool value) ++ rest) (.bool value) rest := by
  cases value <;> exact ⟨_, rfl, rfl, rfl⟩

theorem takes_scalar_string (text : String) (rest : List Char) :
    Takes takeScalar (written (.string text) ++ rest) (.string text) rest := by
  have shape : written (.string text) ++ rest =
      '"' :: (text.toList.flatMap writtenChar ++ '"' :: rest) := by
    rw [written, writtenString, List.cons_append, List.cons_append, List.append_assoc,
      List.singleton_append]
  have same : ∀ s, takeScalar ('"' :: s) = (takeString s).map fun t => (t.map string).behind '"' :=
    fun _ => rfl
  rw [shape]
  exact takes_of_map (same _) (fun _ => rfl) (fun _ => rfl) (takes_string text rest)

theorem takes_scalar_int {n : Int} (low : -negativeLimit ≤ n) (high : n ≤ wordLimit)
    (stop : endsNumber rest = true) :
    Takes takeScalar (written (.int n) ++ rest) (.int n) rest := by
  rw [written, Int.toString_eq_repr, Int.repr_eq_if]
  split
  · next natural =>
    obtain ⟨c, more, digits, isDigit⟩ := toDigits_eq_cons n.toNat
    have number := takes_number false (n := n.toNat) (by omega) stop
    have same : integer false n.toNat = .int n := congrArg Json.int (Int.toNat_of_nonneg natural)
    rw [same, digits] at number
    rw [Nat.toList_repr, digits]
    exact takes_scalar_of_isDigit isDigit number
  · next negative =>
    have magnitude : (((-n).toNat : Nat) : Int) = -n := Int.toNat_of_nonneg (by omega)
    have within : (-n).toNat ≤ negativeLimit := by omega
    have number := takes_number true
      (Nat.le_trans within (by decide : negativeLimit ≤ wordLimit)) stop
    have same : integer true (-n).toNat = .int n := by
      rw [integer, if_neg (by decide), if_neg (by omega), magnitude, Int.neg_neg]
    have shape : ("-" ++ (-n).toNat.repr).toList = '-' :: Nat.toDigits 10 (-n).toNat := by
      rw [String.toList_append, Nat.toList_repr]
      rfl
    have handed : ∀ s, takeScalar ('-' :: s) = (takeNumber true s).map (.behind '-') :=
      fun _ => rfl
    rw [same] at number
    rw [shape]
    exact takes_of_map (f := id) (handed _) (fun _ => rfl) (fun _ => rfl) number

theorem start_of_takes_scalar {s rest : List Char} {document : Json}
    (h : Takes takeScalar s document rest) :
    ∃ c next, s = c :: next ∧ isBlank c = false ∧ c ≠ '[' ∧ c ≠ '\x7b' ∧ c ≠ ']' := by
  obtain ⟨taken, took, -, -⟩ := h
  cases s with
  | nil => cases took
  | cons c next =>
    have apart : ∀ d : Char, (∃ fault, takeScalar (d :: next) = .error fault) → c ≠ d := by
      rintro d ⟨fault, fails⟩ rfl
      rw [took] at fails
      cases fails
    have blank : isBlank c = false := by
      simp only [isBlank, Bool.or_eq_false_iff, decide_eq_false_iff_not]
      exact ⟨⟨⟨apart ' ' ⟨_, rfl⟩, apart '\t' ⟨_, rfl⟩⟩, apart '\n' ⟨_, rfl⟩⟩, apart '\r' ⟨_, rfl⟩⟩
    exact ⟨c, next, rfl, blank, apart '[' ⟨_, rfl⟩, apart '\x7b' ⟨_, rfl⟩, apart ']' ⟨_, rfl⟩⟩

theorem takes_value_of_scalar {s rest : List Char} {document : Json} (depth : Nat)
    (h : Takes takeScalar s document rest) : Takes (takeValue depth) s document rest := by
  obtain ⟨c, next, rfl, blank, array, object, -⟩ := start_of_takes_scalar h
  cases depth <;> exact takes_nested_scalar (skipBlanks_cons blank next) array object h

end Scalars

section Arrays

variable {item : Reader Json} {text : α → List Char} {read : α → Json} {items : List α}

theorem writtenItems_eq_map (items : List Json) : writtenItems items = items.map written := by
  induction items with
  | nil => rfl
  | cons item rest ih => rw [writtenItems, ih, List.map_cons]

theorem separated_cons_cons (first second : List Char) (more : List (List Char)) :
    separated (first :: second :: more) = first ++ ',' :: separated (second :: more) := by
  rw [separated, List.intercalate_cons_cons, List.append_assoc, List.singleton_append, ← separated]

theorem opens_separated {first : List Char} (h : opens first = true) (more : List (List Char)) :
    opens (separated (first :: more)) = true := by
  cases more with
  | nil => rwa [separated, List.intercalate_singleton]
  | cons second more =>
    rw [separated_cons_cons]
    exact opens_append h _

theorem takes_items_separated (nonempty : items ≠ [])
    (starts : ∀ a ∈ items, opens (text a) = true)
    (each : ∀ a ∈ items, ∀ rest, endsNumber rest = true →
      Takes item (text a ++ rest) (read a) rest) (rest : List Char) :
    Takes (takeItems item) (separated (items.map text) ++ ']' :: rest) (items.map read) rest := by
  induction items with
  | nil => exact absurd rfl nonempty
  | cons a items ih =>
    obtain ⟨-, starts⟩ := List.forall_mem_cons.1 starts
    obtain ⟨first, others⟩ := List.forall_mem_cons.1 each
    cases items with
    | nil =>
      rw [List.map_singleton, separated, List.intercalate_singleton]
      exact takes_items_last (first _ rfl) (skipBlanks_cons rfl rest)
    | cons b more =>
      have later := ih (List.cons_ne_nil b more) starts others
      have opening := opens_separated (starts b List.mem_cons_self) (more.map text)
      obtain ⟨c, next, same, start, goesOn⟩ := exists_of_opens (opens_append opening (']' :: rest))
      rw [List.map_cons, same] at later
      rw [List.map_cons, List.map_cons, separated_cons_cons, List.append_assoc, List.cons_append]
      exact takes_items_more (first _ rfl) (skipBlanks_cons rfl _) start goesOn later

theorem takes_array_separated (starts : ∀ a ∈ items, opens (text a) = true)
    (each : ∀ a ∈ items, ∀ rest, endsNumber rest = true →
      Takes item (text a ++ rest) (read a) rest) (rest : List Char) :
    Takes (takeArray item) (separated (items.map text) ++ ']' :: rest) (items.map read) rest := by
  cases items with
  | nil => exact takes_array_empty (skipBlanks_cons rfl rest)
  | cons a more =>
    have taken := takes_items_separated (List.cons_ne_nil a more) starts each rest
    have opening := opens_separated (starts a List.mem_cons_self) (more.map text)
    obtain ⟨c, next, same, start, goesOn⟩ := exists_of_opens (opens_append opening (']' :: rest))
    rw [List.map_cons, same] at taken
    rw [List.map_cons, same]
    exact takes_array (same ▸ start) goesOn taken

end Arrays

end WhereClause.Json
