import WhereClause.Proofs.Literals
import WhereClause.Proofs.Members

/-! The bounds of a range as literals. A numeric bound is a number without quotes; any other one is
its text between double quotes, with nothing in the text escaped. Main statement: a bound is one
literal that stands for its value exactly if its text has no double quote, and only texts and lists
can have one. The reading is generous and knows both ways to escape a quote; how a database takes a
backslash at the end of a text is not said. -/
namespace WhereClause

/-- What a text between double quotes can be read as. A double quote in it stands behind another one
or behind a backslash; a backslash may stand alone or twice. -/
inductive Unescapes : List Char → List Char → Prop
  | nil : Unescapes [] []
  | plain {c : Char} {body content : List Char} : c ≠ '"' → Unescapes body content →
      Unescapes (c :: body) (c :: content)
  | doubled {body content : List Char} : Unescapes body content →
      Unescapes ('"' :: '"' :: body) ('"' :: content)
  | backslashed {c : Char} {body content : List Char} : c = '"' ∨ c = '\\' →
      Unescapes body content → Unescapes ('\\' :: c :: body) (c :: content)

section

variable {body content : List Char}

theorem Unescapes.length_le (h : Unescapes body content) :
    content.length ≤ body.length ∧ (content.length = body.length → '"' ∉ body) := by
  induction h with
  | nil => exact ⟨Nat.le_refl _, fun _ => List.not_mem_nil⟩
  | plain noQuote _ ih =>
    obtain ⟨shorter, same⟩ := ih
    simp only [List.length_cons, List.mem_cons, not_or]
    exact ⟨by omega, fun equal => ⟨Ne.symm noQuote, same (by omega)⟩⟩
  | doubled _ ih =>
    have shorter := ih.1
    simp only [List.length_cons]
    exact ⟨by omega, fun equal => by omega⟩
  | backslashed _ _ ih =>
    have shorter := ih.1
    simp only [List.length_cons]
    exact ⟨by omega, fun equal => by omega⟩

theorem unescapes_of_no_quote (h : '"' ∉ content) : Unescapes content content := by
  induction content with
  | nil => exact .nil
  | cons c rest ih =>
    obtain ⟨here, later⟩ := not_or.1 (fun among => h (List.mem_cons.2 among))
    exact .plain (Ne.symm here) (ih later)

theorem unescapes_self_iff : Unescapes content content ↔ '"' ∉ content :=
  ⟨fun h => h.length_le.2 rfl, unescapes_of_no_quote⟩

end

namespace Numeral

theorem IsDigits.no_quote {s : List Char} (h : IsDigits s) : '"' ∉ s := fun among => by
  cases h _ among

theorem IsPaddedNumber.no_quote {s : List Char} (h : IsPaddedNumber s) : '"' ∉ s := by
  obtain ⟨front, number, back, rfl, isNumber, before, behind⟩ := h
  simp only [List.mem_append]
  rintro (among | among | among)
  · cases before _ among
  · cases isNumber.isNumberChar _ among
  · cases behind _ among

end Numeral

namespace Filter

def boundText (value : Value) : List Char := (value.dateText?.getD value.display).toList

/-- Whether a text is one literal that stands for a value as a bound: a number without quotes if the
value is numeric, and else a text between double quotes that can be read as that of the value. -/
inductive IsLiteralOf (value : Value) : List Char → Prop
  | number : value.isNumeric = true → Numeral.IsPaddedNumber value.display.toList →
      IsLiteralOf value value.display.toList
  | quoted {body : List Char} : value.isNumeric = false → Unescapes body (boundText value) →
      IsLiteralOf value ('"' :: (body ++ ['"']))

section

variable {value : Value}

theorem dateText?_of_isNumeric (h : value.isNumeric = true) : value.dateText? = none := by
  cases value with
  | date | moment => cases h
  | _ => rfl

theorem bound_of_isNumeric (h : value.isNumeric = true) : bound value = value.display := by
  rw [bound, dateText?_of_isNumeric h, h]
  rfl

theorem boundText_of_isNumeric (h : value.isNumeric = true) :
    boundText value = value.display.toList := by
  rw [boundText, dateText?_of_isNumeric h]
  rfl

theorem toList_bound_of_not_isNumeric (h : value.isNumeric = false) :
    (bound value).toList = '"' :: (boundText value ++ ['"']) := by
  rw [bound, boundText, h]
  cases value.dateText? <;> simp [doubleQuoted]

theorem isLiteralOf_bound_iff (value : Value) :
    IsLiteralOf value (bound value).toList ↔ '"' ∉ boundText value := by
  cases numeric : value.isNumeric with
  | true =>
    have number := Numeral.isPaddedNumber_display numeric
    rw [bound_of_isNumeric numeric, boundText_of_isNumeric numeric]
    exact ⟨fun _ => number.no_quote, fun _ => .number numeric number⟩
  | false =>
    rw [toList_bound_of_not_isNumeric numeric, ← unescapes_self_iff]
    refine ⟨fun h => ?_, fun h => .quoted numeric h⟩
    generalize written : '"' :: (boundText value ++ ['"']) = text at h
    cases h with
    | number isNumeric =>
      rw [numeric] at isNumeric
      cases isNumeric
    | quoted _ reads =>
      have same := List.append_cancel_right (List.cons.inj written).2
      rwa [← same] at reads

theorem no_quote_dateText (date : Date) : '"' ∉ Calendar.dateText date := by
  have padded : ∀ width n, '"' ∉ Calendar.padded width n := by
    intro width n among
    rcases List.mem_append.1 among with zero | digit
    · cases List.eq_of_mem_replicate zero
    · exact (Numeral.isDigits_toDigits n).no_quote digit
  have year : '"' ∉ Calendar.yearText date.year := by
    unfold Calendar.yearText
    dsimp only
    split
    · exact List.not_mem_cons_of_ne_of_not_mem (by decide) (padded _ _)
    · split
      · exact List.not_mem_cons_of_ne_of_not_mem (by decide) (padded _ _)
      · exact padded _ _
  simp only [Calendar.dateText, List.mem_append, List.mem_cons, not_or]
  exact ⟨⟨year, by decide, padded _ _⟩, by decide, padded _ _⟩

theorem isText_or_isList_of_quote (h : '"' ∈ boundText value) :
    (∃ text, value = .text text) ∨ value.isList = true := by
  have unquoted : value.isUnquoted = true → '"' ∉ value.display.toList := fun isUnquoted among => by
    cases (Value.isUnquotedText_display isUnquoted).2 _ among
  cases value with
  | text value => exact Or.inl ⟨value, rfl⟩
  | list => exact Or.inr rfl
  | null => exact absurd h List.not_mem_nil
  | bool | int | float => exact absurd h (unquoted rfl)
  | date value =>
    rw [boundText, Value.dateText?, Option.getD_some, Date.text, String.toList_ofList] at h
    exact absurd h (no_quote_dateText value)
  | moment value =>
    rw [boundText, Value.dateText?, Option.getD_some, Date.text, String.toList_ofList] at h
    exact absurd h (no_quote_dateText value.date)

end

variable {query : Query} {root member : String}

/-- A range of two values always compiles, and each bound is one literal of its value exactly if the
text of the value has no double quote. -/
theorem isLiteralOf_bounds_iff (settings : Settings) (low high : Value)
    (source : query.rootAlias? = some root)
    (range : (Field.ofMember member).operator? = some .between) :
    ∃ column, (compileMember settings (.list [low, high]) member query).result =
        .ok (.between column (bound low) (bound high)) ∧
      ∀ value ∈ [low, high], (IsLiteralOf value (bound value).toList ↔ '"' ∉ boundText value) ∧
        ('"' ∈ boundText value → (∃ text, value = .text text) ∨ value.isList = true) := by
  have taken : takes (.list [low, high]) member = true := by
    rw [takes, range]
    rfl
  have written : leafIn settings (.list [low, high]) query root member =
      .between (query.target root (Field.ofMember member).path).column (bound low) (bound high) := by
    rw [leafIn, leaf, range]
  refine ⟨_, by rw [compileMember_of_takes source taken, written], fun value _ => ?_⟩
  exact ⟨isLiteralOf_bound_iff value, isText_or_isList_of_quote⟩

theorem isLiteralOf_bounds_iff_early_quote :
    let query : Query := { roots := [⟨"test", "t"⟩] }
    let low : Value := .text "x\" OR \"y"
    let high : Value := .text " -.5e+3\t"
    query.rootAlias? = some "t" ∧
      (Field.ofMember "a__between").operator? = some .between ∧
      bound low = "\"x\" OR \"y\"" ∧ ¬IsLiteralOf low (bound low).toList ∧
      bound high = " -.5e+3\t" ∧ IsLiteralOf high (bound high).toList := by
  intro query low high
  have source : query.rootAlias? = some "t" := rfl
  have range : (Field.ofMember "a__between").operator? = some .between := by decide +kernel
  obtain ⟨column, -, literals⟩ := isLiteralOf_bounds_iff .default low high source range
  have lower := (literals low (by simp)).1
  have upper := (literals high (by simp)).1
  exact ⟨source, range, by decide +kernel, fun literal => lower.1 literal (by decide +kernel),
    by decide +kernel, upper.2 (by decide +kernel)⟩

end Filter

end WhereClause
