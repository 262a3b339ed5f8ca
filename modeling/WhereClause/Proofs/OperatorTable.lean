import WhereClause.Proofs.Columns
import WhereClause.Proofs.Like
import WhereClause.Proofs.NumericTexts

/-! The table of the operators, said of the words and the values as they are: what a member states
on its column and what it binds, and which values it refuses. Main statements: a member takes a
value exactly if the table has a row for both, and then compiles to that row; else it refuses the
value as the table says. -/
namespace WhereClause

theorem Numeral.isPadding_iff {c : Char} :
    isPadding c = true ↔ c ∈ [' ', '\t', '\n', '\r', '\x0b', '\x0c'] := by
  simp [isPadding, or_assoc]

namespace Value

def IsScalar (value : Value) : Prop := ∀ items, value ≠ list items

inductive IsFalsy : Value → Prop
  | null : IsFalsy null
  | bool : IsFalsy (bool false)
  | int : IsFalsy (int 0)
  | float {x : Float} : x == 0 → IsFalsy (float x)
  | text {s : String} : s = "" ∨ s = "0" → IsFalsy (text s)
  | list : IsFalsy (list [])

inductive ReadsAsNumber : Value → Prop
  | int (n : Int64) : ReadsAsNumber (int n)
  | float {x : Float} : x.isFinite = true → ReadsAsNumber (float x)
  | text {s : String} {front number back : List Char} : s.toList = front ++ (number ++ back) →
      Numeral.IsNumber number →
      (∀ c ∈ front ++ back, c ∈ [' ', '\t', '\n', '\r', '\x0b', '\x0c']) → ReadsAsNumber (text s)

inductive IsDated : Value → String → Prop
  | date (day : Date) : IsDated (date day) day.text
  | moment (time : Moment) : IsDated (moment time) time.date.text

variable {value : Value}

theorem isScalar_iff : value.IsScalar ↔ (!value.isList) = true := by
  cases value with
  | list items => exact iff_of_false (fun scalar => scalar items rfl) (fun same => by cases same)
  | _ => exact iff_of_true (fun _ same => by cases same) rfl

theorem exists_list_of_not_isList (h : (!value.isList) = false) : ∃ items, value = list items := by
  cases value with
  | list items => exact ⟨items, rfl⟩
  | _ => cases h

theorem isFalsy_iff : value.IsFalsy ↔ value.holds = false := by
  constructor
  · intro h
    cases h with
    | float zero => simp [holds, bne, zero]
    | text spelled => rcases spelled with rfl | rfl <;> rfl
    | _ => rfl
  · intro h
    cases value with
    | null => exact .null
    | bool value =>
      cases value with
      | false => exact .bool
      | true => cases h
    | int value =>
      obtain rfl : value = 0 := by simpa [holds] using h
      exact .int
    | float value => exact .float (by simpa [holds, bne] using h)
    | text value =>
      refine .text ?_
      by_cases empty : value = ""
      · exact Or.inl empty
      · exact Or.inr (by simpa [holds, empty] using h)
    | date | moment => cases h
    | list items =>
      obtain rfl : items = [] := by simpa [holds] using h
      exact .list

theorem readsAsNumber_iff : value.ReadsAsNumber ↔ value.isNumeric = true := by
  constructor
  · intro h
    cases h with
    | int => rfl
    | float finite => exact finite
    | text split isNumber blank =>
      have padding := fun c among => Numeral.isPadding_iff.2 (blank c among)
      obtain ⟨before, behind⟩ := List.forall_mem_append.1 padding
      exact Numeral.IsPaddedNumber.isNumeral ⟨_, _, _, split, isNumber, before, behind⟩
  · intro h
    cases value with
    | int value => exact .int value
    | float value => exact .float h
    | text value =>
      obtain ⟨front, number, back, split, isNumber, before, behind⟩ :=
        Numeral.isPaddedNumber_of_isNumeral h
      have padding := List.forall_mem_append.2 ⟨before, behind⟩
      exact .text split isNumber fun c among => Numeral.isPadding_iff.1 (padding c among)
    | _ => cases h

theorem isDated_iff {text : String} : value.IsDated text ↔ value.dateText? = some text := by
  constructor
  · intro h
    cases h <;> rfl
  · intro h
    cases value with
    | date day =>
      obtain rfl := Option.some.inj h
      exact .date day
    | moment time =>
      obtain rfl := Option.some.inj h
      exact .moment time
    | _ => cases h

end Value

namespace Operator

def words : List String := ["like", "in", "between", "lt", "lte", "gt", "gte", "null", "is"]

theorem not_mem_words_iff {word : String} : word ∉ words ↔ ofSuffix? word = none := by
  have spelled : words = all.map suffix := rfl
  rw [ofSuffix?_eq_none_iff, spelled, List.mem_map]
  constructor
  · intro unlisted operator same
    exact unlisted ⟨operator, mem_all operator, same⟩
  · rintro unknown ⟨operator, -, same⟩
    exact unknown operator same

end Operator

namespace Field

variable {field : Field} {operator : Operator}

theorem operator?_eq_none_iff :
    field.operator? = none ↔ ∀ word ∈ field.suffix?, word ∉ Operator.words := by
  simp only [Operator.not_mem_words_iff]
  exact Option.bind_eq_none_iff

theorem operator?_eq_some_iff :
    field.operator? = some operator ↔ field.suffix? = some operator.suffix := by
  rw [operator?, Option.bind_eq_some_iff]
  simp only [Operator.ofSuffix?_eq_some_iff]
  constructor
  · rintro ⟨word, suffix, rfl⟩
    exact suffix
  · intro suffix
    exact ⟨_, suffix, rfl⟩

theorem isDotted_iff : field.isDotted = true ↔ '.' ∈ field.path.toList := by
  rw [isDotted, Option.isSome_iff_ne_none, Ne, Key.splitPath?_eq_none_iff, not_not]

end Field

namespace Filter

inductive IsOperand : Value → String → Prop
  | dated {value : Value} {text : String} : value.IsDated text →
      IsOperand value ("\"" ++ text ++ "\"")
  | plain {value : Value} : (∀ text, ¬value.IsDated text) → IsOperand value value.display

inductive IsBound : Value → String → Prop
  | dated {value : Value} {text : String} : value.IsDated text → IsBound value ("\"" ++ text ++ "\"")
  | number {value : Value} : value.ReadsAsNumber → IsBound value value.display
  | quoted {value : Value} : (∀ text, ¬value.IsDated text) → ¬value.ReadsAsNumber →
      IsBound value ("\"" ++ value.display ++ "\"")

/-- The table. A member that has no suffix, or one that is no operator's word, is an equality. -/
inductive IsRow (settings : Settings) (name root member column : String) :
    Field → Value → Predicate → Option (String × Value) → Prop
  | equality {path : String} {suffix? : Option String} {value : Value}
      (plain : ∀ word ∈ suffix?, word ∉ Operator.words) (scalar : value.IsScalar)
      (dotted : '.' ∈ path.toList) :
      IsRow settings name root member column ⟨path, suffix?⟩ value
        (.comparison column "=" (":" ++ name)) (some (name, value))
  | wholeMember {path : String} {suffix? : Option String} {value : Value}
      (plain : ∀ word ∈ suffix?, word ∉ Operator.words) (scalar : value.IsScalar)
      (undotted : '.' ∉ path.toList) :
      IsRow settings name root member column ⟨path, suffix?⟩ value
        (.comparison (root ++ "." ++ member) "=" (":" ++ name)) (some (name, value))
  | like {path text : String} {value : Value} (scalar : value.IsScalar)
      (spelled : text = if settings.escapeLike then String.ofList (Like.escaped value.display.toList)
        else value.display) :
      IsRow settings name root member column ⟨path, some "like"⟩ value
        (.comparison column "LIKE" (":" ++ name)) (some (name, .text ("%" ++ text ++ "%")))
  | order {path word symbol text : String} {value : Value}
      (listed : (word, symbol) ∈ [("lt", "<"), ("lte", "<="), ("gt", ">"), ("gte", ">=")])
      (scalar : value.IsScalar) (operand : IsOperand value text) :
      IsRow settings name root member column ⟨path, some word⟩ value
        (.comparison column symbol text) none
  | inList {path : String} {items : List Value} :
      IsRow settings name root member column ⟨path, some "in"⟩ (.list items) (.isIn column items) none
  | inScalar {path : String} {value : Value} (scalar : value.IsScalar) :
      IsRow settings name root member column ⟨path, some "in"⟩ value (.isIn column [value]) none
  | between {path lowText highText : String} {low high : Value} (lower : IsBound low lowText)
      (upper : IsBound high highText) :
      IsRow settings name root member column ⟨path, some "between"⟩ (.list [low, high])
        (.between column lowText highText) none
  | null {path : String} {value : Value} (truthy : ¬value.IsFalsy) :
      IsRow settings name root member column ⟨path, some "null"⟩ value (.isNull column) none
  | notNull {path : String} {value : Value} (falsy : value.IsFalsy) :
      IsRow settings name root member column ⟨path, some "null"⟩ value (.isNotNull column) none
  | isNull {path : String} :
      IsRow settings name root member column ⟨path, some "is"⟩ .null (.isNull column) none
  | isNullWord {path : String} :
      IsRow settings name root member column ⟨path, some "is"⟩ (.text "null") (.isNull column) none
  | isNotNullWord {path : String} :
      IsRow settings name root member column ⟨path, some "is"⟩ (.text "not_null")
        (.isNotNull column) none

inductive IsRefused : Option String → Value → FilterError → Prop
  | equality {suffix? : Option String} {items : List Value}
      (plain : ∀ word ∈ suffix?, word ∉ Operator.words) :
      IsRefused suffix? (.list items) (.wrongShape none .scalar)
  | list {word : String} {operator : Operator} {items : List Value}
      (listed : (word, operator) ∈ [("like", .like), ("lt", .compare .less),
        ("lte", .compare .lessOrEqual), ("gt", .compare .greater),
        ("gte", .compare .greaterOrEqual)]) :
      IsRefused (some word) (.list items) (.wrongShape (some operator) .scalar)
  | noPair {value : Value} (unpaired : ∀ low high, value ≠ .list [low, high]) :
      IsRefused (some "between") value (.wrongShape (some .between) .pair)
  | noTest {value : Value} (notNull : value ≠ .null) (noWord : value ≠ .text "null")
      (noOtherWord : value ≠ .text "not_null") :
      IsRefused (some "is") value (.invalidIsValue value.display)

section

variable {value : Value} {text : String}

theorem not_isDated_iff : (∀ text, ¬value.IsDated text) ↔ value.dateText? = none := by
  simp only [Value.isDated_iff, Option.eq_none_iff_forall_ne_some, ne_eq]

theorem isOperand_iff : IsOperand value text ↔ comparand value = text := by
  constructor
  · intro h
    cases h with
    | dated dated =>
      rw [comparand, Value.isDated_iff.1 dated]
      rfl
    | plain undated => rw [comparand, not_isDated_iff.1 undated]
  · rintro rfl
    unfold comparand
    cases date : value.dateText? with
    | none => exact .plain (not_isDated_iff.2 date)
    | some text => exact .dated (Value.isDated_iff.2 date)

theorem isBound_iff : IsBound value text ↔ bound value = text := by
  constructor
  · intro h
    cases h with
    | dated dated =>
      rw [bound, Value.isDated_iff.1 dated]
      rfl
    | number number => exact bound_of_isNumeric (Value.readsAsNumber_iff.1 number)
    | quoted undated number =>
      rw [bound, not_isDated_iff.1 undated, if_neg (mt Value.readsAsNumber_iff.2 number)]
      rfl
  · rintro rfl
    unfold bound
    cases date : value.dateText? with
    | some text => exact .dated (Value.isDated_iff.2 date)
    | none =>
      by_cases number : value.isNumeric = true
      · rw [if_pos number]
        exact .number (Value.readsAsNumber_iff.2 number)
      · rw [if_neg number]
        exact .quoted (not_isDated_iff.2 date) (mt Value.readsAsNumber_iff.1 number)

end

section

variable {settings : Settings} {root member : String} {target : Target} {value : Value}
  {predicate : Predicate} {binding? : Option (String × Value)} {error : FilterError}

theorem isRow_of_takes (taken : takes value member = true)
    (plain : '.' ∉ (Field.ofMember member).path.toList → target.aliasName = root) :
    IsRow settings (parameterName settings member) root member target.column (Field.ofMember member)
      value (leaf settings value member target) (Filter.binding? settings value member) := by
  unfold takes at taken
  unfold leaf Filter.binding?
  dsimp only
  generalize Field.ofMember member = field at taken plain ⊢
  obtain ⟨path, suffix?⟩ := field
  cases asked : Field.operator? ⟨path, suffix?⟩ with
  | none =>
    rw [asked] at taken
    have scalar := Value.isScalar_iff.2 taken
    by_cases dotted : '.' ∈ path.toList
    · rw [if_pos (Field.isDotted_iff.2 dotted)]
      exact .equality (Field.operator?_eq_none_iff.1 asked) scalar dotted
    · rw [if_neg (mt Field.isDotted_iff.1 dotted), plain dotted]
      exact .wholeMember (Field.operator?_eq_none_iff.1 asked) scalar dotted
  | some operator =>
    rw [asked] at taken
    obtain rfl : suffix? = some operator.suffix := Field.operator?_eq_some_iff.1 asked
    cases operator with
    | like =>
      rw [pattern_eq]
      exact .like (Value.isScalar_iff.2 taken) rfl
    | isIn =>
      cases value with
      | list items => exact .inList
      | _ => exact .inScalar fun _ same => by cases same
    | between =>
      obtain ⟨low, high, rfl⟩ := exists_pair_of_accepts taken
      exact .between (isBound_iff.2 rfl) (isBound_iff.2 rfl)
    | compare comparison =>
      have scalar := Value.isScalar_iff.2 taken
      cases comparison <;> exact .order (by simp [Operator.suffix]) scalar (isOperand_iff.2 rfl)
    | null =>
      by_cases holds : value.holds = true
      · rw [if_pos holds]
        exact .null (mt Value.isFalsy_iff.1 (by simp [holds]))
      · rw [if_neg holds]
        exact .notNull (Value.isFalsy_iff.2 (Bool.not_eq_true _ ▸ holds))
    | is =>
      cases value with
      | null => exact .isNull
      | text word =>
        simp only [accepts, Bool.or_eq_true, decide_eq_true_eq] at taken
        rcases taken with rfl | rfl
        · exact .isNullWord
        · exact .isNotNullWord
      | _ => cases taken

theorem IsRow.takes
    (row : IsRow settings (parameterName settings member) root member target.column
      (Field.ofMember member) value predicate binding?)
    (plain : '.' ∉ (Field.ofMember member).path.toList → target.aliasName = root) :
    takes value member = true ∧ leaf settings value member target = predicate ∧
      Filter.binding? settings value member = binding? := by
  unfold Filter.takes leaf Filter.binding?
  dsimp only
  generalize Field.ofMember member = field at row plain ⊢
  cases row with
  | equality noWord scalar dotted =>
    rw [Field.operator?_eq_none_iff.2 noWord, if_pos (Field.isDotted_iff.2 dotted)]
    exact ⟨Value.isScalar_iff.1 scalar, rfl, rfl⟩
  | wholeMember noWord scalar undotted =>
    rw [Field.operator?_eq_none_iff.2 noWord, if_neg (mt Field.isDotted_iff.1 undotted), plain undotted]
    exact ⟨Value.isScalar_iff.1 scalar, rfl, rfl⟩
  | like scalar spelled =>
    rw [spelled, ← pattern_eq]
    exact ⟨Value.isScalar_iff.1 scalar, rfl, rfl⟩
  | order listed scalar operand =>
    obtain rfl := isOperand_iff.1 operand
    simp only [List.mem_cons, Prod.mk.injEq, List.not_mem_nil, or_false] at listed
    rcases listed with ⟨rfl, rfl⟩ | ⟨rfl, rfl⟩ | ⟨rfl, rfl⟩ | ⟨rfl, rfl⟩ <;>
      exact ⟨Value.isScalar_iff.1 scalar, rfl, rfl⟩
  | inList => exact ⟨rfl, rfl, rfl⟩
  | inScalar scalar =>
    cases value with
    | list items => exact absurd rfl (scalar items)
    | _ => exact ⟨rfl, rfl, rfl⟩
  | between lower upper =>
    obtain rfl := isBound_iff.1 lower
    obtain rfl := isBound_iff.1 upper
    exact ⟨rfl, rfl, rfl⟩
  | null truthy =>
    have holds : value.holds = true := by simpa using mt Value.isFalsy_iff.2 truthy
    exact ⟨rfl, if_pos holds, rfl⟩
  | notNull falsy =>
    have fails : ¬value.holds = true := by simp [Value.isFalsy_iff.1 falsy]
    exact ⟨rfl, if_neg fails, rfl⟩
  | isNull => exact ⟨rfl, rfl, rfl⟩
  | isNullWord => exact ⟨rfl, rfl, rfl⟩
  | isNotNullWord => exact ⟨rfl, rfl, rfl⟩

theorem isRefused_iff : IsRefused (Field.ofMember member).suffix? value error ↔
    takes value member = false ∧ refusal (Field.ofMember member).operator? value = error := by
  unfold takes
  generalize Field.ofMember member = field
  obtain ⟨path, suffix?⟩ := field
  constructor
  · intro h
    cases h with
    | equality noWord =>
      rw [Field.operator?_eq_none_iff.2 noWord]
      exact ⟨rfl, rfl⟩
    | list listed =>
      simp only [List.mem_cons, Prod.mk.injEq, List.not_mem_nil, or_false] at listed
      rcases listed with ⟨rfl, rfl⟩ | ⟨rfl, rfl⟩ | ⟨rfl, rfl⟩ | ⟨rfl, rfl⟩ | ⟨rfl, rfl⟩ <;>
        exact ⟨rfl, rfl⟩
    | noPair unpaired =>
      refine ⟨Bool.eq_false_iff.2 fun taken => ?_, rfl⟩
      obtain ⟨low, high, rfl⟩ := exists_pair_of_accepts taken
      exact unpaired low high rfl
    | noTest notNull noWord noOtherWord =>
      refine ⟨?_, rfl⟩
      cases value with
      | null => exact absurd rfl notNull
      | text word =>
        have null : word ≠ "null" := fun same => noWord (congrArg Value.text same)
        have other : word ≠ "not_null" := fun same => noOtherWord (congrArg Value.text same)
        change (decide (word = "null") || decide (word = "not_null")) = false
        simp [null, other]
      | _ => rfl
  · rintro ⟨untaken, rfl⟩
    cases asked : Field.operator? ⟨path, suffix?⟩ with
    | none =>
      rw [asked] at untaken
      obtain ⟨items, rfl⟩ := Value.exists_list_of_not_isList untaken
      exact .equality (Field.operator?_eq_none_iff.1 asked)
    | some operator =>
      rw [asked] at untaken
      obtain rfl : suffix? = some operator.suffix := Field.operator?_eq_some_iff.1 asked
      cases operator with
      | like =>
        obtain ⟨items, rfl⟩ := Value.exists_list_of_not_isList untaken
        exact .list (by simp [Operator.suffix])
      | isIn => cases untaken
      | between =>
        refine .noPair fun low high same => ?_
        subst same
        cases untaken
      | compare comparison =>
        obtain ⟨items, rfl⟩ := Value.exists_list_of_not_isList untaken
        cases comparison <;> exact .list (by simp [Operator.suffix])
      | null => cases untaken
      | is =>
        refine .noTest ?_ ?_ ?_ <;>
          · rintro rfl
            cases untaken

end

end Filter

end WhereClause
