import WhereClause.Predicate
import WhereClause.Proofs.Literals

/-! Lists of literals, read from left to right. A literal is a text in single quotes, in which two
quotes stand for one, or a run of other characters; literals stand with a comma and a blank between
them. Main statement: the list that a condition is written with reads back as its values, one literal
each, and ends where the condition closes it. A reader sees the plain text of a value and whether it
stood in quotes, not its kind. -/
namespace WhereClause

structure Literal where
  text : List Char
  isQuoted : Bool
  deriving DecidableEq

namespace Literal

/-- Takes a quoted text behind its opening quote: the text, and what is left behind its closing
quote. -/
def takeQuoted? : List Char → Option (List Char × List Char)
  | [] => none
  | '\'' :: '\'' :: rest => (takeQuoted? rest).map fun (text, left) => ('\'' :: text, left)
  | '\'' :: rest => some ([], rest)
  | c :: rest => (takeQuoted? rest).map fun (text, left) => (c :: text, left)

def isBare (c : Char) : Bool := c ≠ ',' && Words.isPlain c

def take? : List Char → Option (Literal × List Char)
  | [] => none
  | c :: rest =>
    if c = '\'' then (takeQuoted? rest).map fun (text, left) => (⟨text, true⟩, left)
    else if isBare c then
      some (⟨c :: rest.takeWhile isBare, false⟩, rest.dropWhile isBare)
    else none

section

variable {s text left rest more : List Char}

theorem takeQuoted?_cons {c : Char} (h : c ≠ '\'') (rest : List Char) :
    takeQuoted? (c :: rest) =
      (takeQuoted? rest).map fun (text, left) => (c :: text, left) := by
  rw [takeQuoted?]
  · intro rest quote
    exact absurd quote h
  · exact h

theorem takeQuoted?_close (h : rest.head? ≠ some '\'') :
    takeQuoted? ('\'' :: rest) = some ([], rest) := by
  rw [takeQuoted?]
  rintro more rfl
  exact h rfl

theorem length_lt_of_takeQuoted? (h : takeQuoted? s = some (text, left)) :
    left.length < s.length := by
  fun_induction takeQuoted? s generalizing text left with
  | case1 => cases h
  | case2 rest ih =>
    obtain ⟨⟨inner, behind⟩, taken, same⟩ := Option.map_eq_some_iff.1 h
    obtain ⟨-, rfl⟩ := Prod.mk.inj same
    exact Nat.lt_succ_of_lt (Nat.lt_succ_of_lt (ih taken))
  | case3 rest single =>
    obtain ⟨-, rfl⟩ := Prod.mk.inj (Option.some.inj h)
    exact Nat.lt_succ_self _
  | case4 c rest _ _ ih =>
    obtain ⟨⟨inner, behind⟩, taken, same⟩ := Option.map_eq_some_iff.1 h
    obtain ⟨-, rfl⟩ := Prod.mk.inj same
    exact Nat.lt_succ_of_lt (ih taken)

end

theorem length_lt_of_take? {s left : List Char} {literal : Literal}
    (h : take? s = some (literal, left)) : left.length < s.length := by
  cases s with
  | nil => cases h
  | cons c rest =>
    rw [take?] at h
    split at h
    · obtain ⟨⟨text, behind⟩, taken, same⟩ := Option.map_eq_some_iff.1 h
      obtain ⟨-, rfl⟩ := Prod.mk.inj same
      exact Nat.lt_succ_of_lt (length_lt_of_takeQuoted? taken)
    · split at h
      · obtain ⟨-, rfl⟩ := Prod.mk.inj (Option.some.inj h)
        exact Nat.lt_succ_of_le (List.dropWhile_sublist _).length_le
      · cases h

def takeSome? (s : List Char) : Option (List Literal × List Char) :=
  match _h : take? s with
  | none => none
  | some (literal, ',' :: ' ' :: more) =>
    (takeSome? more).map fun (literals, left) => (literal :: literals, left)
  | some (literal, left) => some ([literal], left)
termination_by s.length
decreasing_by
  have := length_lt_of_take? _h
  simp only [List.length_cons] at this
  omega

/-- Takes a list that ends with the text or before a closing parenthesis. It may be empty. -/
def takeList? : List Char → Option (List Literal × List Char)
  | [] => some ([], [])
  | c :: rest => if c = ')' then some ([], c :: rest) else takeSome? (c :: rest)

section

variable {s left more rest : List Char} {literal : Literal}

theorem takeSome?_more (h : take? s = some (literal, ',' :: ' ' :: more)) :
    takeSome? s = (takeSome? more).map fun (literals, left) => (literal :: literals, left) := by
  rw [takeSome?]
  split <;> simp_all

theorem takeSome?_last (h : take? s = some (literal, left)) (ends : left.head? ≠ some ',') :
    takeSome? s = some ([literal], left) := by
  rw [takeSome?]
  split
  · next none =>
    rw [h] at none
    cases none
  · next other more taken =>
    rw [h] at taken
    obtain ⟨-, rfl⟩ := Prod.mk.inj (Option.some.inj taken)
    exact absurd rfl ends
  · next other behind _ taken =>
    rw [h] at taken
    obtain ⟨rfl, rfl⟩ := Prod.mk.inj (Option.some.inj taken)
    rfl

theorem takeSome?_eq_none (h : take? s = none) : takeSome? s = none := by
  rw [takeSome?]
  split <;> simp_all

theorem takeList?_of_takeSome? {taken : List Literal × List Char} (h : takeSome? s = some taken) :
    takeList? s = some taken := by
  cases s with
  | nil =>
    rw [takeSome?_eq_none rfl] at h
    cases h
  | cons c rest =>
    have noClose : c ≠ ')' := by
      rintro rfl
      rw [takeSome?_eq_none (by rw [take?, if_neg (by decide), if_neg (by decide)])] at h
      cases h
    rw [takeList?, if_neg noClose, h]

theorem takeQuoted?_doubled (text : List Char) (h : rest.head? ≠ some '\'') :
    takeQuoted? ((text.flatMap fun c => if c = '\'' then ['\'', '\''] else [c]) ++ '\'' :: rest) =
      some (text, rest) := by
  induction text with
  | nil => exact takeQuoted?_close h
  | cons c text ih =>
    rw [List.flatMap_cons, List.append_assoc]
    by_cases quote : c = '\''
    · rw [if_pos quote, quote, List.cons_append, List.cons_append, List.nil_append, takeQuoted?, ih]
      rfl
    · rw [if_neg quote, List.singleton_append, takeQuoted?_cons quote, ih]
      rfl

theorem take?_quotedLiteral (text : String) (h : rest.head? ≠ some '\'') :
    take? ((Value.quotedLiteral text).toList ++ rest) = some (⟨text.toList, true⟩, rest) := by
  rw [Value.quotedLiteral, String.toList_ofList,
    Text.replaceAll_singleton Value.quote (c := '\'') rfl, List.append_assoc,
    List.cons_append, take?, if_pos rfl, List.singleton_append, takeQuoted?_doubled _ h]
  rfl

theorem isBare_of_isUnquotedChar {c : Char} (h : Value.isUnquotedChar c = true) :
    isBare c = true := by
  have noComma : c ≠ ',' := by
    rintro rfl
    cases h
  rw [isBare, Words.isPlain_of_isUnquotedChar h, Bool.and_true]
  exact decide_eq_true noComma

/-- Whether a literal can end before a text: nothing, a comma or a closing parenthesis follows. -/
def EndsLiteral (rest : List Char) : Prop := ∀ c ∈ rest.head?, c = ',' ∨ c = ')'

theorem EndsLiteral.not_bare (ends : EndsLiteral rest) : ∀ c ∈ rest.head?, isBare c = false := by
  intro c first
  rcases ends c first with rfl | rfl <;> decide

theorem take?_unquoted {text : List Char} (h : Value.IsUnquotedText text)
    (ends : EndsLiteral rest) : take? (text ++ rest) = some (⟨text, false⟩, rest) := by
  cases text with
  | nil => exact absurd rfl h.1
  | cons c text =>
    obtain ⟨first, later⟩ := List.forall_mem_cons.1 h.2
    have bare : ∀ c ∈ text, isBare c = true := fun c among => isBare_of_isUnquotedChar (later c among)
    have noQuote : c ≠ '\'' := by
      rintro rfl
      cases first
    rw [List.cons_append, take?, if_neg noQuote, if_pos (isBare_of_isUnquotedChar first),
      Text.takeWhile_run bare ends.not_bare, Text.dropWhile_run bare ends.not_bare]

end

end Literal

def Value.asLiteral (value : Value) : Literal := ⟨value.display.toList, !value.isUnquoted⟩

namespace Literal

section

variable {values : List Value} {rest : List Char}

theorem take?_literal (value : Value) (ends : EndsLiteral rest) :
    take? (value.literal.toList ++ rest) = some (value.asLiteral, rest) := by
  cases unquoted : value.isUnquoted with
  | true =>
    rw [Value.literal_of_isUnquoted unquoted, Value.asLiteral, unquoted]
    exact take?_unquoted (Value.isUnquotedText_display unquoted) ends
  | false =>
    have noQuote : rest.head? ≠ some '\'' := fun quote => by
      rcases ends _ quote with comma | closing
      · cases comma
      · cases closing
    rw [Value.literal_of_not_isUnquoted unquoted, Value.asLiteral, unquoted]
    exact take?_quotedLiteral value.display noQuote

def listText (values : List Value) : List Char :=
  [',', ' '].intercalate (values.map fun value => value.literal.toList)

theorem takeSome?_listText (nonempty : values ≠ []) (closed : ∀ c ∈ rest.head?, c = ')') :
    takeSome? (listText values ++ rest) = some (values.map Value.asLiteral, rest) := by
  induction values with
  | nil => exact absurd rfl nonempty
  | cons value more ih =>
    by_cases last : more = []
    · have noComma : rest.head? ≠ some ',' := fun comma => by cases closed _ comma
      rw [last, listText, List.map_singleton, List.intercalate_singleton]
      exact takeSome?_last (take?_literal value fun c first => Or.inr (closed c first)) noComma
    · obtain ⟨second, others, rfl⟩ := List.exists_cons_of_ne_nil last
      have split : listText (value :: second :: others) ++ rest =
          value.literal.toList ++ ',' :: ' ' :: (listText (second :: others) ++ rest) := by
        simp only [listText, List.map_cons, List.intercalate_cons_cons, List.append_assoc]
        rfl
      have announced : EndsLiteral (',' :: ' ' :: (listText (second :: others) ++ rest)) :=
        fun c first => Or.inl (Option.some.inj first).symm
      rw [split, takeSome?_more (take?_literal value announced), ih last]
      rfl

theorem takeList?_listText (values : List Value) (closed : ∀ c ∈ rest.head?, c = ')') :
    takeList? (listText values ++ rest) = some (values.map Value.asLiteral, rest) := by
  by_cases none : values = []
  · rw [none, listText, List.map_nil, List.intercalate_nil, List.nil_append, List.map_nil]
    cases rest with
    | nil => rfl
    | cons c rest => rw [takeList?, if_pos (closed c rfl)]
  · exact takeList?_of_takeSome? (takeSome?_listText none closed)

end

end Literal

namespace Predicate

def behindParenthesis (text : List Char) : List Char := (text.dropWhile (· ≠ '(')).drop 1

/-- What stands between the first parenthesis of a text and its last character. -/
def insideParentheses (text : List Char) : List Char := (behindParenthesis text).dropLast

theorem behindParenthesis_isIn {column : String} (h : '(' ∉ column.toList) (values : List Value) :
    behindParenthesis (isIn column values).text.toList = Literal.listText values ++ [')'] := by
  have written : (isIn column values).text.toList =
      (column.toList ++ " IN ".toList) ++ '(' :: (Literal.listText values ++ [')']) := by
    simp [text, Literal.listText, String.toList_intercalate, Function.comp_def]
  have before : ∀ c ∈ column.toList ++ " IN ".toList, decide (c ≠ '(') = true := by
    intro c among
    rcases List.mem_append.1 among with inColumn | inWord
    · exact decide_eq_true fun same => h (same ▸ inColumn)
    · exact decide_eq_true fun same => absurd (same ▸ inWord) (by decide)
  rw [behindParenthesis, written, List.dropWhile_append_of_pos before,
    List.dropWhile_cons_of_neg (by decide), List.drop_one, List.tail_cons]

/-- Reading the text between the parentheses of a membership gives one literal for each value, in
order, and leaves nothing. From a longer text it takes the same literals, up to the parenthesis that
closes the list. -/
theorem takeList?_text_isIn {column : String} (values : List Value) (h : '(' ∉ column.toList) :
    Literal.takeList? (insideParentheses (isIn column values).text.toList) =
        some (values.map Value.asLiteral, []) ∧
      ∀ more, Literal.takeList? (behindParenthesis (isIn column values).text.toList ++ more) =
        some (values.map Value.asLiteral, ')' :: more) := by
  rw [insideParentheses, behindParenthesis_isIn h, List.dropLast_concat]
  refine ⟨?_, fun more => ?_⟩
  · have whole : Literal.takeList? (Literal.listText values ++ []) =
        some (values.map Value.asLiteral, []) :=
      Literal.takeList?_listText values fun _ first => by cases first
    rwa [List.append_nil] at whole
  · rw [List.append_assoc]
    exact Literal.takeList?_listText values fun c first => (Option.some.inj first).symm

theorem takeList?_text_isIn_quotes :
    let values : List Value :=
      [.text "'", .text "a', 'b", .text "')", .text "", .null, .int (-3), .bool true,
        .list [.int 1, .text "'x"], .text "''"]
    let leaf := isIn "t.a" values
    '(' ∉ "t.a".toList ∧
      leaf.text =
        "t.a IN ('''', 'a'', ''b', ''')', '', '', -3, true, '1, ''x', '''''')" ∧
      Literal.takeList? (insideParentheses leaf.text.toList) =
        some ([⟨"'".toList, true⟩, ⟨"a', 'b".toList, true⟩, ⟨"')".toList, true⟩, ⟨[], true⟩,
          ⟨[], true⟩, ⟨"-3".toList, false⟩, ⟨"true".toList, false⟩, ⟨"1, 'x".toList, true⟩,
          ⟨"''".toList, true⟩], []) := by
  intro values leaf
  have column : '(' ∉ "t.a".toList := by decide
  exact ⟨column, by decide +kernel, (takeList?_text_isIn values column).1.trans rfl⟩

end Predicate

end WhereClause
