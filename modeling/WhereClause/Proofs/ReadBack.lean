import WhereClause.Proofs.Literals
import WhereClause.Proofs.Phrases

/-! Reading the text of a condition gives the condition back, up to groups of one part, which leave
no trace in the text. Whether a part is put in parentheses is decided on its text, so what has to be
shown is that a text left without them has no connective that a reader would cut at. -/
namespace WhereClause

namespace Predicate

mutual

/-- What the text of a condition should say: a group of one part says what the part does. -/
def outline : Predicate → Reading
  | group connective parts =>
    match outlines parts with
    | [only] => only
    | several => .group connective several
  | leaf => .leaf leaf.text

def outlines : List Predicate → List Reading
  | [] => []
  | part :: rest => part.outline :: outlines rest

end

open Words Reading

/-- A nonempty text without blanks, quotes and parentheses that is no connective in any case. -/
structure IsBare (text : String) : Prop where
  nonempty : text ≠ ""
  plain : text.toList.all isPlain = true
  notAnd : Text.raised text ≠ "AND"
  notOr : Text.raised text ≠ "OR"

instance (text : String) : Decidable (IsBare text) :=
  decidable_of_iff
    (text ≠ "" ∧ text.toList.all isPlain = true ∧ Text.raised text ≠ "AND" ∧
      Text.raised text ≠ "OR")
    ⟨fun ⟨nonempty, plain, notAnd, notOr⟩ => ⟨nonempty, plain, notAnd, notOr⟩,
      fun h => ⟨h.nonempty, h.plain, h.notAnd, h.notOr⟩⟩

inductive IsOperand : String → Prop
  | bare {text : String} (h : IsBare text) : IsOperand text
  | quoted {inner : String} (h : '"' ∉ inner.toList) : IsOperand ("\"" ++ inner ++ "\"")

/-- Conditions on bare columns without empty groups. The lists hold any values. -/
inductive Readable : Predicate → Prop
  | comparison {left symbol right : String} (bare : IsBare left)
      (known : symbol ∈ ["=", "LIKE", "<", "<=", ">", ">="]) (operand : IsOperand right) :
      Readable (.comparison left symbol right)
  | isIn {column : String} {values : List Value} (bare : IsBare column) :
      Readable (.isIn column values)
  | between {column low high : String} (bare : IsBare column) (lower : IsOperand low)
      (upper : IsOperand high) : Readable (.between column low high)
  | isNull {column : String} (bare : IsBare column) : Readable (.isNull column)
  | isNotNull {column : String} (bare : IsBare column) : Readable (.isNotNull column)
  | group {connective : Connective} {parts : List Predicate} (nonempty : parts ≠ [])
      (all : ∀ part ∈ parts, Readable part) : Readable (.group connective parts)

structure IsWord (text : List Char) : Prop where
  balanced : Balanced 0 text
  ordinary : IsOrdinary text

theorem IsBare.isWord {text : String} (h : IsBare text) : IsWord text.toList where
  balanced := balanced_plain (List.all_eq_true.1 h.plain)
  ordinary := by
    intro connective same
    have whole : text = String.ofList connective.word := by rw [← same, String.ofList_toList]
    cases connective with
    | and => exact h.notAnd (by rw [whole]; decide +kernel)
    | or => exact h.notOr (by rw [whole]; decide +kernel)

theorem IsOperand.isWord {text : String} (h : IsOperand text) : IsWord text.toList := by
  cases h with
  | bare h => exact h.isWord
  | @quoted inner h =>
    have quoted : ("\"" ++ inner ++ "\"").toList = '"' :: (inner.toList ++ ['"']) := by
      rw [String.toList_append, String.toList_append]
      rfl
    have other : ∀ c ∈ inner.toList, c ≠ '"' := fun c among same => h (same ▸ among)
    rw [quoted]
    refine ⟨balanced_quoted (Or.inr rfl) fun depth => ?_, ?_⟩
    · rw [← List.flatMap_singleton' inner.toList]
      exact passes_flatMap fun c among => passes_in_quote (other c among)
    · exact isOrdinary_cons _ (by decide) (by decide)

theorem isPhrase_of_words {words : List (List Char)} (several : 1 < words.length)
    (h : ∀ word ∈ words, IsWord word) (complete : awaitsBound words = false) :
    IsPhrase (join words) ∧ 1 < (ofText (join words)).length := by
  have nonempty : words ≠ [] := List.length_pos_iff.1 (by omega)
  have balanced : ∀ word ∈ words, Balanced 0 word := fun word among => (h word among).balanced
  have ordinary : ∀ word ∈ words, IsOrdinary word := fun word among => (h word among).ordinary
  rw [ofText_join nonempty balanced]
  exact ⟨isPhrase_join nonempty balanced (isPart_of_isOrdinary ordinary complete), several⟩

theorem isWord_plain {text : List Char}
    (h : text.all isPlain = true ∧ text ≠ Connective.and.word ∧ text ≠ Connective.or.word) :
    IsWord text where
  balanced := balanced_plain (List.all_eq_true.1 h.1)
  ordinary := by
    intro connective
    cases connective with
    | and => exact h.2.1
    | or => exact h.2.2

/-- Whether a condition reads back. Its text can stand as a part when nothing makes it be put in
parentheses. -/
structure ReadsBack (predicate : Predicate) : Prop where
  balanced : ∀ word ∈ ofText predicate.text.toList, Balanced 0 word
  reads : readFrom predicate.text.toList = some predicate.outline
  isPart : predicate.isCompound = false → mentionsConnective predicate.text = false →
    IsPart (ofText predicate.text.toList)

theorem readsBack_of_isPhrase {predicate : Predicate}
    (leaf : predicate.outline = .leaf predicate.text) (phrase : IsPhrase predicate.text.toList)
    (several : 1 < (ofText predicate.text.toList).length) : ReadsBack predicate where
  balanced := phrase.balanced
  reads := by rw [phrase.readFrom several, leaf, String.ofList_toList]
  isPart := fun _ _ => phrase.isPart

theorem readsBack_of_words {predicate : Predicate} {words : List (List Char)}
    (leaf : predicate.outline = .leaf predicate.text) (written : predicate.text.toList = join words)
    (several : 1 < words.length) (h : ∀ word ∈ words, IsWord word)
    (complete : awaitsBound words = false) : ReadsBack predicate := by
  obtain ⟨phrase, count⟩ := isPhrase_of_words several h complete
  rw [← written] at phrase count
  exact readsBack_of_isPhrase leaf phrase count

theorem readsBack_comparison {left symbol right : String} (bare : IsBare left)
    (known : symbol ∈ ["=", "LIKE", "<", "<=", ">", ">="]) (operand : IsOperand right) :
    ReadsBack (.comparison left symbol right) := by
  have written : (comparison left symbol right).text.toList =
      join [left.toList, symbol.toList, right.toList] := by
    simp [text, join, List.intercalate_cons_cons]
  have isSymbol : IsWord symbol.toList ∧ symbol.toList ≠ "BETWEEN".toList := by
    simp only [List.mem_cons, List.not_mem_nil, or_false] at known
    rcases known with rfl | rfl | rfl | rfl | rfl | rfl <;>
      exact ⟨isWord_plain (by decide), by decide⟩
  refine readsBack_of_words (by rfl) written (by simp) ?_ ?_
  · simp only [List.forall_mem_cons]
    exact ⟨bare.isWord, isSymbol.1, operand.isWord, List.forall_mem_nil _⟩
  · exact decide_eq_false isSymbol.2

theorem readsBack_isIn {column : String} (values : List Value) (bare : IsBare column) :
    ReadsBack (.isIn column values) := by
  have written : (isIn column values).text.toList =
      join [column.toList, "IN".toList,
        '(' :: ([',', ' '].intercalate (values.map fun value => value.literal.toList) ++ [')'])] := by
    simp [text, join, List.intercalate_cons_cons, String.toList_intercalate, Function.comp_def]
  have comma : Balanced 0 [','] := balanced_plain (List.all_eq_true.1 (by decide))
  have separator : Balanced 1 [',', ' '] := (comma.mono (by omega)).append balanced_blank
  have literals : Balanced 1
      ([',', ' '].intercalate (values.map fun value => value.literal.toList)) := by
    refine balanced_intercalate separator fun literal among => ?_
    obtain ⟨value, -, rfl⟩ := List.mem_map.1 among
    exact (balanced_literal value).mono (by omega)
  refine readsBack_of_words (by rfl) written (by simp) ?_ rfl
  simp only [List.forall_mem_cons]
  refine ⟨bare.isWord, isWord_plain (by decide), ?_, List.forall_mem_nil _⟩
  exact ⟨balanced_parenthesised literals, isOrdinary_cons _ (by decide) (by decide)⟩

theorem readsBack_isNull {column : String} (bare : IsBare column) :
    ReadsBack (.isNull column) := by
  have written : (isNull column).text.toList =
      join [column.toList, "IS".toList, "NULL".toList] := by
    simp [text, join, List.intercalate_cons_cons]
  refine readsBack_of_words (by rfl) written (by simp) ?_ rfl
  simp only [List.forall_mem_cons]
  exact ⟨bare.isWord, isWord_plain (by decide), isWord_plain (by decide), List.forall_mem_nil _⟩

theorem readsBack_isNotNull {column : String} (bare : IsBare column) :
    ReadsBack (.isNotNull column) := by
  have written : (isNotNull column).text.toList =
      join [column.toList, "IS".toList, "NOT".toList, "NULL".toList] := by
    simp [text, join, List.intercalate_cons_cons]
  refine readsBack_of_words (by rfl) written (by simp) ?_ rfl
  simp only [List.forall_mem_cons]
  exact ⟨bare.isWord, isWord_plain (by decide), isWord_plain (by decide),
    isWord_plain (by decide), List.forall_mem_nil _⟩

theorem readsBack_between {column low high : String} (bare : IsBare column)
    (lower : IsOperand low) (upper : IsOperand high) : ReadsBack (.between column low high) := by
  have written : (between column low high).text.toList =
      join [column.toList, "BETWEEN".toList, low.toList, Connective.and.word, high.toList] := by
    simp [text, join, List.intercalate_cons_cons, Connective.word]
  have balanced : ∀ word ∈ [column.toList, "BETWEEN".toList, low.toList, Connective.and.word,
      high.toList], Balanced 0 word := by
    simp only [List.forall_mem_cons]
    exact ⟨bare.isWord.balanced, (isWord_plain (by decide)).balanced, lower.isWord.balanced,
      balanced_word .and, upper.isWord.balanced, List.forall_mem_nil _⟩
  have isPart := isPart_between bare.isWord.ordinary lower.isWord.ordinary upper.isWord.ordinary
  have phrase := isPhrase_join (List.cons_ne_nil _ _) balanced isPart
  refine readsBack_of_isPhrase (by rfl) (written ▸ phrase) ?_
  rw [written, ofText_join (List.cons_ne_nil _ _) balanced]
  simp

theorem texts_eq_map (parts : List Predicate) : texts parts = parts.map text := by
  induction parts with
  | nil => rfl
  | cons part rest ih => rw [texts, ih, List.map_cons]

theorem outlines_eq_map (parts : List Predicate) : outlines parts = parts.map outline := by
  induction parts with
  | nil => rfl
  | cons part rest ih => rw [outlines, ih, List.map_cons]

def partText (part : Predicate) : List Char := (enclose part part.text).toList

theorem exists_two {parts : List Predicate} (several : 1 < parts.length) :
    ∃ first second more, parts = first :: second :: more := by
  rcases parts with _ | ⟨first, _ | ⟨second, more⟩⟩
  · simp at several
  · simp at several
  · exact ⟨first, second, more, rfl⟩

theorem toList_text_group (connective : Connective) {parts : List Predicate}
    (several : 1 < parts.length) :
    (group connective parts).text.toList =
      connective.separator.toList.intercalate (parts.map partText) := by
  obtain ⟨first, second, more, rfl⟩ := exists_two several
  have enclosed : ∀ parts : List Predicate,
      (parts.zipWith enclose (texts parts)).map String.toList = parts.map partText := by
    intro parts
    rw [texts_eq_map, List.zipWith_map_right, List.zipWith_self, List.map_map]
    rfl
  rw [← enclosed, ← String.toList_intercalate, text, texts, texts, joinTexts]
  simp

theorem outline_group (connective : Connective) {parts : List Predicate}
    (several : 1 < parts.length) :
    (group connective parts).outline = .group connective (parts.map outline) := by
  rw [outline, outlines_eq_map]
  split
  · next only one =>
    have count := congrArg List.length one
    simp only [List.length_map, List.length_singleton] at count
    omega
  · rfl

theorem mentionsConnective_group (connective : Connective) {parts : List Predicate}
    (several : 1 < parts.length) :
    mentionsConnective (group connective parts).text = true := by
  have raised : (Text.raised (group connective parts).text).toList =
      (connective.separator.toList.intercalate (parts.map partText)).map Char.toUpper := by
    rw [Text.raised, String.toList_map, toList_text_group connective several]
  have within : connective.separator.toList <:+:
      (Text.raised (group connective parts).text).toList := by
    obtain ⟨first, second, more, rfl⟩ := exists_two several
    have capitals : connective.separator.toList =
        connective.separator.toList.map Char.toUpper := by
      cases connective <;> decide
    rw [raised, List.map_cons, List.map_cons, List.intercalate_cons_cons, List.map_append,
      List.map_append, ← capitals]
    exact List.infix_append _ _ _
  rw [mentionsConnective, Bool.or_eq_true, Text.occurs_iff, Text.occurs_iff]
  cases connective with
  | and => exact Or.inr within
  | or => exact Or.inl within

theorem isPhrase_partText {part : Predicate} (h : ReadsBack part) :
    IsPhrase part.partText ∧ readFrom part.partText = some part.outline := by
  unfold partText enclose
  split
  · have enclosed : ("(" ++ part.text ++ ")").toList = '(' :: (part.text.toList ++ [')']) := by
      simp
    obtain ⟨phrase, same⟩ := isPhrase_parenthesised (balanced_of_words h.balanced)
    rw [enclosed, same]
    exact ⟨phrase, h.reads⟩
  · next bare =>
    simp only [Bool.or_eq_true, not_or, Bool.not_eq_true] at bare
    exact ⟨⟨h.balanced, h.isPart bare.1 bare.2⟩, h.reads⟩

theorem text_singleton (connective : Connective) (part : Predicate) :
    (group connective [part]).text = part.text := by
  rw [text, texts, texts, joinTexts]

theorem readsBack_singleton {connective : Connective} {part : Predicate} (h : ReadsBack part) :
    ReadsBack (.group connective [part]) := by
  have text_eq := text_singleton connective part
  have outline_eq : (group connective [part]).outline = part.outline := by
    rw [outline, outlines, outlines]
  refine ⟨?_, ?_, fun _ unmentioned => ?_⟩
  · rw [text_eq]
    exact h.balanced
  · rw [text_eq, outline_eq]
    exact h.reads
  · rw [text_eq] at unmentioned ⊢
    refine h.isPart ?_ unmentioned
    cases part with
    | group connective parts =>
      refine decide_eq_false fun several => ?_
      rw [mentionsConnective_group connective several] at unmentioned
      cases unmentioned
    | _ => rfl

theorem mapM_eq_some {α β : Type} {items : List α} {f : α → Option β} {g : α → β}
    (h : ∀ item ∈ items, f item = some (g item)) : items.mapM f = some (items.map g) := by
  induction items with
  | nil => rfl
  | cons item rest ih =>
    obtain ⟨first, later⟩ := List.forall_mem_cons.1 h
    rw [List.mapM_cons, first, ih later]
    rfl

theorem readsBack_several {connective : Connective} {parts : List Predicate}
    (several : 1 < parts.length) (h : ∀ part ∈ parts, ReadsBack part) :
    ReadsBack (.group connective parts) := by
  have written := toList_text_group connective several
  have phrases : ∀ phrase ∈ parts.map partText, IsPhrase phrase := by
    intro phrase among
    obtain ⟨part, inParts, rfl⟩ := List.mem_map.1 among
    exact (isPhrase_partText (h part inParts)).1
  have count : 1 < (parts.map partText).length := by rwa [List.length_map]
  have readings : (parts.map partText).mapM readFrom = some (parts.map outline) := by
    rw [List.mapM_map]
    exact mapM_eq_some fun part inParts => (isPhrase_partText (h part inParts)).2
  refine ⟨?_, ?_, fun simple => ?_⟩
  · rw [written]
    exact balanced_of_phrases (List.length_pos_iff.1 (by omega)) phrases
  · rw [written, readFrom_intercalate count phrases, readings, outline_group connective several]
    rfl
  · exact absurd several (by simpa [isCompound] using simple)

theorem readsBack_of_readable {predicate : Predicate} (h : Readable predicate) :
    ReadsBack predicate := by
  induction h with
  | comparison bare known operand => exact readsBack_comparison bare known operand
  | isIn bare => exact readsBack_isIn _ bare
  | between bare lower upper => exact readsBack_between bare lower upper
  | isNull bare => exact readsBack_isNull bare
  | isNotNull bare => exact readsBack_isNotNull bare
  | @group connective parts nonempty _ ih =>
    obtain ⟨part, rest, rfl⟩ := List.exists_cons_of_ne_nil nonempty
    cases rest with
    | nil => exact readsBack_singleton (ih part List.mem_cons_self)
    | cons second more => exact readsBack_several (by simp) ih

/-- Reading the text of a condition gives its outline: its groups, without those of one part, down
to the texts of its leaves. -/
theorem read_text {predicate : Predicate} (h : Readable predicate) :
    read predicate.text = some predicate.outline :=
  (readsBack_of_readable h).reads

theorem read_text_wrapped_group :
    let wrapped : Predicate :=
      .group .or [.group .and [.group .or [.comparison "t.a" "=" ":p", .isNull "t.b"]]]
    let predicate : Predicate :=
      .group .and [wrapped, .between "t.n" "\"1 OR 2\"" "9",
        .isIn "t.s" [.text "x') OR (' AND ", .int (-3), .null], .group .or [.between "t.m" "1" "2"]]
    Readable predicate ∧
      predicate.text = "(t.a = :p OR t.b IS NULL) AND (t.n BETWEEN \"1 OR 2\" AND 9) AND " ++
        "(t.s IN ('x'') OR ('' AND ', -3, '')) AND (t.m BETWEEN 1 AND 2)" ∧
      read predicate.text =
        some (.group .and [.group .or [.leaf "t.a = :p", .leaf "t.b IS NULL"],
          .leaf "t.n BETWEEN \"1 OR 2\" AND 9", .leaf "t.s IN ('x'') OR ('' AND ', -3, '')",
          .leaf "t.m BETWEEN 1 AND 2"]) := by
  intro wrapped predicate
  have bare : ∀ text ∈ ["t.a", ":p", "t.b", "t.n", "9", "t.s", "t.m", "1", "2"], IsBare text := by
    decide +kernel
  have quoted : IsOperand "\"1 OR 2\"" := @IsOperand.quoted "1 OR 2" (by decide)
  have alternatives : ∀ part ∈ [Predicate.comparison "t.a" "=" ":p", .isNull "t.b"],
      Readable part := by
    simp only [List.forall_mem_cons]
    exact ⟨.comparison (bare "t.a" (by simp)) (by simp) (.bare (bare ":p" (by simp))),
      .isNull (bare "t.b" (by simp)), List.forall_mem_nil _⟩
  have single : ∀ {connective : Connective} {part : Predicate}, Readable part →
      Readable (.group connective [part]) := fun h =>
    .group (List.cons_ne_nil _ _) (List.forall_mem_singleton.2 h)
  have readable : Readable predicate := by
    refine .group (List.cons_ne_nil _ _) ?_
    simp only [List.forall_mem_cons]
    exact ⟨single (single (.group (List.cons_ne_nil _ _) alternatives)),
      .between (bare "t.n" (by simp)) quoted (.bare (bare "9" (by simp))),
      .isIn (bare "t.s" (by simp)),
      single (.between (bare "t.m" (by simp)) (.bare (bare "1" (by simp)))
        (.bare (bare "2" (by simp)))),
      List.forall_mem_nil _⟩
  refine ⟨readable, by decide +kernel, ?_⟩
  rw [read_text readable]
  with_unfolding_all rfl

end Predicate

end WhereClause
