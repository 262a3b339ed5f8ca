import Mathlib.Data.List.Infix
import WhereClause.Proofs.Members

/-! Searching for a text with a pattern. A database matches a pattern against a text with wildcards
and with a backslash that takes the next character literally; nothing here speaks of capitals or of
a collation. Main statement: a value that is escaped and put between two wildcards matches exactly
the texts that it occurs in. -/
namespace WhereClause

namespace Like

/-- Whether a pattern matches the whole of a text: `%` stands for any characters, `_` for any one,
and the character behind a backslash for itself. A backslash at the end matches nothing. -/
def accepts : List Char → List Char → Bool
  | [], text => text.isEmpty
  | '\\' :: c :: more, text => text.head? = some c && accepts more text.tail
  | c :: more, text =>
    if c = '%' then text.tails.any (accepts more)
    else if c = '_' then !text.isEmpty && accepts more text.tail
    else if c = '\\' then false
    else text.head? = some c && accepts more text.tail

def escapedChar (c : Char) : List Char :=
  if c = '\\' ∨ c = '%' ∨ c = '_' then ['\\', c] else [c]

def escaped (text : List Char) : List Char := text.flatMap escapedChar

theorem accepts_percent (more text : List Char) :
    accepts ('%' :: more) text = true ↔ ∃ rest, rest <:+ text ∧ accepts more rest = true := by
  rw [accepts]
  · simp
  · rintro c rest ⟨⟩

theorem accepts_percent_nil (text : List Char) : accepts ['%'] text = true :=
  (accepts_percent [] text).2 ⟨[], List.nil_suffix, rfl⟩

theorem accepts_escapedChar (c : Char) (more text : List Char) :
    accepts (escapedChar c ++ more) text = (text.head? = some c && accepts more text.tail) := by
  unfold escapedChar
  split
  · rfl
  · next plain =>
    obtain ⟨notBackslash, notPercent, notUnderscore⟩ := by simpa only [not_or] using plain
    rw [List.singleton_append, accepts, if_neg notPercent, if_neg notUnderscore,
      if_neg notBackslash]
    intro d rest backslash
    exact absurd backslash notBackslash

theorem accepts_escaped (s more text : List Char) :
    accepts (escaped s ++ more) text = true ↔
      ∃ rest, text = s ++ rest ∧ accepts more rest = true := by
  induction s generalizing text with
  | nil => simp [escaped]
  | cons c s ih =>
    rw [escaped, List.flatMap_cons, ← escaped, List.append_assoc, accepts_escapedChar,
      Bool.and_eq_true, decide_eq_true_iff, ih]
    cases text with
    | nil => simp
    | cons d text =>
      simp only [List.head?_cons, Option.some.injEq, List.tail_cons, List.cons_append,
        List.cons.injEq, and_assoc, exists_and_left]

theorem accepts_between_percents (s text : List Char) :
    accepts ('%' :: (escaped s ++ ['%'])) text = true ↔ s <:+: text := by
  rw [accepts_percent]
  constructor
  · rintro ⟨rest, ⟨before, rfl⟩, matching⟩
    obtain ⟨after, rfl, -⟩ := (accepts_escaped s ['%'] rest).1 matching
    exact ⟨before, after, List.append_assoc _ _ _⟩
  · rintro ⟨before, after, rfl⟩
    refine ⟨s ++ after, ⟨before, (List.append_assoc _ _ _).symm⟩, ?_⟩
    exact (accepts_escaped s ['%'] _).2 ⟨after, rfl, accepts_percent_nil after⟩

theorem accepts_escaped_iff_eq (s text : List Char) :
    accepts (escaped s) text = true ↔ text = s := by
  have whole := accepts_escaped s [] text
  rw [List.append_nil] at whole
  rw [whole]
  constructor
  · rintro ⟨rest, rfl, empty⟩
    rw [List.isEmpty_iff.1 empty, List.append_nil]
  · rintro rfl
    exact ⟨[], (List.append_nil _).symm, rfl⟩

theorem escaped_injective : Function.Injective escaped := by
  intro s t same
  have matching := (accepts_escaped_iff_eq s s).2 rfl
  rw [same] at matching
  exact (accepts_escaped_iff_eq t s).1 matching

end Like

namespace Filter

theorem toList_escapeLike (text : String) :
    (escapeLike text).toList = Like.escaped text.toList := by
  rw [escapeLike, String.toList_ofList, Text.replaceAll_singleton _ (c := '_') rfl,
    Text.replaceAll_singleton _ (c := '%') rfl, Text.replaceAll_singleton _ (c := '\\') rfl,
    List.flatMap_assoc, List.flatMap_assoc, Like.escaped]
  congr 1
  funext c
  unfold Like.escapedChar
  by_cases backslash : c = '\\'
  · subst backslash
    rfl
  · by_cases percent : c = '%'
    · subst percent
      rfl
    · by_cases underscore : c = '_'
      · subst underscore
        rfl
      · simp [backslash, percent, underscore]

theorem pattern_eq (settings : Settings) (value : Value) :
    pattern settings value =
      "%" ++ (if settings.escapeLike then String.ofList (Like.escaped value.display.toList)
        else value.display) ++ "%" := by
  rw [← toList_escapeLike, String.ofList_toList]
  rfl

theorem toList_pattern {settings : Settings} (literally : settings.escapeLike = true)
    (value : Value) :
    (pattern settings value).toList =
      '%' :: (Like.escaped value.display.toList ++ ['%']) := by
  rw [pattern, if_pos literally, String.toList_append, String.toList_append, toList_escapeLike]
  rfl

theorem takes_like {value : Value} {member : String}
    (like : (Field.ofMember member).operator? = some .like) (scalar : value.isList = false) :
    takes value member = true := by
  rw [takes, like]
  cases value <;> first | rfl | cases scalar

theorem compileMember_like (settings : Settings) {value : Value} {member : String} {query : Query}
    {root : String} (source : query.rootAlias? = some root)
    (like : (Field.ofMember member).operator? = some .like) (scalar : value.isList = false) :
    ∃ column, (compileMember settings value member query).result =
        .ok (.comparison column "LIKE" (":" ++ parameterName settings member)) ∧
      (compileMember settings value member query).query.parameters.get?
        (parameterName settings member) = some (.text (pattern settings value)) := by
  rw [compileMember_of_takes source (takes_like like scalar)]
  refine ⟨(query.target root (Field.ofMember member).path).column, ?_, ?_⟩
  · simp only [leafIn, leaf, like]
  · have binds : bindings settings value [member] =
        [(parameterName settings member, .text (pattern settings value))] := by
      rw [bindings, List.filterMap_cons, binding?, like]
      rfl
    rw [binds]
    exact (Table.get?_put _ _ _ _).trans (if_pos rfl)

/-- With wildcards taken literally, a member that searches for a value that is no list compiles to a
condition on a parameter, and what the parameter holds matches exactly the texts in which the plain
text of the value occurs. The three replacements that make the pattern are one pass over the
characters, and no two texts have the same escaped form. -/
theorem like_matches_occurrences :
    (∀ (settings : Settings) (value : Value) (member : String) (query : Query) (root : String),
      settings.escapeLike = true → value.isList = false →
      (Field.ofMember member).operator? = some .like → query.rootAlias? = some root →
      ∃ column name pattern,
        (compileMember settings value member query).result =
          .ok (.comparison column "LIKE" (":" ++ name)) ∧
        (compileMember settings value member query).query.parameters.get? name =
          some (.text pattern) ∧
        ∀ text : String, Like.accepts pattern.toList text.toList = true ↔
          value.display.toList <:+: text.toList) ∧
    (∀ text : String, (escapeLike text).toList = text.toList.flatMap Like.escapedChar) ∧
    Function.Injective escapeLike := by
  refine ⟨fun settings value member query root literally scalar like source => ?_,
    toList_escapeLike, fun text other same => ?_⟩
  · obtain ⟨column, compiled, bound⟩ := compileMember_like settings source like scalar
    refine ⟨column, _, _, compiled, bound, fun text => ?_⟩
    rw [toList_pattern literally]
    exact Like.accepts_between_percents value.display.toList text.toList
  · have escaped := congrArg String.toList same
    rw [toList_escapeLike, toList_escapeLike] at escaped
    exact String.toList_injective (Like.escaped_injective escaped)

theorem like_matches_occurrences_wildcards :
    let settings : Settings := { escapeLike := true }
    let value : Value := .text "5%_\\"
    let query : Query := { roots := [⟨"test", "t"⟩] }
    settings.escapeLike = true ∧ value.isList = false ∧
      (Field.ofMember "owner.name__like").operator? = some .like ∧ query.rootAlias? = some "t" ∧
      (compileMember settings value "owner.name__like" query).result =
        .ok (.comparison "owner.name" "LIKE" ":f288fb") ∧
      (compileMember settings value "owner.name__like" query).query.parameters.get? "f288fb" =
        some (.text "%5\\%\\_\\\\%") ∧
      Like.accepts "%5\\%\\_\\\\%".toList "<5%_\\>".toList = true ∧
      ¬Like.accepts "%5\\%\\_\\\\%".toList "<5xx\\>".toList = true := by
  intro settings value query
  have like : (Field.ofMember "owner.name__like").operator? = some .like := by decide +kernel
  have name : parameterName settings "owner.name__like" = "f288fb" := by decide +kernel
  have escaped : pattern settings value = "%5\\%\\_\\\\%" := by decide +kernel
  have result : (compileMember settings value "owner.name__like" query).result =
      .ok (.comparison "owner.name" "LIKE" ":f288fb") := by
    rw [compileMember_of_takes rfl (takes_like like rfl)]
    simp only [leafIn, leaf, like, name]
    with_unfolding_all rfl
  have held : (compileMember settings value "owner.name__like" query).query.parameters.get?
      "f288fb" = some (.text "%5\\%\\_\\\\%") := by
    have source : query.rootAlias? = some "t" := rfl
    have scalar : value.isList = false := rfl
    obtain ⟨column, -, bound⟩ := compileMember_like settings source like scalar
    rwa [name, escaped] at bound
  obtain ⟨column, name, pattern, compiles, bound, matching⟩ :=
    like_matches_occurrences.1 settings value "owner.name__like" query "t" rfl rfl like rfl
  have named : name = "f288fb" := by
    have placeholders := (Predicate.comparison.inj (Except.ok.inj (compiles.symm.trans result))).2.2
    exact (String.append_right_inj ":").1 placeholders
  rw [named] at bound
  obtain rfl := Value.text.inj (Option.some.inj (bound.symm.trans held))
  exact ⟨rfl, rfl, like, rfl, result, held, (matching "<5%_\\>").2 (by decide),
    fun accepted => absurd ((matching "<5xx\\>").1 accepted) (by decide)⟩

end Filter

end WhereClause
