import WhereClause.Proofs.Bounds

/-! Leaves that lack a text: a comparison with nothing to compare with, a choice from nothing, a range
without a bound. Main statement: an entry that compiles has such a leaf exactly where a member asks
for an order against null or a blank text, or for a choice from an empty list. These values are all
taken: nothing refuses them for what they leave out. -/
namespace WhereClause

def Text.hasInk (s : String) : Bool := s.toList.any fun c => !isBlank c

/-- Whether a condition on a field has all its texts. -/
def Predicate.isComplete : Predicate → Bool
  | comparison _ _ right => Text.hasInk right
  | isIn _ values => !values.isEmpty
  | between _ low high => Text.hasInk low && Text.hasInk high
  | _ => true

namespace Text

theorem hasInk_of_mem {s : String} {c : Char} (among : c ∈ s.toList) (h : isBlank c = false) :
    hasInk s = true :=
  List.any_eq_true.2 ⟨c, among, by rw [h]; rfl⟩

theorem not_isBlank_of_isUnquotedChar {c : Char} (h : Value.isUnquotedChar c = true) :
    isBlank c = false := by
  rw [Value.isUnquotedChar] at h
  delta Char.isAlphanum Char.isAlpha Char.isUpper Char.isLower Char.isDigit at h
  simp only [Bool.or_eq_true, Bool.and_eq_true, decide_eq_true_eq, UInt32.le_iff_toNat_le,
    ge_iff_le] at h
  change (((65 ≤ c.toNat ∧ c.toNat ≤ 90 ∨ 97 ≤ c.toNat ∧ c.toNat ≤ 122) ∨
    48 ≤ c.toNat ∧ c.toNat ≤ 57) ∨ c = '.') ∨ c = '-' at h
  have printed : 0x21 ≤ c.toNat ∧ c.toNat ≤ 0x7E := by
    rcases h with (letterOrDigit | rfl) | rfl
    · omega
    · decide
    · decide
  simp only [isBlank, Bool.or_eq_false_iff, Bool.and_eq_false_iff, decide_eq_false_iff_not,
    beq_eq_false_iff_ne]
  omega

end Text

namespace Filter

/-- Whether a value leaves out a text of the condition that an operator asks for. -/
def leavesHole : Option Operator → Value → Bool
  | some (.compare _), .null => true
  | some (.compare _), .text s => !Text.hasInk s
  | some .isIn, .list [] => true
  | _, _ => false

theorem accepts_of_leavesHole {operator? : Option Operator} {value : Value}
    (h : leavesHole operator? value = true) : accepts operator? value = true := by
  unfold leavesHole at h
  split at h
  · rfl
  · rfl
  · rfl
  · cases h

theorem hasInk_doubleQuoted (text : String) : Text.hasInk (doubleQuoted text) = true := by
  have among : '"' ∈ (doubleQuoted text).toList := by simp [doubleQuoted]
  exact Text.hasInk_of_mem among (by decide)

theorem hasInk_bound (value : Value) : Text.hasInk (bound value) = true := by
  cases numeric : value.isNumeric with
  | true =>
    obtain ⟨c, among, digit⟩ := (Numeral.isPaddedNumber_display numeric).exists_digit
    rw [bound_of_isNumeric numeric]
    exact Text.hasInk_of_mem among
      (Text.not_isBlank_of_isUnquotedChar (Value.isUnquotedChar_of_isDigit digit))
  | false =>
    rw [bound, numeric]
    cases value.dateText? <;> exact hasInk_doubleQuoted _

theorem hasInk_display_of_isUnquoted {value : Value} (h : value.isUnquoted = true) :
    Text.hasInk value.display = true := by
  obtain ⟨nonempty, chars⟩ := Value.isUnquotedText_display h
  obtain ⟨c, among⟩ := List.exists_mem_of_ne_nil _ nonempty
  exact Text.hasInk_of_mem among (Text.not_isBlank_of_isUnquotedChar (chars c among))

theorem hasInk_comparand (comparison : Comparison) {value : Value} (scalar : value.isList = false) :
    Text.hasInk (comparand value) = !leavesHole (some (.compare comparison)) value := by
  cases value with
  | null => rfl
  | text value => exact (Bool.not_not _).symm
  | bool | int | float => exact hasInk_display_of_isUnquoted rfl
  | date | moment => exact hasInk_doubleQuoted _
  | list => cases scalar

theorem hasInk_placeholder (name : String) : Text.hasInk (":" ++ name) = true := by
  have among : ':' ∈ (":" ++ name).toList := by simp
  exact Text.hasInk_of_mem among (by decide)

theorem isComplete_leaf (settings : Settings) {value : Value} {member : String} (target : Target)
    (taken : takes value member = true) :
    (leaf settings value member target).isComplete =
      !leavesHole (Field.ofMember member).operator? value := by
  rw [takes] at taken
  unfold leaf
  dsimp only
  generalize (Field.ofMember member).operator? = operator? at taken ⊢
  rcases operator? with _ | operator
  · exact hasInk_placeholder _
  · cases operator with
    | like => exact hasInk_placeholder _
    | isIn =>
      cases value with
      | list items => cases items <;> rfl
      | _ => rfl
    | between =>
      cases value with
      | list items =>
        rcases items with _ | ⟨low, _ | ⟨high, _ | _⟩⟩
        case cons.cons.nil =>
          exact Bool.and_eq_true_iff.2 ⟨hasInk_bound low, hasInk_bound high⟩
        all_goals cases taken
      | _ => cases taken
    | compare comparison =>
      have scalar : value.isList = false := by
        cases value with
        | list => cases taken
        | _ => rfl
      cases comparison <;> exact hasInk_comparand _ scalar
    | null => cases h : value.holds <;> rfl
    | is =>
      cases value with
      | text word =>
        by_cases notNull : word = "not_null" <;>
          simp [Predicate.isComplete, leavesHole, notNull]
      | _ => rfl

section

variable {settings : Settings} {query : Query} {key : String} {value : Value}
  {predicate : Predicate}

/-- An entry that compiles gives one condition for each member, and a condition is complete unless
the value leaves out what its member asks for. No member is refused for such a value. -/
theorem isComplete_of_compile (h : (compile settings key value query).result = .ok predicate) :
    (∃ leaves, predicate = .group .or leaves ∧
      leaves.map Predicate.isComplete =
        (Key.members key).map fun member =>
          !leavesHole (Field.ofMember member).operator? value) ∧
    ∀ (member : String) (other : Value),
      leavesHole (Field.ofMember member).operator? other = true →
        ∃ leaf, (compileMember settings other member query).result = .ok leaf ∧
          leaf.isComplete = false := by
  obtain ⟨root, source, taken, rfl⟩ := takes_of_compile h
  refine ⟨⟨_, rfl, ?_⟩, fun member other hole => ?_⟩
  · rw [List.map_map]
    exact List.map_congr_left fun member among => isComplete_leaf settings _ (taken member among)
  · have taken : takes other member = true := accepts_of_leavesHole hole
    have incomplete := isComplete_leaf settings (query.target root (Field.ofMember member).path) taken
    rw [hole] at incomplete
    exact ⟨_, congrArg Outcome.result (compileMember_of_takes source taken), incomplete⟩

theorem isComplete_of_compile_null :
    let query : Query := { roots := [⟨"test", "t"⟩] }
    let key := "a__lt___or___b__in___or___c__gte___or___d__is"
    ∃ predicate, (compile .default key .null query).result = .ok predicate ∧
      predicate.text = "t.a <  OR t.b IN ('') OR t.c >=  OR t.d IS NULL" ∧
      (∃ leaves, predicate = .group .or leaves ∧
        leaves.map Predicate.isComplete = [false, true, false, true]) ∧
      ∃ leaf, (compileMember .default (.list []) "a__in" query).result = .ok leaf ∧
        leaf.isComplete = false := by
  intro query key
  have members : Key.members key = ["a__lt", "b__in", "c__gte", "d__is"] := by decide +kernel
  have taken : ∀ member ∈ Key.members key, takes .null member = true := by
    rw [members]
    decide +kernel
  have source : query.rootAlias? = some "t" := rfl
  have compiled : (compile .default key .null query).result =
      .ok (.group .or (["a__lt", "b__in", "c__gte", "d__is"].map
        (leafIn .default .null query "t"))) := by
    rw [compile_of_takes source taken, members]
  obtain ⟨⟨leaves, same, complete⟩, holes⟩ := isComplete_of_compile compiled
  refine ⟨_, compiled, by decide +kernel, ⟨leaves, same, complete.trans ?_⟩,
    holes "a__in" (.list []) (by decide +kernel)⟩
  rw [members]
  decide +kernel

end

end Filter

end WhereClause
