import WhereClause.Proofs.Entries
import WhereClause.Query.Text

/-! Conditions that are added to a query one after the other. The tree that holds them is extended
where its root has the connective asked for and wrapped where it has the other one, and empty groups
are left out on the way. Main statement: whatever the calls, the tree means what the conditions mean
when they are taken from left to right, and a condition is written when one of them is not empty. -/
namespace WhereClause

namespace Connective

def combine : Connective → Bool → Bool → Bool
  | and, left, right => left && right
  | or, left, right => left || right

def neutral : Connective → Bool
  | and => true
  | or => false

theorem combine_neutral (connective : Connective) (value : Bool) :
    connective.combine connective.neutral value = value := by
  cases connective <;> rfl

theorem combine_assoc (connective : Connective) (first second third : Bool) :
    connective.combine (connective.combine first second) third =
      connective.combine first (connective.combine second third) := by
  cases connective
  · exact Bool.and_assoc first second third
  · exact Bool.or_assoc first second third

theorem combine_neutral_right (connective : Connective) (value : Bool) :
    connective.combine value connective.neutral = value := by
  cases connective <;> cases value <;> rfl

end Connective

namespace Predicate

def isGroup : Predicate → Bool
  | group _ _ => true
  | _ => false

inductive Inside : Predicate → Predicate → Prop
  | part {connective : Connective} {parts : List Predicate} {part : Predicate}
      (h : part ∈ parts) : Inside part (group connective parts)
  | deeper {connective : Connective} {parts : List Predicate} {part inner : Predicate}
      (h : part ∈ parts) (inside : Inside inner part) : Inside inner (group connective parts)

/-- What can be built without writing out the parts of a group: leaves, groups without parts, and
conditions to which such conditions are added. -/
inductive Built : Predicate → Prop
  | leaf {predicate : Predicate} (h : predicate.isGroup = false) : Built predicate
  | empty (connective : Connective) : Built (group connective [])
  | add {predicate part : Predicate} (h : Built predicate) (built : Built part) :
      Built (predicate.add part)

def NoEmptyInside (predicate : Predicate) : Prop :=
  ∀ inner, Inside inner predicate → inner.isEmpty = false

mutual

/-- The truth of a condition, from the truth of its leaves. -/
def holds (truth : Predicate → Bool) : Predicate → Bool
  | group connective parts => holdsAll truth connective parts
  | leaf => truth leaf

def holdsAll (truth : Predicate → Bool) (connective : Connective) : List Predicate → Bool
  | [] => connective.neutral
  | part :: rest => connective.combine (part.holds truth) (holdsAll truth connective rest)

end

theorem holdsAll_append (truth : Predicate → Bool) (connective : Connective)
    (parts more : List Predicate) :
    holdsAll truth connective (parts ++ more) =
      connective.combine (holdsAll truth connective parts) (holdsAll truth connective more) := by
  induction parts with
  | nil => rw [List.nil_append, holdsAll, Connective.combine_neutral]
  | cons part rest ih => rw [List.cons_append, holdsAll, ih, holdsAll, Connective.combine_assoc]

theorem holdsAll_singleton (truth : Predicate → Bool) (connective : Connective)
    (part : Predicate) : holdsAll truth connective [part] = part.holds truth := by
  rw [holdsAll, holdsAll, Connective.combine_neutral_right]

theorem inside_group {inner : Predicate} {connective : Connective} {parts : List Predicate} :
    Inside inner (group connective parts) ↔ ∃ part ∈ parts, inner = part ∨ Inside inner part := by
  constructor
  · rintro (h | ⟨h, inside⟩)
    · exact ⟨inner, h, Or.inl rfl⟩
    · exact ⟨_, h, Or.inr inside⟩
  · rintro ⟨part, h, rfl | inside⟩
    · exact .part h
    · exact .deeper h inside

theorem noEmptyInside_group {connective : Connective} {parts : List Predicate} :
    NoEmptyInside (group connective parts) ↔
      ∀ part ∈ parts, part.isEmpty = false ∧ NoEmptyInside part := by
  constructor
  · exact fun h part among =>
      ⟨h part (.part among), fun inner inside => h inner (.deeper among inside)⟩
  · intro h inner inside
    obtain ⟨part, among, rfl | inside⟩ := inside_group.1 inside
    · exact (h inner among).1
    · exact (h part among).2 inner inside

theorem noEmptyInside_of_not_isGroup {predicate : Predicate} (h : predicate.isGroup = false) :
    NoEmptyInside predicate := by
  rintro inner (_ | _) <;> cases h

theorem NoEmptyInside.add {predicate part : Predicate} (h : NoEmptyInside predicate)
    (inPart : NoEmptyInside part) : NoEmptyInside (predicate.add part) := by
  unfold Predicate.add
  split
  · split
    · exact h
    · next connective parts nonempty =>
      refine noEmptyInside_group.2 (List.forall_mem_append.2 ⟨noEmptyInside_group.1 h, ?_⟩)
      exact List.forall_mem_singleton.2 ⟨Bool.eq_false_iff.2 nonempty, inPart⟩
  · exact h

theorem Built.noEmptyInside {predicate : Predicate} (h : Built predicate) :
    NoEmptyInside predicate := by
  induction h with
  | leaf h => exact noEmptyInside_of_not_isGroup h
  | empty connective => exact noEmptyInside_group.2 (List.forall_mem_nil _)
  | add _ _ ih ihPart => exact ih.add ihPart

theorem NoEmptyInside.groupOn {connective : Connective} {earlier : Option Predicate}
    (h : ∀ tree, earlier = some tree → NoEmptyInside tree) :
    NoEmptyInside (groupOn connective earlier) := by
  have empty : NoEmptyInside (group connective []) := noEmptyInside_group.2 (List.forall_mem_nil _)
  unfold WhereClause.groupOn
  split
  · exact empty
  · split
    · exact h _ rfl
    · exact empty.add (h _ rfl)
  · exact empty.add (h _ rfl)

def value? (truth : Predicate → Bool) : Option Predicate → Option Bool
  | none => none
  | some tree => if tree.isEmpty then none else some (tree.holds truth)

/-- Conditions taken from left to right: the first alone, then each combined with all before it by
the connective that it was added with. -/
def leftFold (truth : Predicate → Bool) : List (Connective × Predicate) → Option Bool
  | [] => none
  | first :: rest =>
    some (rest.foldl (fun value step => step.1.combine value (step.2.holds truth))
      (first.2.holds truth))

/-- The truth of a condition behind an earlier one; an empty condition adds nothing to what is said,
and the first that is not empty says it alone. -/
def nextValue (truth : Predicate → Bool) (earlier : Option Bool) (step : Connective × Predicate) :
    Option Bool :=
  if step.2.isEmpty then earlier
  else
    match earlier with
    | none => some (step.2.holds truth)
    | some value => some (step.1.combine value (step.2.holds truth))

theorem value?_group (truth : Predicate → Bool) (connective : Connective)
    (parts : List Predicate) :
    value? truth (some (.group connective parts)) =
      if parts = [] then none else some (holdsAll truth connective parts) := by
  cases parts <;> rfl

theorem value?_groupOn (truth : Predicate → Bool) (connective : Connective)
    (earlier : Option Predicate) :
    value? truth (some (groupOn connective earlier)) = value? truth earlier := by
  rw [groupOn_eq, value?_group]
  cases earlier with
  | none => rfl
  | some tree =>
    cases tree with
    | group present parts =>
      by_cases same : present = connective
      · rw [same, openParts_group, value?_group]
      · cases parts with
        | nil => simp [openParts, same, value?, isEmpty, count]
        | cons part rest => simp [openParts, same, value?_group, holdsAll_singleton, holds]
    | _ => exact congrArg some (holdsAll_singleton truth connective _)

theorem value?_add (truth : Predicate → Bool) (connective : Connective) (parts : List Predicate)
    (predicate : Predicate) :
    value? truth (some ((group connective parts).add predicate)) =
      nextValue truth (value? truth (some (.group connective parts))) (connective, predicate) := by
  cases empty : predicate.isEmpty with
  | true => simp only [Predicate.add, nextValue, empty, if_true]
  | false =>
    have extended : (group connective parts).add predicate =
        group connective (parts ++ [predicate]) := by
      rw [Predicate.add, empty]
      rfl
    rw [extended, value?_group, if_neg (by simp), holdsAll_append, holdsAll_singleton, value?_group]
    cases parts with
    | nil => simp [nextValue, empty, holdsAll, Connective.combine_neutral]
    | cons part rest => simp [nextValue, empty]

theorem value?_conjoin (truth : Predicate → Bool) (connective : Connective)
    (earlier : Option Predicate) (predicate : Predicate) :
    value? truth (some (conjoin connective earlier predicate)) =
      nextValue truth (value? truth earlier) (connective, predicate) := by
  rw [conjoin, groupOn_eq, value?_add, ← groupOn_eq, value?_groupOn]

theorem foldl_nextValue_some (truth : Predicate → Bool) (steps : List (Connective × Predicate))
    (value : Bool) :
    steps.foldl (nextValue truth) (some value) =
      some ((steps.filter fun step => !step.2.isEmpty).foldl
        (fun value step => step.1.combine value (step.2.holds truth)) value) := by
  induction steps generalizing value with
  | nil => rfl
  | cons step rest ih =>
    cases empty : step.2.isEmpty <;> simp [nextValue, empty, ih]

theorem foldl_nextValue_none (truth : Predicate → Bool) (steps : List (Connective × Predicate)) :
    steps.foldl (nextValue truth) none =
      leftFold truth (steps.filter fun step => !step.2.isEmpty) := by
  induction steps with
  | nil => rfl
  | cons step rest ih =>
    cases empty : step.2.isEmpty with
    | true => simp [nextValue, empty, ih]
    | false => simp [nextValue, empty, leftFold, foldl_nextValue_some]

theorem leftFold_eq_none_iff {truth : Predicate → Bool} {steps : List (Connective × Predicate)} :
    leftFold truth steps = none ↔ steps = [] := by
  cases steps <;> simp [leftFold]

end Predicate

namespace Query

open Predicate

def restrictAll (query : Query) (steps : List (Connective × Predicate)) : Query :=
  steps.foldl (fun query step => query.restrict step.1 step.2) query

theorem value?_restrictAll (truth : Predicate → Bool) (steps : List (Connective × Predicate))
    (query : Query) :
    value? truth (query.restrictAll steps).condition =
      steps.foldl (nextValue truth) (value? truth query.condition) := by
  induction steps generalizing query with
  | nil => rfl
  | cons step rest ih =>
    rw [List.foldl_cons, ← value?_conjoin]
    exact ih (query.restrict step.1 step.2)

theorem noEmptyInside_restrictAll {steps : List (Connective × Predicate)} {query : Query}
    (h : ∀ tree, query.condition = some tree → NoEmptyInside tree)
    (added : ∀ step ∈ steps, NoEmptyInside step.2) :
    ∀ tree, (query.restrictAll steps).condition = some tree → NoEmptyInside tree := by
  induction steps generalizing query with
  | nil => exact h
  | cons step rest ih =>
    obtain ⟨first, later⟩ := List.forall_mem_cons.1 added
    have kept : ∀ tree, (query.restrict step.1 step.2).condition = some tree →
        NoEmptyInside tree := by
      intro tree same
      rw [← Option.some.inj same]
      exact (NoEmptyInside.groupOn h).add first
    exact ih kept later

theorem restrictAll_eq (steps : List (Connective × Predicate)) (query : Query) :
    query.restrictAll steps = { query with condition := (query.restrictAll steps).condition } := by
  induction steps generalizing query with
  | nil => rfl
  | cons step rest ih => exact ih (query.restrict step.1 step.2)

theorem text_restrictAll (steps : List (Connective × Predicate)) (query : Query) :
    (query.restrictAll steps).text = "SELECT " ++ query.selectText ++ query.fromText ++
      (query.restrictAll steps).whereText ++ query.orderText := by
  rw [restrictAll_eq]
  rfl

theorem whereText_of_isEmpty {query : Query} {tree : Predicate} (h : query.condition = some tree)
    (empty : tree.isEmpty = true) : query.whereText = "" := by
  simp only [Query.whereText, h, empty, if_true]

theorem whereText_of_not_isEmpty {query : Query} {tree : Predicate}
    (h : query.condition = some tree) (nonempty : tree.isEmpty = false) :
    query.whereText = " WHERE " ++ tree.text := by
  simp only [Query.whereText, h, nonempty, Bool.false_eq_true, if_false]

theorem whereText_of_value?_none {truth : Predicate → Bool} {query : Query}
    (h : value? truth query.condition = none) : query.whereText = "" := by
  cases condition : query.condition with
  | none => rw [Query.whereText, condition]
  | some tree =>
    rw [condition, value?] at h
    split at h
    · next empty => exact whereText_of_isEmpty condition empty
    · cases h

theorem whereText_of_value?_some {truth : Predicate → Bool} {query : Query} {value : Bool}
    (h : value? truth query.condition = some value) :
    ∃ tree, query.condition = some tree ∧ query.whereText = " WHERE " ++ tree.text := by
  cases condition : query.condition with
  | none =>
    rw [condition] at h
    cases h
  | some tree =>
    rw [condition, value?] at h
    split at h
    · cases h
    · next nonempty =>
      exact ⟨tree, rfl, whereText_of_not_isEmpty condition (Bool.eq_false_iff.2 nonempty)⟩

/-- Conditions that are built up and added to a query without one leave no empty group below the
root of the tree; the tree is true exactly where those of them that are not empty are, taken from
left to right; and the text has a condition exactly when there is such a one. -/
theorem restrictAll_leftFold (steps : List (Connective × Predicate)) (query : Query)
    (fresh : query.condition = none) (built : ∀ step ∈ steps, Built step.2) :
    let after := query.restrictAll steps
    let nonempty := steps.filter fun step => !step.2.isEmpty
    (∀ tree, after.condition = some tree → NoEmptyInside tree) ∧
    (∀ truth, value? truth after.condition = leftFold truth nonempty) ∧
    (nonempty ≠ [] → ∃ tree, after.condition = some tree ∧
      after.text = "SELECT " ++ query.selectText ++ query.fromText ++ (" WHERE " ++ tree.text) ++
        query.orderText) ∧
    (nonempty = [] →
      after.text = "SELECT " ++ query.selectText ++ query.fromText ++ query.orderText) := by
  intro after nonempty
  have folded : ∀ truth, value? truth after.condition = leftFold truth nonempty := by
    intro truth
    rw [value?_restrictAll, fresh]
    exact foldl_nextValue_none truth steps
  have text := text_restrictAll steps query
  have anyTruth := folded fun _ => true
  refine ⟨?_, folded, fun some => ?_, fun none => ?_⟩
  · refine noEmptyInside_restrictAll (fun tree same => ?_) fun step among =>
      (built step among).noEmptyInside
    rw [fresh] at same
    cases same
  · obtain ⟨value, all⟩ := Option.ne_none_iff_exists'.1 (mt leftFold_eq_none_iff.1 some)
    obtain ⟨tree, condition, written⟩ := whereText_of_value?_some (anyTruth.trans all)
    exact ⟨tree, condition, written ▸ text⟩
  · have nothing := whereText_of_value?_none (anyTruth.trans (leftFold_eq_none_iff.2 none))
    rw [text, nothing, String.append_empty]

theorem restrictAll_leftFold_with_empty :
    let query : Query := { roots := [⟨"test", "t"⟩] }
    let both : Predicate := .group .and [.isNull "t.b", .isNull "t.c"]
    let steps : List (Connective × Predicate) :=
      [(.or, .group .or []), (.and, .isNull "t.a"), (.or, both), (.and, .group .or []),
        (.or, .isNull "t.d")]
    let tree : Predicate :=
      .group .or [.group .and [.group .or [.group .and [.isNull "t.a"], both]], .isNull "t.d"]
    query.condition = none ∧ (∀ step ∈ steps, Built step.2) ∧
      (query.restrictAll steps).condition = some tree ∧ NoEmptyInside tree ∧
      (∀ truth, tree.holds truth = ((truth (.isNull "t.a") ||
        (truth (.isNull "t.b") && truth (.isNull "t.c"))) || truth (.isNull "t.d"))) ∧
      (query.restrictAll steps).text = "SELECT t FROM test t WHERE " ++
        "(t.a IS NULL OR (t.b IS NULL AND t.c IS NULL)) OR t.d IS NULL" := by
  intro query both steps tree
  have leaf : ∀ column, Built (.isNull column) := fun column => .leaf rfl
  have builtBoth : Built both := ((Built.empty .and).add (leaf "t.b")).add (leaf "t.c")
  have built : ∀ step ∈ steps, Built step.2 := by
    simp only [steps, List.forall_mem_cons]
    exact ⟨.empty .or, leaf _, builtBoth, .empty .or, leaf _, List.forall_mem_nil _⟩
  have condition : (query.restrictAll steps).condition = some tree := rfl
  obtain ⟨full, folded, written, -⟩ := restrictAll_leftFold steps query rfl built
  obtain ⟨found, same, text⟩ := written (List.cons_ne_nil _ _)
  obtain rfl : tree = found := Option.some.inj (condition.symm.trans same)
  refine ⟨rfl, built, condition, full tree condition, fun truth => ?_, ?_⟩
  · have value : some (tree.holds truth) = some (((truth (.isNull "t.a")) ||
        both.holds truth) || truth (.isNull "t.d")) := folded truth
    have second : both.holds truth =
        (truth (.isNull "t.b") && (truth (.isNull "t.c") && true)) := rfl
    rw [Option.some.inj value, second, Bool.and_true]
  · exact text.trans (by decide +kernel)

end Query

end WhereClause
