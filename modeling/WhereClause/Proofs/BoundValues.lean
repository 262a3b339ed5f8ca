import WhereClause.Proofs.Parameters
import WhereClause.Query.Text

/-! Values that are bound do not show in the text. Equalities and searches write a placeholder, whose
name comes from the member alone, and bind their value to it. Main statement: filters with the same
keys, all of them equalities and searches, leave queries that differ in nothing but the values of
their parameters. Of the text that has these values put in nothing is said. -/
namespace WhereClause

theorem Table.names_putAll_congr {α : Type} {table other : Table α} {entries more : List (String × α)}
    (tables : table.names = other.names) (h : Entries.names entries = Entries.names more) :
    (table.putAll entries).names = (other.putAll more).names := by
  induction entries generalizing table other more with
  | nil =>
    obtain rfl := List.map_eq_nil_iff.1 h.symm
    exact tables
  | cons entry rest ih =>
    cases more with
    | nil => cases h
    | cons first others =>
      obtain ⟨same, later⟩ := List.cons.inj h
      rw [putAll_cons, putAll_cons]
      exact ih (by rw [names_put, names_put, tables, same]) later

/-- Whether two queries differ in nothing but the values of their parameters. -/
structure SameButValues (left right : Query) : Prop where
  selected : left.selected = right.selected
  roots : left.roots = right.roots
  joins : left.joins = right.joins
  condition : left.condition = right.condition
  order : left.order = right.order
  names : left.parameters.names = right.parameters.names

namespace Filter

/-- Whether a member binds its value: it has no operator that is known, or it is a search. -/
def Binds (member : String) : Prop :=
  (Field.ofMember member).operator? = none ∨ (Field.ofMember member).operator? = some .like

section

variable {settings : Settings} {member : String} {value other : Value}

theorem takes_of_binds (binds : Binds member) (scalar : value.isList = false) :
    takes value member = true := by
  rcases binds with operator | operator <;> simp [takes, accepts, operator, scalar]

theorem leaf_of_binds (binds : Binds member) (target : Target) :
    leaf settings value member target = leaf settings other member target := by
  unfold leaf
  rcases binds with operator | operator <;> simp only [operator]

theorem names_bindings (settings : Settings) (value other : Value) (members : List String) :
    Entries.names (bindings settings value members) =
      Entries.names (bindings settings other members) := by
  induction members with
  | nil => rfl
  | cons member rest ih =>
    have both := binding?_isSome settings value other member
    rw [bindings, bindings, List.filterMap_cons, List.filterMap_cons, ← bindings, ← bindings]
    cases mine : binding? settings value member with
    | none =>
      rw [mine, Option.isSome_none, Eq.comm, Option.isSome_eq_false_iff, Option.isNone_iff_eq_none]
        at both
      rw [both]
      exact ih
    | some bound =>
      rw [mine, Option.isSome_some] at both
      obtain ⟨otherBound, others⟩ := Option.isSome_iff_exists.1 both.symm
      rw [others, Entries.names_cons, Entries.names_cons, ih, binding?_name mine,
        binding?_name others]

end

end Filter

namespace SameButValues

variable {left right : Query}

theorem refl (query : Query) : SameButValues query query := ⟨rfl, rfl, rfl, rfl, rfl, rfl⟩

theorem rootAlias? (h : SameButValues left right) : left.rootAlias? = right.rootAlias? := by
  rw [Query.rootAlias?, Query.aliases, h.roots, h.joins]
  rfl

theorem target (h : SameButValues left right) (base path : String) :
    left.target base path = right.target base path := by
  simp only [Query.target, Query.joinedAlias?, h.joins]

theorem text (h : SameButValues left right) : left.text = right.text := by
  have rest : { left with parameters := right.parameters } = right := by
    obtain ⟨selected, roots, joins, condition, parameters, order⟩ := left
    obtain ⟨rfl, rfl, rfl, rfl, rfl, -⟩ := h
    rfl
  rw [← rest]
  rfl

theorem grow (h : SameButValues left right) (base : String) (paths : List String)
    {bindings more : List (String × Value)} (named : Entries.names bindings = Entries.names more) :
    SameButValues (left.grow base paths bindings) (right.grow base paths more) where
  selected := h.selected
  roots := h.roots
  joins := Query.joins_joinPaths_congr base paths h.joins
  condition := h.condition
  order := h.order
  names := Table.names_putAll_congr h.names named

theorem restrict (h : SameButValues left right) (mode : Connective) (predicate : Predicate) :
    SameButValues (left.restrict mode predicate) (right.restrict mode predicate) where
  selected := h.selected
  roots := h.roots
  joins := h.joins
  condition := by rw [Query.restrict, Query.restrict, h.condition]
  order := h.order
  names := h.names

theorem compile (h : SameButValues left right) (settings : Settings) {key : String}
    {value other : Value}
    (binds : ∀ member ∈ Key.members key, Filter.Binds member) (scalar : value.isList = false)
    (otherScalar : other.isList = false) :
    (Filter.compile settings key value left).result =
        (Filter.compile settings key other right).result ∧
      SameButValues (Filter.compile settings key value left).query
        (Filter.compile settings key other right).query := by
  cases source : left.rootAlias? with
  | none =>
    rw [Filter.compile_of_rootAlias?_none key source,
      Filter.compile_of_rootAlias?_none key (h.rootAlias?.symm.trans source)]
    exact ⟨rfl, h⟩
  | some root =>
    have leaves : (Key.members key).map (Filter.leafIn settings value left root) =
        (Key.members key).map (Filter.leafIn settings other right root) := by
      refine List.map_congr_left fun member among => ?_
      rw [Filter.leafIn, Filter.leafIn, h.target, Filter.leaf_of_binds (binds member among)]
    rw [Filter.compile_of_takes source fun member among =>
        Filter.takes_of_binds (binds member among) scalar,
      Filter.compile_of_takes (h.rootAlias?.symm.trans source) fun member among =>
        Filter.takes_of_binds (binds member among) otherScalar, leaves]
    exact ⟨rfl, h.grow root _ (Filter.names_bindings settings value other _)⟩

theorem applyEntries (h : SameButValues left right) (settings : Settings) (mode : Connective)
    {entries more : List (String × Value)} (keys : Entries.names entries = Entries.names more)
    (binds : ∀ key ∈ Entries.names entries, ∀ member ∈ Key.members key, Filter.Binds member)
    (scalars : ∀ entry ∈ entries, entry.2.isList = false)
    (otherScalars : ∀ entry ∈ more, entry.2.isList = false) :
    (Filter.applyEntries settings mode entries left).result =
        (Filter.applyEntries settings mode more right).result ∧
      SameButValues (Filter.applyEntries settings mode entries left).query
        (Filter.applyEntries settings mode more right).query := by
  induction entries generalizing left right more with
  | nil =>
    obtain rfl := List.map_eq_nil_iff.1 keys.symm
    exact ⟨rfl, h⟩
  | cons entry rest ih =>
    cases more with
    | nil => cases keys
    | cons other others =>
      obtain ⟨key, value⟩ := entry
      obtain ⟨otherKey, otherValue⟩ := other
      obtain ⟨rfl, laterKeys⟩ := List.cons.inj keys
      obtain ⟨here, later⟩ := List.forall_mem_cons.1 binds
      obtain ⟨scalar, laterScalars⟩ := List.forall_mem_cons.1 scalars
      obtain ⟨otherScalar, laterOthers⟩ := List.forall_mem_cons.1 otherScalars
      have step := h.compile settings here scalar otherScalar
      rw [Filter.applyEntries, Filter.applyEntries]
      generalize Filter.compile settings key value left = first at step
      generalize Filter.compile settings key otherValue right = second at step
      obtain ⟨leftQuery, result⟩ := first
      obtain ⟨rightQuery, otherResult⟩ := second
      obtain ⟨rfl, same⟩ := step
      cases result with
      | error error => exact ⟨rfl, same⟩
      | ok predicate =>
        exact ih (same.restrict mode predicate) laterKeys later laterScalars laterOthers

end SameButValues

/-- Filters with the same keys, whose members are all equalities and searches, and with whatever
values that are no lists: they are applied with the same result, the queries that they leave differ
in nothing but the values of their parameters, and have the same text. -/
theorem Filter.apply_sameButValues (settings : Settings) (mode : Connective) (query : Query)
    (left right : Filters) (keys : left.names = right.names)
    (binds : ∀ key ∈ left.names, ∀ member ∈ Key.members key, Binds member)
    (scalars : ∀ entry ∈ left.entries, entry.2.isList = false)
    (otherScalars : ∀ entry ∈ right.entries, entry.2.isList = false) :
    let first := apply settings mode left query
    let second := apply settings mode right query
    first.result = second.result ∧ SameButValues first.query second.query ∧
      first.query.text = second.query.text := by
  intro first second
  have same : first.result = second.result ∧ SameButValues first.query second.query :=
    (SameButValues.refl query).applyEntries settings mode keys binds scalars otherScalars
  exact ⟨same.1, same.2, same.2.text⟩

theorem Filter.apply_sameButValues_tautology :
    let query : Query := { roots := [⟨"test", "t"⟩] }
    let left : Filters :=
      Table.ofList [("owner.name__like___or___age", .text "x"), ("kind__foo", .int 1)]
    let right : Filters :=
      Table.ofList [("owner.name__like___or___age", .text "' OR 1 = 1"), ("kind__foo", .null)]
    let after := (apply {} .and right query).query
    left.names = right.names ∧
      after.text = "SELECT t FROM test t LEFT JOIN t.owner owner WHERE " ++
        "(owner.name LIKE :f288fb OR t.age = :f7d637) AND t.kind__foo = :f57c32" ∧
      after.parameters.names = ["f288fb", "f7d637", "f57c32"] ∧
      (after.parameters.get? "f7d637").map Value.display = some "' OR 1 = 1" := by
  intro query left right after
  have keys : left.names = right.names := by decide +kernel
  have binds : ∀ key ∈ left.names, ∀ member ∈ Key.members key, Binds member := by
    unfold Binds
    decide +kernel
  have scalars : ∀ filters ∈ [left, right], ∀ entry ∈ filters.entries,
      entry.2.isList = false := by
    decide +kernel
  obtain ⟨-, same, text⟩ := apply_sameButValues {} .and query left right keys binds
    (scalars left (by simp)) (scalars right (by simp))
  exact ⟨keys, text.symm.trans (by decide +kernel), same.names.symm.trans (by decide +kernel),
    by decide +kernel⟩

end WhereClause
