import WhereClause.Proofs.Entries

/-! What a sorting leaves, said from the query as it was before: its terms, and the joins that its
paths ask for. Main statement: filters and then a sorting join each new source once, in the order in
which members and sorted paths first use it. -/
namespace WhereClause

namespace Sorting

def terms (query : Query) (root : String) (entries : List (String × String)) : List String :=
  entries.map fun entry => (query.target root entry.1).column ++ " " ++ entry.2

def afterTerms (root : String) (entries : List (String × String)) (query : Query) : Query :=
  { query.joinPaths root (Entries.names entries) with
    order := query.order ++ terms query root entries }

theorem terms_joinPaths (query : Query) (root : String) (paths : List String)
    (entries : List (String × String)) :
    terms (query.joinPaths root paths) root entries = terms query root entries := by
  simp only [terms, Query.target_joinPaths]

theorem addTerm_eq (root : String) (query : Query) (entry : String × String) :
    addTerm root query entry = afterTerms root [entry] query := by
  rw [addTerm, Query.resolve_eq]
  rfl

theorem afterTerms_nil (root : String) (query : Query) : afterTerms root [] query = query := by
  have same : afterTerms root [] query =
      { query.joinPaths root [] with order := query.order ++ [] } := rfl
  rw [same, Query.joinPaths_nil, List.append_nil]

theorem afterTerms_cons (root : String) (entry : String × String)
    (rest : List (String × String)) (query : Query) :
    afterTerms root rest (afterTerms root [entry] query) =
      afterTerms root (entry :: rest) query := by
  have twice : afterTerms root rest (afterTerms root [entry] query) =
      { (query.joinPaths root [entry.1]).joinPaths root (Entries.names rest) with
        order := (query.order ++ terms query root [entry]) ++
          terms (query.joinPaths root [entry.1]) root rest } := rfl
  rw [twice, Query.joinPaths_joinPaths, terms_joinPaths, List.append_assoc]
  rfl

theorem foldl_addTerm (root : String) (entries : List (String × String)) (query : Query) :
    entries.foldl (addTerm root) query = afterTerms root entries query := by
  induction entries generalizing query with
  | nil => rw [List.foldl_nil, afterTerms_nil]
  | cons entry rest ih => rw [List.foldl_cons, addTerm_eq, ih, afterTerms_cons]

theorem apply_of_rootAlias? (sorting : Sorting) {query : Query} {root : String}
    (h : query.rootAlias? = some root) :
    sorting.apply query = ⟨afterTerms root sorting.entries query, .ok ()⟩ := by
  rw [apply, h]
  dsimp only
  rw [foldl_addTerm]
  split
  · next empty => rw [List.isEmpty_iff.1 empty, afterTerms_nil]
  · rfl

end Sorting

/-- The segments that the members of filters and then the paths of a sorting begin with. -/
def segmentsOf (filters : Filters) (sorting : Sorting) : List String :=
  (Filter.paths (Filter.membersOf filters.entries) ++ sorting.names).filterMap Key.segment?

namespace Filter

section

variable {settings : Settings} {mode : Connective} {filters : Filters} {query : Query}
  {root : String}

theorem forall_takes_of_apply (done : (apply settings mode filters query).result = .ok ()) :
    ∀ entry ∈ filters.entries, Takes entry := by
  intro entry among
  obtain ⟨root, -, taken⟩ := takes_of_applyEntries done (List.ne_nil_of_mem among)
  exact taken entry among

theorem sort_after_apply (sorting : Sorting) (source : query.rootAlias? = some root)
    (taken : ∀ entry ∈ filters.entries, Takes entry) :
    sorting.apply (apply settings mode filters query).query =
      ⟨Sorting.afterTerms root sorting.entries
        (afterEntries settings mode root filters.entries query), .ok ()⟩ := by
  rw [apply, applyEntries_of_takes source taken]
  exact sorting.apply_of_rootAlias? (rootAlias?_afterEntries filters.entries source)

theorem rootAlias?_sort_after_apply (sorting : Sorting) (source : query.rootAlias? = some root)
    (taken : ∀ entry ∈ filters.entries, Takes entry) :
    (sorting.apply (apply settings mode filters query).query).query.rootAlias? = some root := by
  rw [sort_after_apply sorting source taken]
  exact Query.rootAlias?_joinPaths root sorting.names
    (rootAlias?_afterEntries filters.entries source)

theorem joins_sort_after_apply (sorting : Sorting) (source : query.rootAlias? = some root)
    (taken : ∀ entry ∈ filters.entries, Takes entry) :
    (sorting.apply (apply settings mode filters query).query).query.joins =
      (query.joinPaths root (paths (membersOf filters.entries) ++ sorting.names)).joins := by
  have twice : (Sorting.afterTerms root sorting.entries
      (afterEntries settings mode root filters.entries query)).joins =
        ((query.joinPaths root (paths (membersOf filters.entries))).joinPaths root
          sorting.names).joins := rfl
  rw [sort_after_apply sorting source taken, twice, Query.joinPaths_joinPaths]

/-- Filters that are applied without an error, and a sorting after them, leave the joins in place
and add one for each segment whose source is not joined yet, in the order of first use. So no source
is joined that was joined before, none twice, and doing all of it again adds no join. -/
theorem joins_apply_sort (settings : Settings) (mode : Connective) (filters : Filters)
    (sorting : Sorting) (query : Query) (root : String) (source : query.rootAlias? = some root)
    (done : (apply settings mode filters query).result = .ok ()) :
    let sorted := sorting.apply (apply settings mode filters query).query
    let again := apply settings mode filters sorted.query
    let added := query.joinsFor root (segmentsOf filters sorting)
    sorted.result = .ok () ∧ sorted.query.joins = query.joins ++ added ∧
      (added.map Join.source).Nodup ∧
      (∀ join ∈ added, join.source ∉ query.joins.map Join.source) ∧
      again.result = .ok () ∧ (sorting.apply again.query).query.joins = sorted.query.joins := by
  intro sorted again added
  have taken := forall_takes_of_apply done
  have joins : sorted.query.joins =
      (query.joinPaths root (paths (membersOf filters.entries) ++ sorting.names)).joins :=
    joins_sort_after_apply sorting source taken
  have sourceAgain : sorted.query.rootAlias? = some root :=
    rootAlias?_sort_after_apply sorting source taken
  refine ⟨?_, ?_, query.nodup_source_joinsFor root _,
    fun join among => Query.source_not_mem_of_mem_joinsFor among, ?_, ?_⟩
  · exact congrArg Outcome.result (sort_after_apply sorting source taken)
  · rw [joins, Query.joinPaths, Query.newJoins_eq_joinsFor]
    rfl
  · exact congrArg Outcome.result (applyEntries_of_takes sourceAgain taken)
  · rw [joins_sort_after_apply sorting sourceAgain taken, Query.joins_joinPaths_congr root _ joins,
      Query.joinPaths_of_subset query root (List.Subset.refl _), joins]

theorem joins_apply_sort_shared_segment :
    let query : Query :=
      { roots := [⟨"test", "t"⟩]
        joins := [⟨.inner, "t.owner", "o"⟩, ⟨.left, "t.owner", "p"⟩] }
    let filters : Filters :=
      Table.ofList [("owner.name___or___boss.age__lt", .int 3), ("boss.name", .text "x")]
    let sorting : Sorting := Table.ofList [("team.rank", "asc"), ("boss.age", "desc"), ("id", "")]
    let sorted := sorting.apply (apply {} .or filters query).query
    query.rootAlias? = some "t" ∧ (apply {} .or filters query).result = .ok () ∧
      sorted.query.joins = query.joins ++
        [⟨.left, "t.boss", "boss"⟩, ⟨.left, "t.team", "team"⟩] ∧
      (sorting.apply (apply {} .or filters sorted.query).query).query.joins =
        sorted.query.joins := by
  intro query filters sorting sorted
  have taken : ∀ entry ∈ filters.entries, Takes entry := by
    unfold Takes
    decide +kernel
  have done : (apply {} .or filters query).result = .ok () := by
    rw [apply, applyEntries_of_takes rfl taken]
  obtain ⟨-, joins, -, -, -, again⟩ := joins_apply_sort {} .or filters sorting query "t" rfl done
  have added : query.joinsFor "t" (segmentsOf filters sorting) =
      [⟨.left, "t.boss", "boss"⟩, ⟨.left, "t.team", "team"⟩] := by
    decide +kernel
  rw [added] at joins
  exact ⟨rfl, done, joins, again⟩

end

end Filter

end WhereClause
