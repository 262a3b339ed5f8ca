import Mathlib.Data.List.Forall2
import WhereClause.Proofs.Columns
import WhereClause.Proofs.Histories

/-! The terms that a sorting adds, and filters and a sorting on one query in either order. A term is
found from the joins as they are before the sorting, although each sorted path may add one. Main
statement: a sorting adds these terms and its joins and changes nothing else, and what filters and
it leave together does not depend on which comes first, but for the order of the joins. -/
namespace WhereClause

namespace Query

theorem joins_joinPaths_comm (query : Query) (base : String) (paths more : List String) :
    ((query.joinPaths base paths).joinPaths base more).joins.Perm
      ((query.joinPaths base more).joinPaths base paths).joins := by
  have segments : (query.newSegments base (paths ++ more)).Perm
      (query.newSegments base (more ++ paths)) := by
    have nodup : ∀ asked, (query.newSegments base asked).Nodup := fun _ => nodup_eraseDups _
    refine (List.perm_ext_iff_of_nodup (nodup _) (nodup _)).2 fun segment => ?_
    rw [mem_newSegments, mem_newSegments, List.filterMap_append, List.filterMap_append,
      List.mem_append, List.mem_append, or_comm]
  rw [joinPaths_joinPaths, joinPaths_joinPaths]
  exact (segments.map _).append_left query.joins

/-- The term of a sorted path and its direction, from the joins of a query as they are. -/
inductive IsTerm (query : Query) (root : String) : String × String → String → Prop
  | plain {path direction : String} (undotted : '.' ∉ path.toList) :
      IsTerm query root (path, direction) (root ++ "." ++ path ++ " " ++ direction)
  | joined {segment rest direction : String} {before after : List Join} {join : Join}
      (first : '.' ∉ segment.toList) (joins : query.joins = before ++ join :: after)
      (source : join.source = root ++ "." ++ segment)
      (last : ∀ later ∈ after, later.source ≠ root ++ "." ++ segment) :
      IsTerm query root (segment ++ "." ++ rest, direction)
        (join.aliasName ++ "." ++ rest ++ " " ++ direction)
  | new {segment rest direction : String} (first : '.' ∉ segment.toList)
      (unjoined : ∀ join ∈ query.joins, join.source ≠ root ++ "." ++ segment) :
      IsTerm query root (segment ++ "." ++ rest, direction)
        (segment ++ "." ++ rest ++ " " ++ direction)

theorem isTerm_target (query : Query) (root : String) (entry : String × String) :
    query.IsTerm root entry ((query.target root entry.1).column ++ " " ++ entry.2) := by
  obtain ⟨path, direction⟩ := entry
  have leads := query.leads_target root path
  generalize (query.target root path).column = column at leads ⊢
  generalize query.newSegment? root path = new? at leads
  cases leads with
  | plain undotted => exact .plain undotted
  | joined first joins source last => exact .joined first joins source last
  | new first unjoined => exact .new first unjoined

end Query

theorem SameFields.clauseIn {query after : Query} (h : SameFields query after) (settings : Settings)
    (root : String) : Filter.clauseIn settings after root = Filter.clauseIn settings query root := by
  funext entry
  rw [Filter.clauseIn, h.leafIn, Filter.clauseIn]

namespace Filter

variable {settings : Settings} {mode : Connective} {query : Query} {root : String}

theorem exists_applyEntries_eq (settings : Settings) (mode : Connective)
    (entries : List (String × Value)) (source : query.rootAlias? = some root) :
    ∃ asked bound condition result, ∀ other : Query, SameFields query other →
      other.condition = query.condition →
      applyEntries settings mode entries other =
        ⟨{ other.grow root asked bound with condition := condition }, result⟩ := by
  rcases forall_takes_or_refused entries with
    all | ⟨before, entry, rest, taken, refused, left, rfl, compiled, split, bound, here⟩
  · refine ⟨paths (membersOf entries), bindingsOf settings entries,
      conditionAfter mode (entries.map (clauseIn settings query root)) query.condition, .ok (),
      fun other same condition => ?_⟩
    rw [applyEntries_of_takes (same.root.trans source) all, afterEntries,
      same.clauseIn, condition]
  · refine ⟨paths (membersOf before) ++ paths (taken ++ [refused]),
      bindingsOf settings before ++ bindings settings entry.2 taken,
      conditionAfter mode (before.map (clauseIn settings query root)) query.condition,
      .error (refusal (Field.ofMember refused).operator? entry.2), fun other same condition => ?_⟩
    rw [applyEntries_of_refused (same.root.trans source) compiled split bound here,
      ← Query.grow_grow, afterEntries, same.clauseIn, condition]
    rfl

end Filter

namespace Sorting

variable {query : Query} {root : String}

theorem forall₂_isTerm_terms (query : Query) (root : String) (entries : List (String × String)) :
    List.Forall₂ (query.IsTerm root) entries (terms query root entries) := by
  induction entries with
  | nil => exact .nil
  | cons entry rest ih => exact .cons (query.isTerm_target root entry) ih

theorem sameFields_afterTerms (source : query.rootAlias? = some root)
    (entries : List (String × String)) : SameFields query (afterTerms root entries query) :=
  (outlasts_sameFields source).sort query root entries (SameFields.refl query) source

/-- A sorting without entries does nothing, and one with entries fails on a query without aliases.
Otherwise it adds a term for each entry behind those that are there, and a join for each segment
whose source is not joined yet, and nothing else. Filters before it or after it have the same
result, be it an error, and leave the same query, except for the order of the joins. -/
theorem apply_termwise (sorting : Sorting) (query : Query) :
    (sorting.entries = [] → sorting.apply query = ⟨query, .ok ()⟩) ∧
    (sorting.entries ≠ [] → query.aliases = [] →
      sorting.apply query = ⟨query, .error .missingSource⟩) ∧
    ∀ root others, query.aliases = root :: others →
      (∃ terms, List.Forall₂ (query.IsTerm root) sorting.entries terms ∧
        sorting.apply query =
          ⟨{ query with
              joins := query.joins ++ query.joinsFor root (sorting.names.filterMap Key.segment?)
              order := query.order ++ terms }, .ok ()⟩) ∧
      ∀ settings mode filters,
        let sorted := sorting.apply query
        let filtered := Filter.apply settings mode filters query
        let filteredLast := Filter.apply settings mode filters sorted.query
        let sortedLast := sorting.apply filtered.query
        filteredLast.result = filtered.result ∧ sortedLast.result = .ok () ∧
          sortedLast.query.joins.Perm filteredLast.query.joins ∧
          sortedLast.query = { filteredLast.query with joins := sortedLast.query.joins } := by
  refine ⟨fun empty => ?_, fun nonempty missing => ?_, fun root others aliases => ?_⟩
  · rw [apply, Table.isEmpty, if_pos (List.isEmpty_iff.2 empty)]
  · have source : query.rootAlias? = none := by rw [Query.rootAlias?, missing, List.head?_nil]
    rw [apply, Table.isEmpty, if_neg (mt List.isEmpty_iff.1 nonempty), source]
  · have source : query.rootAlias? = some root := by
      rw [Query.rootAlias?, aliases, List.head?_cons]
    have closed := sorting.apply_of_rootAlias? source
    refine ⟨⟨terms query root sorting.entries, forall₂_isTerm_terms query root _, ?_⟩,
      fun settings mode filters => ?_⟩
    · rw [closed, ← Query.newJoins_eq_joinsFor]
      rfl
    · obtain ⟨asked, bound, condition, result, applied⟩ :=
        Filter.exists_applyEntries_eq settings mode filters.entries source
      have first : Filter.apply settings mode filters query = _ :=
        applied query (SameFields.refl query) rfl
      have last : Filter.apply settings mode filters (sorting.apply query).query = _ :=
        applied _ (closed ▸ sameFields_afterTerms source sorting.entries) (closed ▸ rfl)
      have grown : SameFields query { query.grow root asked bound with condition := condition } :=
        let joined := (SameFields.refl query).joinPaths source root asked
        ⟨joined.root, joined.target⟩
      have sortedThen := sorting.apply_of_rootAlias? (grown.root.trans source)
      dsimp only
      rw [last, first, sortedThen, closed]
      refine ⟨rfl, rfl, query.joins_joinPaths_comm root asked sorting.names, ?_⟩
      rw [afterTerms, grown.terms]
      rfl

theorem apply_termwise_after_failure :
    let query : Query :=
      { joins := [⟨.left, "x.t", "t"⟩, ⟨.inner, "t.owner", "o"⟩, ⟨.left, "t.owner", "p"⟩]
        order := ["t.a asc"] }
    let filters : Filters :=
      Table.ofList [("boss.age__lt", .int 3), ("team.a__null___or___owner.b__between", .int 5)]
    let sorting : Sorting :=
      Table.ofList [("club.rank", "asc"), ("team.lead.age", "DESC NULLS LAST"),
        ("owner.name", "desc"), ("id", "")]
    let boss : Join := ⟨.left, "t.boss", "boss"⟩
    let team : Join := ⟨.left, "t.team", "team"⟩
    let club : Join := ⟨.left, "t.club", "club"⟩
    let filtered := Filter.apply {} .or filters query
    let filteredLast := Filter.apply {} .or filters (sorting.apply query).query
    let sortedLast := sorting.apply filtered.query
    apply ∅ {} = ⟨{}, .ok ()⟩ ∧ sorting.apply {} = ⟨{}, .error .missingSource⟩ ∧
      filtered.result = .error (.wrongShape (some .between) .pair) ∧
      filteredLast.result = filtered.result ∧ sortedLast.result = .ok () ∧
      filteredLast.query.order = ["t.a asc", "club.rank asc", "team.lead.age DESC NULLS LAST",
        "p.name desc", "t.id "] ∧
      sortedLast.query.joins = query.joins ++ [boss, team, club] ∧
      filteredLast.query.joins = query.joins ++ [club, team, boss] ∧
      sortedLast.query.joins.Perm filteredLast.query.joins ∧
      sortedLast.query = { filteredLast.query with joins := sortedLast.query.joins } := by
  intro query filters sorting boss team club filtered filteredLast sortedLast
  have nothing := (apply_termwise ∅ {}).1 rfl
  have missing := (apply_termwise sorting {}).2.1 (by decide +kernel) rfl
  have aliases : query.aliases = "t" :: ["o", "p"] := rfl
  obtain ⟨results, sorted, joins, same⟩ :=
    ((apply_termwise sorting query).2.2 "t" ["o", "p"] aliases).2 {} .or filters
  have failing : filtered.result = .error (.wrongShape (some .between) .pair) := by
    have first : ∀ entry ∈ [("boss.age__lt", Value.int 3)], Filter.Takes entry := by
      unfold Filter.Takes
      decide +kernel
    have split : Key.members "team.a__null___or___owner.b__between" =
        ["team.a__null"] ++ "owner.b__between" :: [] := by decide +kernel
    have refused : Filter.takes (.int 5) "owner.b__between" = false := by decide +kernel
    have entries : filters.entries = [("boss.age__lt", .int 3)] ++
        ("team.a__null___or___owner.b__between", .int 5) :: [] := rfl
    have source : query.rootAlias? = some "t" := rfl
    have operator : (Field.ofMember "owner.b__between").operator? = some .between := by
      decide +kernel
    change (Filter.applyEntries {} .or filters.entries query).result = _
    rw [entries, Filter.applyEntries_of_refused source first split (by decide +kernel) refused,
      operator, Filter.refusal]
  exact ⟨nothing, missing, failing, results, sorted, by decide +kernel, by decide +kernel,
    by decide +kernel, joins, same⟩

end Sorting

end WhereClause
