import Mathlib.Data.List.Nodup
import WhereClause.Proofs.Closure
import WhereClause.Proofs.Parameters

/-! Aliases that clash. A source that is not joined yet is joined under the name of its field, and
nothing looks whether that name is an alias already. Main statement: filters and sortings keep
distinct aliases distinct exactly where no field that they join anew is named like an alias in use,
and then every column that they compile belongs to one entity. Two new joins never clash. -/
namespace WhereClause

def upToFirst {α : Type} (test : α → Bool) : List α → List α
  | [] => []
  | item :: rest => item :: if test item then upToFirst test rest else []

theorem upToFirst_append {α : Type} {test : α → Bool} {passing : List α} (rest : List α)
    (h : ∀ item ∈ passing, test item = true) :
    upToFirst test (passing ++ rest) = passing ++ upToFirst test rest := by
  induction passing with
  | nil => rfl
  | cons item more ih =>
    obtain ⟨first, later⟩ := List.forall_mem_cons.1 h
    rw [List.cons_append, upToFirst, if_pos first, ih later, List.cons_append]

theorem upToFirst_cons_of_not {α : Type} {test : α → Bool} {item : α} (rest : List α)
    (h : test item = false) : upToFirst test (item :: rest) = [item] := by
  rw [upToFirst, if_neg (Bool.eq_false_iff.1 h)]

namespace Query

def newAliases (query : Query) (paths : List String) : List String :=
  match query.rootAlias? with
  | none => []
  | some root => query.newSegments root paths

/-- Whether a text starts with a column of an entity whose alias no other entity has. -/
def BelongsToOne (query : Query) (text : String) : Prop :=
  ∃ aliasName rest, text = qualified aliasName rest ∧ query.aliases.count aliasName = 1

theorem aliases_joinPaths (query : Query) (base : String) (paths : List String) :
    (query.joinPaths base paths).aliases = query.aliases ++ query.newSegments base paths := by
  have named : (query.newJoins base paths).map Join.aliasName = query.newSegments base paths := by
    rw [newJoins, List.map_map]
    exact List.map_id _
  simp only [aliases, joinPaths, List.map_append, named, List.append_assoc]

theorem newAliases_of_rootAlias? {query : Query} {root : String} (paths : List String)
    (h : query.rootAlias? = some root) : query.newAliases paths = query.newSegments root paths := by
  rw [newAliases, h]

theorem newAliases_of_rootAlias?_none {query : Query} (paths : List String)
    (h : query.rootAlias? = none) : query.newAliases paths = [] := by
  rw [newAliases, h]

theorem nodup_newAliases (query : Query) (paths : List String) :
    (query.newAliases paths).Nodup := by
  rw [newAliases]
  split
  · exact List.nodup_nil
  · exact nodup_eraseDups _

theorem nodup_append_newAliases_iff (query : Query) (paths : List String)
    (h : query.aliases.Nodup) :
    (query.aliases ++ query.newAliases paths).Nodup ↔
      ∀ segment ∈ query.newAliases paths, segment ∉ query.aliases := by
  rw [List.nodup_append]
  constructor
  · rintro ⟨-, -, apart⟩ segment new known
    exact apart segment known segment new rfl
  · intro unused
    refine ⟨h, query.nodup_newAliases paths, fun known among segment new same => ?_⟩
    exact unused segment new (same ▸ among)

theorem belongsToOne_of_mem {query : Query} {aliasName : String} (distinct : query.aliases.Nodup)
    (known : aliasName ∈ query.aliases) (rest : String) :
    query.BelongsToOne (qualified aliasName rest) :=
  ⟨aliasName, rest, rfl, List.count_eq_one_of_mem distinct known⟩

end Query

namespace Filter

def attempts (entries : List (String × Value)) : List (String × Value) :=
  entries.flatMap fun entry => withValue entry.2 (Key.members entry.1)

def isTaken (attempt : String × Value) : Bool := takes attempt.2 attempt.1

/-- The members that applying entries compiles: up to the first that does not take its value. -/
def reached (entries : List (String × Value)) : List (String × Value) :=
  upToFirst isTaken (attempts entries)

section

variable {settings : Settings} {mode : Connective} {query : Query} {root : String}

theorem attempts_cons (entry : String × Value) (rest : List (String × Value)) :
    attempts (entry :: rest) = withValue entry.2 (Key.members entry.1) ++ attempts rest :=
  List.flatMap_cons

theorem isTaken_of_mem_withValue {value : Value} {members : List String}
    (h : ∀ member ∈ members, takes value member = true) :
    ∀ attempt ∈ withValue value members, isTaken attempt = true := by
  rw [withValue, List.forall_mem_map]
  exact h

theorem names_append (attempts more : List (String × Value)) :
    Entries.names (attempts ++ more) = Entries.names attempts ++ Entries.names more :=
  List.map_append

theorem reached_of_takes {entry : String × Value} (rest : List (String × Value))
    (taken : Takes entry) :
    Entries.names (reached (entry :: rest)) =
      Key.members entry.1 ++ Entries.names (reached rest) := by
  rw [reached, attempts_cons, upToFirst_append _ (isTaken_of_mem_withValue taken), names_append,
    names_withValue, ← reached]

theorem reached_of_refused {entry : String × Value} {taken left : List String} {refused : String}
    (rest : List (String × Value)) (split : Key.members entry.1 = taken ++ refused :: left)
    (before : ∀ member ∈ taken, takes entry.2 member = true)
    (here : takes entry.2 refused = false) :
    Entries.names (reached (entry :: rest)) = taken ++ [refused] := by
  have stop : isTaken (refused, entry.2) = false := here
  have parted : withValue entry.2 (Key.members entry.1) =
      withValue entry.2 taken ++ (refused, entry.2) :: withValue entry.2 left := by
    rw [split, withValue, List.map_append, List.map_cons]
    rfl
  rw [reached, attempts_cons, parted, List.append_assoc,
    upToFirst_append _ (isTaken_of_mem_withValue before), List.cons_append,
    upToFirst_cons_of_not _ stop, names_append, names_withValue]
  rfl

theorem joins_applyEntries (entries : List (String × Value)) (h : query.rootAlias? = some root) :
    (applyEntries settings mode entries query).query.joins =
      (query.joinPaths root (paths (Entries.names (reached entries)))).joins := by
  induction entries generalizing query with
  | nil =>
    have nothing : paths (Entries.names (reached [])) = [] := rfl
    rw [nothing, Query.joinPaths_nil, applyEntries]
  | cons entry rest ih =>
    rcases takes_or_refused entry.2 (Key.members entry.1) with
      all | ⟨taken, refused, left, split, before, here⟩
    · have source := Query.rootAlias?_grow root (paths (Key.members entry.1))
        (bindings settings entry.2 (Key.members entry.1)) h
      rw [applyEntries, compile_of_takes h all, Outcome.andThen_ok,
        ih ((rootAlias?_restrict _).trans source), reached_of_takes rest all, paths_append,
        ← Query.joinPaths_joinPaths]
      exact Query.joins_joinPaths_congr root _ rfl
    · rw [applyEntries, compile_of_refused h split before here, Outcome.andThen_error,
        reached_of_refused rest split before here]
      rfl

theorem outlasts_roots (roots : List Root) : Outlasts fun query => query.roots = roots where
  grow _ _ _ _ h := h
  restrict _ _ _ _ _ h _ _ := h
  sort _ _ _ h _ := h

theorem aliases_applyEntries (settings : Settings) (mode : Connective)
    (entries : List (String × Value)) (query : Query) :
    (applyEntries settings mode entries query).query.aliases =
      query.aliases ++ query.newAliases (paths (Entries.names (reached entries))) := by
  cases source : query.rootAlias? with
  | none =>
    rw [Query.newAliases_of_rootAlias?_none _ source, List.append_nil]
    by_cases nothing : entries = []
    · rw [nothing, applyEntries]
    · rw [applyEntries_of_rootAlias?_none source nothing]
  | some root =>
    have roots := (outlasts_roots query.roots).applyEntries settings mode entries rfl
    rw [Query.newAliases_of_rootAlias? _ source, ← Query.aliases_joinPaths, Query.aliases, roots,
      joins_applyEntries entries source]
    rfl

theorem belongsToOne_of_compileMember {entries : List (String × Value)}
    {attempt : String × Value} {leaf : Predicate}
    (distinct : (applyEntries settings mode entries query).query.aliases.Nodup)
    (among : attempt ∈ reached entries)
    (compiled : (compileMember settings attempt.2 attempt.1 query).result = .ok leaf) :
    ∃ column, leaf.column? = some column ∧
      (applyEntries settings mode entries query).query.BelongsToOne column := by
  obtain ⟨someRoot, taken⟩ := takes_of_compileMember compiled
  obtain ⟨root, source⟩ := Option.ne_none_iff_exists'.1 someRoot
  have known : (query.target root (Field.ofMember attempt.1).path).aliasName ∈
      (applyEntries settings mode entries query).query.aliases := by
    rw [aliases_applyEntries, Query.newAliases_of_rootAlias? _ source, ← Query.aliases_joinPaths]
    exact Query.target_aliasName_mem source
      (List.mem_map_of_mem (List.mem_map_of_mem among))
  rw [compileMember_of_takes source taken] at compiled
  obtain rfl := Except.ok.inj compiled
  have named : ∀ bound, binding? settings attempt.2 attempt.1 = some bound →
      bound.1 ∈ [parameterName settings attempt.1] :=
    fun _ binds => List.mem_singleton.2 (binding?_name binds)
  obtain ⟨aliasName, inAliases, field, column⟩ := (refers_leaf known named).column
  exact ⟨_, column, Query.belongsToOne_of_mem distinct inAliases field⟩

end

end Filter

namespace Sorting

theorem aliases_apply (sorting : Sorting) (query : Query) :
    (sorting.apply query).query.aliases = query.aliases ++ query.newAliases sorting.names := by
  cases source : query.rootAlias? with
  | none =>
    rw [Query.newAliases_of_rootAlias?_none _ source, List.append_nil, apply, source]
    split <;> rfl
  | some root =>
    rw [Query.newAliases_of_rootAlias? _ source, ← Query.aliases_joinPaths,
      sorting.apply_of_rootAlias? source]
    rfl

theorem belongsToOne_of_apply (sorting : Sorting) {query : Query}
    (distinct : (sorting.apply query).query.aliases.Nodup) :
    ∃ terms, (sorting.apply query).query.order = query.order ++ terms ∧
      ∀ term ∈ terms, (sorting.apply query).query.BelongsToOne term := by
  cases source : query.rootAlias? with
  | none =>
    refine ⟨[], ?_, List.forall_mem_nil _⟩
    rw [List.append_nil, apply, source]
    split <;> rfl
  | some root =>
    rw [sorting.apply_of_rootAlias? source] at distinct ⊢
    refine ⟨terms query root sorting.entries, rfl, fun term among => ?_⟩
    obtain ⟨entry, inEntries, rfl⟩ := List.mem_map.1 among
    have known : (query.target root entry.1).aliasName ∈
        (afterTerms root sorting.entries query).aliases :=
      Query.target_aliasName_mem source (List.mem_map_of_mem inEntries)
    have one := Query.belongsToOne_of_mem distinct known
      ((query.target root entry.1).leaf ++ " " ++ entry.2)
    simpa only [Target.column, qualified, String.append_assoc] using one

end Sorting

/-- Applying filters, be it with an error, and sorting add to the aliases the fields that are joined
anew, each once. Where the aliases were distinct they stay so if and only if no such field is named
like one of them; then every condition that is compiled and every term that is added belongs to one
entity of the query. -/
theorem nodup_aliases_iff_unused (settings : Settings) (mode : Connective) (filters : Filters)
    (sorting : Sorting) (query : Query) (distinct : query.aliases.Nodup) :
    let attempts := Filter.reached filters.entries
    let applied := (Filter.apply settings mode filters query).query
    let joined := query.newAliases (Filter.paths (Entries.names attempts))
    let sorted := (sorting.apply query).query
    let joinedBySort := query.newAliases sorting.names
    (applied.aliases = query.aliases ++ joined ∧
      (applied.aliases.Nodup ↔ ∀ segment ∈ joined, segment ∉ query.aliases) ∧
      (applied.aliases.Nodup → ∀ attempt ∈ attempts, ∀ leaf,
        (Filter.compileMember settings attempt.2 attempt.1 query).result = .ok leaf →
          ∃ column, leaf.column? = some column ∧ applied.BelongsToOne column)) ∧
    (sorted.aliases = query.aliases ++ joinedBySort ∧
      (sorted.aliases.Nodup ↔ ∀ segment ∈ joinedBySort, segment ∉ query.aliases) ∧
      (sorted.aliases.Nodup → ∃ terms, sorted.order = query.order ++ terms ∧
        ∀ term ∈ terms, sorted.BelongsToOne term)) := by
  intro attempts applied joined sorted joinedBySort
  have byApply : applied.aliases = query.aliases ++ joined :=
    Filter.aliases_applyEntries settings mode filters.entries query
  have bySort : sorted.aliases = query.aliases ++ joinedBySort := sorting.aliases_apply query
  refine ⟨⟨byApply, ?_, fun stay attempt among leaf compiled => ?_⟩, bySort, ?_, fun stay => ?_⟩
  · rw [byApply]
    exact query.nodup_append_newAliases_iff _ distinct
  · exact Filter.belongsToOne_of_compileMember stay among compiled
  · rw [bySort]
    exact query.nodup_append_newAliases_iff _ distinct
  · exact sorting.belongsToOne_of_apply stay

theorem nodup_aliases_iff_unused_failing :
    let query : Query :=
      { roots := [⟨"test", "t"⟩, ⟨"person", "owner"⟩], joins := [⟨.inner, "t.boss", "b"⟩] }
    let filters : Filters :=
      Table.ofList [("boss.a___or___team.b", .int 1), ("site.c__between", .int 5), ("owner.d", .null)]
    let sorting : Sorting := Table.ofList [("team.rank", "asc"), ("owner.name", "desc")]
    let applied := (Filter.apply {} .and filters query).query
    query.aliases.Nodup ∧ applied.aliases = ["t", "owner", "b", "team", "site"] ∧
      applied.aliases.Nodup ∧ applied.BelongsToOne "team.b" ∧
      ¬(sorting.apply query).query.aliases.Nodup := by
  intro query filters sorting applied
  have distinct : query.aliases.Nodup := by decide
  obtain ⟨⟨-, kept, one⟩, -, lost, -⟩ :=
    nodup_aliases_iff_unused {} .and filters sorting query distinct
  have stay : applied.aliases.Nodup := kept.2 (by decide +kernel)
  have reached : Filter.reached filters.entries =
      [("boss.a", .int 1), ("team.b", .int 1), ("site.c__between", .int 5)] := by
    with_unfolding_all rfl
  have compiled : (Filter.compileMember {} (.int 1) "team.b" query).result =
      .ok (.comparison "team.b" "=" ":f15b2e") := by
    have plain : (Field.ofMember "team.b").operator? = none := by decide +kernel
    have named : Filter.parameterName {} "team.b" = "f15b2e" := by decide +kernel
    rw [Filter.compileMember_of_takes rfl (by decide +kernel)]
    simp only [Filter.leafIn, Filter.leaf, plain, named]
    with_unfolding_all rfl
  obtain ⟨column, same, belongs⟩ := one stay ("team.b", .int 1) (by rw [reached]; simp) _ compiled
  obtain rfl := Option.some.inj same
  refine ⟨distinct, by decide +kernel, stay, belongs, fun sorted => ?_⟩
  exact lost.1 sorted "owner" (by decide +kernel) (by decide)

theorem nodup_aliases_lost :
    let query : Query := { roots := [⟨"test", "t"⟩, ⟨"person", "owner"⟩] }
    let filters : Filters := Table.ofList [("owner.name", .text "x")]
    let applied := Filter.apply {} .and filters query
    query.aliases.Nodup ∧ applied.result = .ok () ∧
      applied.query.aliases = ["t", "owner", "owner"] ∧ ¬applied.query.aliases.Nodup ∧
      applied.query.condition =
        some (.group .and [.group .or [.comparison "owner.name" "=" ":fc303c"]]) := by
  intro query filters applied
  have aliases : applied.query.aliases = ["t", "owner", "owner"] := by decide +kernel
  refine ⟨by decide, ?_, aliases, ?_, ?_⟩
  · with_unfolding_all rfl
  · rw [aliases]
    decide
  · have plain : (Field.ofMember "owner.name").operator? = none := by decide +kernel
    have named : Filter.parameterName {} "owner.name" = "fc303c" := by decide +kernel
    have taken : ∀ entry ∈ filters.entries, Filter.Takes entry := by
      unfold Filter.Takes
      decide +kernel
    have members : Key.members "owner.name" = ["owner.name"] := by decide +kernel
    have entries : filters.entries = [("owner.name", .text "x")] := rfl
    change (Filter.applyEntries {} .and filters.entries query).query.condition = _
    rw [Filter.applyEntries_of_takes rfl taken, entries]
    simp only [Filter.afterEntries, List.map_cons, List.map_nil, Filter.clauseIn, members,
      Filter.leafIn, Filter.leaf, plain, named]
    with_unfolding_all rfl

end WhereClause
