import WhereClause.Proofs.Composition
import WhereClause.Proofs.Histories

/-! Queries that refer to nothing but themselves: the columns of the condition and the order terms
start with an alias of the query, and placeholders name bound parameters. Main statement: whatever
steps build up a query from nothing, failing ones included, it is such a query after each of them.
Conditions that a caller writes by hand are not among the steps. -/
namespace WhereClause

namespace Predicate

def column? : Predicate → Option String
  | comparison left _ _ => some left
  | isIn column _ => some column
  | between column _ _ => some column
  | isNull column => some column
  | isNotNull column => some column
  | group _ _ => none

def IsLeafOf (leaf tree : Predicate) : Prop :=
  leaf.isGroup = false ∧ (leaf = tree ∨ Inside leaf tree)

/-- Whether a leaf has its column behind one of the aliases, and, where it is an equality or a
search, one of the names as its placeholder. -/
structure Refers (aliases names : List String) (leaf : Predicate) : Prop where
  column : ∃ aliasName ∈ aliases, ∃ field, leaf.column? = some (qualified aliasName field)
  placeholder : ∀ left symbol right, leaf = comparison left symbol right →
    symbol = "=" ∨ symbol = "LIKE" → ∃ name ∈ names, right = ":" ++ name

theorem Refers.mono {aliases names moreAliases moreNames : List String} {leaf : Predicate}
    (h : leaf.Refers aliases names) (inAliases : aliases ⊆ moreAliases)
    (inNames : names ⊆ moreNames) : leaf.Refers moreAliases moreNames where
  column := by
    obtain ⟨aliasName, among, field⟩ := h.column
    exact ⟨aliasName, inAliases among, field⟩
  placeholder left symbol right same binds := by
    obtain ⟨name, among, written⟩ := h.placeholder left symbol right same binds
    exact ⟨name, inNames among, written⟩

theorem refers_of_column {aliases names : List String} {leaf : Predicate} {aliasName field : String}
    (known : aliasName ∈ aliases) (column : leaf.column? = some (qualified aliasName field))
    (unbound : ∀ left right,
      leaf ≠ comparison left "=" right ∧ leaf ≠ comparison left "LIKE" right) :
    leaf.Refers aliases names where
  column := ⟨aliasName, known, field, column⟩
  placeholder left symbol right same binds := by
    rcases binds with rfl | rfl
    · exact absurd same (unbound left right).1
    · exact absurd same (unbound left right).2

theorem refers_placeholder {aliases names : List String} {aliasName name : String}
    (known : aliasName ∈ aliases) (bound : name ∈ names) (field symbol : String) :
    (comparison (qualified aliasName field) symbol (":" ++ name)).Refers aliases names where
  column := ⟨aliasName, known, field, rfl⟩
  placeholder left symbol right same _ := by
    cases same
    exact ⟨name, bound, rfl⟩

theorem eq_of_isLeafOf {leaf tree : Predicate} (h : IsLeafOf leaf tree)
    (single : tree.isGroup = false) : leaf = tree := by
  rcases h.2 with same | (_ | _)
  · exact same
  · cases single
  · cases single

theorem isLeafOf_group {leaf : Predicate} {connective : Connective} {parts : List Predicate} :
    IsLeafOf leaf (group connective parts) ↔ ∃ part ∈ parts, IsLeafOf leaf part := by
  constructor
  · rintro ⟨single, rfl | inside⟩
    · cases single
    · obtain ⟨part, among, within⟩ := inside_group.1 inside
      exact ⟨part, among, single, within⟩
  · rintro ⟨part, among, single, within⟩
    exact ⟨single, Or.inr (inside_group.2 ⟨part, among, within⟩)⟩

theorem isLeafOf_add {leaf predicate part : Predicate} (h : IsLeafOf leaf (predicate.add part)) :
    IsLeafOf leaf predicate ∨ IsLeafOf leaf part := by
  unfold add at h
  split at h
  · split at h
    · exact Or.inl h
    · obtain ⟨inner, among, within⟩ := isLeafOf_group.1 h
      rcases List.mem_append.1 among with earlier | last
      · exact Or.inl (isLeafOf_group.2 ⟨inner, earlier, within⟩)
      · exact Or.inr (List.mem_singleton.1 last ▸ within)
  · exact Or.inl h

theorem not_isLeafOf_empty {leaf : Predicate} {connective : Connective} :
    ¬IsLeafOf leaf (group connective []) := by
  intro h
  obtain ⟨part, among, -⟩ := isLeafOf_group.1 h
  cases among

theorem isLeafOf_groupOn {leaf : Predicate} {connective : Connective} {earlier : Option Predicate}
    (h : IsLeafOf leaf (groupOn connective earlier)) :
    ∃ tree, earlier = some tree ∧ IsLeafOf leaf tree := by
  unfold groupOn at h
  split at h
  · exact absurd h not_isLeafOf_empty
  · split at h
    · exact ⟨_, rfl, h⟩
    · exact ⟨_, rfl, (isLeafOf_add h).resolve_left not_isLeafOf_empty⟩
  · exact ⟨_, rfl, (isLeafOf_add h).resolve_left not_isLeafOf_empty⟩

end Predicate

namespace Query

theorem rootAlias_mem {query : Query} {root : String} (h : query.rootAlias? = some root) :
    root ∈ query.aliases :=
  List.mem_of_mem_head? h

theorem joinedAlias_mem {query : Query} {source aliasName : String}
    (h : query.joinedAlias? source = some aliasName) : aliasName ∈ query.aliases := by
  obtain ⟨join, found, rfl⟩ := Option.map_eq_some_iff.1 h
  have among := List.mem_reverse.1 (List.mem_of_find?_eq_some found)
  exact List.mem_append_right _ (List.mem_map_of_mem among)

theorem aliases_subset_joinPaths (query : Query) (base : String) (paths : List String) :
    query.aliases ⊆ (query.joinPaths base paths).aliases := by
  intro aliasName among
  simp only [aliases, joinPaths, List.map_append, ← List.append_assoc]
  exact List.mem_append_left _ among

theorem target_aliasName_mem {query : Query} {root path : String} {paths : List String}
    (h : query.rootAlias? = some root) (asked : path ∈ paths) :
    (query.target root path).aliasName ∈ (query.joinPaths root paths).aliases := by
  have kept := query.aliases_subset_joinPaths root paths
  rw [target]
  cases split : Key.splitPath? path with
  | none => exact kept (rootAlias_mem h)
  | some parts =>
    obtain ⟨segment, leaf⟩ := parts
    dsimp only
    cases joined : query.joinedAlias? (qualified root segment) with
    | some aliasName => exact kept (joinedAlias_mem joined)
    | none =>
      have starts : Key.segment? path = some segment := by rw [Key.segment?, split]; rfl
      have new : segment ∈ query.newSegments root paths :=
        (mem_newSegments query root paths segment).2
          ⟨List.mem_filterMap.2 ⟨path, asked, starts⟩, joined⟩
      have joinedHere : (query.joinPaths root paths).joinedAlias? (qualified root segment) =
          some segment := by
        rw [joinedAlias?_joinPaths, if_pos new]
      exact joinedAlias_mem joinedHere

/-- Whether a query refers to its own aliases and parameters only. -/
structure Closed (query : Query) : Prop where
  leaves : ∀ tree, query.condition = some tree → ∀ leaf : Predicate, leaf.IsLeafOf tree →
    leaf.Refers query.aliases query.parameters.names
  order : ∀ term ∈ query.order, ∃ aliasName ∈ query.aliases, ∃ rest, term = qualified aliasName rest
  names : query.parameters.names.Nodup

theorem closed_empty : Closed empty where
  leaves _ same := by cases same
  order := List.forall_mem_nil _
  names := List.nodup_nil

theorem Closed.mono {query after : Query} (h : query.Closed)
    (condition : after.condition = query.condition) (order : after.order = query.order)
    (aliases : query.aliases ⊆ after.aliases)
    (names : query.parameters.names ⊆ after.parameters.names) : after.Closed where
  leaves tree same leaf isLeaf :=
    (h.leaves tree (condition ▸ same) leaf isLeaf).mono aliases names
  order term among := by
    obtain ⟨aliasName, known, rest⟩ := h.order term (order ▸ among)
    exact ⟨aliasName, aliases known, rest⟩
  names := after.parameters.nodup_names

theorem names_subset_grow (query : Query) (base : String) (paths : List String)
    (bindings : List (String × Value)) :
    query.parameters.names ⊆ (query.grow base paths bindings).parameters.names :=
  fun _ among => (Table.mem_names_putAll bindings query.parameters).2 (Or.inl among)

theorem Closed.grow {query : Query} (h : query.Closed) (base : String) (paths : List String)
    (bindings : List (String × Value)) : (query.grow base paths bindings).Closed :=
  h.mono rfl rfl (query.aliases_subset_joinPaths base paths)
    (query.names_subset_grow base paths bindings)

theorem Closed.restrict {query : Query} (h : query.Closed) (connective : Connective)
    {predicate : Predicate}
    (refers : ∀ leaf : Predicate, leaf.IsLeafOf predicate →
      leaf.Refers query.aliases query.parameters.names) :
    (query.restrict connective predicate).Closed where
  leaves tree same leaf isLeaf := by
    rw [← Option.some.inj same] at isLeaf
    rcases Predicate.isLeafOf_add isLeaf with earlier | added
    · obtain ⟨tree, condition, within⟩ := Predicate.isLeafOf_groupOn earlier
      exact h.leaves tree condition leaf within
    · exact refers leaf added
  order := h.order
  names := h.names

end Query

namespace Filter

theorem isGroup_leaf (settings : Settings) (value : Value) (member : String) (target : Target) :
    (leaf settings value member target).isGroup = false := by
  unfold leaf
  dsimp only
  repeat' split
  all_goals rfl

theorem refers_leaf {settings : Settings} {value : Value} {member : String} {target : Target}
    {aliases names : List String} (known : target.aliasName ∈ aliases)
    (bound : ∀ binding, binding? settings value member = some binding → binding.1 ∈ names) :
    (leaf settings value member target).Refers aliases names := by
  have unbound : ∀ {leaf : Predicate}, leaf.column? = some target.column →
      (∀ left right, leaf ≠ .comparison left "=" right ∧ leaf ≠ .comparison left "LIKE" right) →
        leaf.Refers aliases names :=
    fun column other => Predicate.refers_of_column known column other
  unfold binding? at bound
  unfold leaf
  dsimp only
  generalize (Field.ofMember member).operator? = operator? at bound ⊢
  cases operator? with
  | none =>
    dsimp only
    split
    · exact Predicate.refers_placeholder known (bound _ rfl) target.leaf "="
    · exact Predicate.refers_placeholder known (bound _ rfl) member "="
  | some operator =>
    cases operator with
    | like => exact Predicate.refers_placeholder known (bound _ rfl) target.leaf "LIKE"
    | compare comparison => cases comparison <;> exact unbound rfl (by simp)
    | isIn => exact unbound rfl (by simp)
    | between => dsimp only; split <;> exact unbound rfl (by simp)
    | null => dsimp only; split <;> exact unbound rfl (by simp)
    | is => dsimp only; split <;> exact unbound rfl (by simp)

theorem refers_clauseIn {settings : Settings} {query : Query} {root : String}
    {entry : String × Value} (source : query.rootAlias? = some root) (leaf : Predicate)
    (h : leaf.IsLeafOf (clauseIn settings query root entry)) :
    let grown := query.grow root (paths (Key.members entry.1))
      (bindings settings entry.2 (Key.members entry.1))
    leaf.Refers grown.aliases grown.parameters.names := by
  intro grown
  obtain ⟨part, among, within⟩ := Predicate.isLeafOf_group.1 h
  obtain ⟨member, inKey, rfl⟩ := List.mem_map.1 among
  rw [Predicate.eq_of_isLeafOf within (isGroup_leaf settings entry.2 member _)]
  refine refers_leaf ?_ fun binding binds => ?_
  · exact Query.target_aliasName_mem source (List.mem_map_of_mem inKey)
  · refine (Table.mem_names_putAll _ query.parameters).2 (Or.inr (List.mem_map_of_mem ?_))
    exact List.mem_filterMap.2 ⟨member, inKey, binds⟩

end Filter

namespace Query

theorem Closed.sort {query : Query} {root : String} (h : query.Closed)
    (source : query.rootAlias? = some root) (entries : List (String × String)) :
    (Sorting.afterTerms root entries query).Closed where
  leaves := (h.grow root (Entries.names entries) []).leaves
  order term among := by
    rcases List.mem_append.1 among with earlier | added
    · exact (h.grow root (Entries.names entries) []).order term earlier
    · obtain ⟨entry, inEntries, rfl⟩ := List.mem_map.1 added
      refine ⟨_, target_aliasName_mem source (List.mem_map_of_mem inEntries),
        (query.target root entry.1).leaf ++ " " ++ entry.2, ?_⟩
      simp only [Target.column, qualified, String.append_assoc]
  names := h.names

theorem outlasts_closed : Outlasts Closed where
  grow _ base paths bindings h := h.grow base paths bindings
  restrict _ mode _ _ _ h source _ := (h.grow _ _ _).restrict mode (Filter.refers_clauseIn source)
  sort _ _ entries h source := h.sort source entries

end Query

/-- A step in building up a query: roots, joins and parameters of a caller's own, and calls. -/
inductive Step where
  | root (entity aliasName : String)
  | join (source aliasName : String)
  | bind (name : String) (value : Value)
  | joinField (base field : String)
  | registered (registry : Registry) (settings : Settings) (name : String)
  | call (call : Call)

namespace Step

def run : Step → Query → Query
  | root entity aliasName, query => query.addRoot entity aliasName
  | join source aliasName, query => query.leftJoin source aliasName
  | bind name value, query => query.bind name value
  | joinField base field, query => (query.joinField base field).2
  | registered registry settings name, query => (registry.apply settings name query).query
  | call made, query => made.run query

def runAll (steps : List Step) (query : Query) : Query :=
  steps.foldl (fun query step => step.run query) query

end Step

namespace Query

theorem Closed.addRoot {query : Query} (h : query.Closed) (entity aliasName : String) :
    (query.addRoot entity aliasName).Closed := by
  refine h.mono rfl rfl (fun known among => ?_) (List.Subset.refl _)
  rcases List.mem_append.1 among with inRoots | inJoins
  · rw [aliases, Query.addRoot, List.map_append]
    exact List.mem_append_left _ (List.mem_append_left _ inRoots)
  · exact List.mem_append_right _ inJoins

theorem Closed.leftJoin {query : Query} (h : query.Closed) (source aliasName : String) :
    (query.leftJoin source aliasName).Closed := by
  refine h.mono rfl rfl (fun known among => ?_) (List.Subset.refl _)
  rw [aliases, Query.leftJoin, List.map_append, ← List.append_assoc]
  exact List.mem_append_left _ among

theorem Closed.bind {query : Query} (h : query.Closed) (name : String) (value : Value) :
    (query.bind name value).Closed :=
  h.mono rfl rfl (List.Subset.refl _) fun _ among =>
    (Table.mem_names_putAll [(name, value)] query.parameters).2 (Or.inl among)

theorem Closed.step {query : Query} (h : query.Closed) (step : Step) : (step.run query).Closed := by
  cases step with
  | root entity aliasName => exact h.addRoot entity aliasName
  | join source aliasName => exact h.leftJoin source aliasName
  | bind name value => exact h.bind name value
  | joinField base field =>
    unfold Step.run joinField
    dsimp only
    split
    · exact h
    · exact h.leftJoin _ _
  | registered registry settings name =>
    unfold Step.run Registry.apply
    dsimp only
    split
    · exact outlasts_closed.form settings _ h
    · exact h
  | call made => exact outlasts_closed.call made h

/-- Whatever steps build up a query from nothing, failing ones included, and whatever settings they
have: every leaf of the condition has its column behind an alias of the query, every equality and
every search has a bound parameter for its placeholder, every order term begins with an alias and a
dot, and no two parameters have one name. -/
theorem closed_runAll (steps : List Step) : (Step.runAll steps empty).Closed := by
  have run : ∀ query : Query, query.Closed → (Step.runAll steps query).Closed := by
    induction steps with
    | nil => exact fun _ h => h
    | cons step rest ih => exact fun query h => ih (step.run query) (h.step step)
  exact run empty closed_empty

end Query

end WhereClause
