import WhereClause.Filter
import WhereClause.Proofs.Joins

/-! What an entry compiles to, said from the query as it was before: which values a member takes,
the condition it states, the parameter it binds, and the query that is left. Compiling resolves and
binds member after member on a query that changes under way, and no member's condition or error hangs
on what the others left behind. -/
namespace WhereClause

def Table.putAll {α : Type} (table : Table α) (entries : List (String × α)) : Table α :=
  entries.foldl (fun table entry => table.put entry.1 entry.2) table

theorem Table.putAll_cons {α : Type} (table : Table α) (entry : String × α)
    (rest : List (String × α)) :
    table.putAll (entry :: rest) = (table.put entry.1 entry.2).putAll rest := rfl

theorem Table.putAll_append {α : Type} (table : Table α) (entries more : List (String × α)) :
    table.putAll (entries ++ more) = (table.putAll entries).putAll more :=
  List.foldl_append

theorem Table.mem_names_putAll {α : Type} {name : String} (entries : List (String × α))
    (table : Table α) :
    name ∈ (table.putAll entries).names ↔ name ∈ table.names ∨ name ∈ Entries.names entries := by
  induction entries generalizing table with
  | nil => simp [putAll]
  | cons entry rest ih =>
    have put : name ∈ (table.put entry.1 entry.2).names ↔ name ∈ table.names ∨ name = entry.1 := by
      rw [names_put]
      split
      · next known => exact ⟨Or.inl, fun h => h.elim id fun same => same ▸ known⟩
      · rw [List.mem_append, List.mem_singleton]
    rw [putAll_cons, ih, put, Entries.names_cons, List.mem_cons, or_assoc]

theorem Entries.upsert_of_not_mem {α : Type} {name : String} {entries : List (String × α)}
    (item : α) (h : name ∉ names entries) : upsert name item entries = entries ++ [(name, item)] := by
  induction entries with
  | nil => rfl
  | cons entry rest ih =>
    obtain ⟨here, later⟩ := not_or.1 (fun among => h (List.mem_cons.2 among))
    rw [upsert, if_neg (Ne.symm here), ih later, List.cons_append]

theorem Table.entries_putAll {α : Type} {entries : List (String × α)} {table : Table α}
    (h : (Entries.names (table.entries ++ entries)).Nodup) :
    (table.putAll entries).entries = table.entries ++ entries := by
  induction entries generalizing table with
  | nil => rw [putAll, List.foldl_nil, List.append_nil]
  | cons entry rest ih =>
    have new : entry.1 ∉ Entries.names table.entries := by
      rw [Entries.names, List.map_append] at h
      intro known
      exact (List.nodup_append.1 h).2.2 _ known _ List.mem_cons_self rfl
    have put : (table.put entry.1 entry.2).entries = table.entries ++ [entry] :=
      Entries.upsert_of_not_mem entry.2 new
    have whole : table.entries ++ entry :: rest = (table.put entry.1 entry.2).entries ++ rest := by
      rw [put, List.append_assoc, List.singleton_append]
    rw [whole] at h
    rw [putAll_cons, ih h, whole]

theorem Table.entries_ofList {α : Type} {entries : List (String × α)}
    (h : (Entries.names entries).Nodup) : (ofList entries).entries = entries :=
  entries_putAll h

def Query.grow (query : Query) (base : String) (paths : List String)
    (bindings : List (String × Value)) : Query :=
  { query.joinPaths base paths with parameters := query.parameters.putAll bindings }

namespace Query

theorem grow_grow (query : Query) (base : String) (paths more : List String)
    (bindings further : List (String × Value)) :
    (query.grow base paths bindings).grow base more further =
      query.grow base (paths ++ more) (bindings ++ further) := by
  have apart : (query.grow base paths bindings).grow base more further =
      { (query.joinPaths base paths).joinPaths base more with
        parameters := (query.parameters.putAll bindings).putAll further } := rfl
  rw [apart, joinPaths_joinPaths, ← Table.putAll_append]
  rfl

theorem grow_nil (query : Query) (base : String) : query.grow base [] [] = query := by
  rw [grow, joinPaths_nil, Table.putAll, List.foldl_nil]

theorem target_grow (query : Query) (base : String) (paths : List String)
    (bindings : List (String × Value)) (path : String) :
    (query.grow base paths bindings).target base path = query.target base path :=
  query.target_joinPaths base paths path

theorem rootAlias?_grow {query : Query} {root : String} (base : String) (paths : List String)
    (bindings : List (String × Value)) (h : query.rootAlias? = some root) :
    (query.grow base paths bindings).rootAlias? = some root :=
  rootAlias?_joinPaths base paths h

end Query

theorem Key.members_ne_nil (key : String) : Key.members key ≠ [] := by
  rw [members, Ne, List.map_eq_nil_iff]
  exact Text.splitAll_ne_nil _ _

theorem Key.members_of_mem {key member : String} (h : member ∈ members key) :
    members member = [member] := by
  obtain ⟨piece, among, rfl⟩ := List.mem_map.1 h
  rw [members, String.toList_ofList,
    Text.splitAll_of_not_occurs (Text.not_occurs_of_mem_splitAll among), List.map_singleton]

namespace Filter

/-- Whether an operator takes a value: `in` and `null` take any, `between` a list of two, `is` null
and two words, all others whatever is no list. -/
def accepts : Option Operator → Value → Bool
  | some .isIn, _ => true
  | some .null, _ => true
  | some .between, .list [_, _] => true
  | some .between, _ => false
  | some .is, .null => true
  | some .is, .text word => word = "null" || word = "not_null"
  | some .is, _ => false
  | _, value => !value.isList

def refusal : Option Operator → Value → FilterError
  | some .is, value => .invalidIsValue value.display
  | some .between, _ => .wrongShape (some .between) .pair
  | operator?, _ => .wrongShape operator? .scalar

/-- The condition on the field that a member leads to, for a value that its operator takes. Only an
equality without a joined entity names the whole member instead. -/
def leaf (settings : Settings) (value : Value) (member : String) (target : Target) : Predicate :=
  let field := Field.ofMember member
  let placeholder := ":" ++ parameterName settings member
  match field.operator? with
  | none =>
    .comparison (if field.isDotted then target.column else qualified target.aliasName member)
      "=" placeholder
  | some .like => .comparison target.column "LIKE" placeholder
  | some (.compare .less) => .comparison target.column "<" (comparand value)
  | some (.compare .lessOrEqual) => .comparison target.column "<=" (comparand value)
  | some (.compare .greater) => .comparison target.column ">" (comparand value)
  | some (.compare .greaterOrEqual) => .comparison target.column ">=" (comparand value)
  | some .isIn => .isIn target.column (choices value)
  | some .between =>
    match value with
    | .list [low, high] => .between target.column (bound low) (bound high)
    | _ => .between target.column "" ""
  | some .null => if value.holds then .isNull target.column else .isNotNull target.column
  | some .is =>
    match value with
    | .text "not_null" => .isNotNull target.column
    | _ => .isNull target.column

def binding? (settings : Settings) (value : Value) (member : String) : Option (String × Value) :=
  match (Field.ofMember member).operator? with
  | none => some (parameterName settings member, value)
  | some .like => some (parameterName settings member, .text (pattern settings value))
  | _ => none

def takes (value : Value) (member : String) : Bool :=
  accepts (Field.ofMember member).operator? value

theorem clause_eq (settings : Settings) (member : String) (target : Target) (value : Value) :
    clause settings member target value =
      if takes value member then
        .ok ⟨leaf settings value member target, binding? settings value member⟩
      else .error (refusal (Field.ofMember member).operator? value) := by
  unfold clause takes leaf binding?
  dsimp only
  generalize (Field.ofMember member).operator? = operator?
  cases operator? with
  | none => cases value <;> rfl
  | some operator =>
    cases operator with
    | like => cases value <;> rfl
    | isIn => rfl
    | between =>
      cases value with
      | list items => rcases items with _ | ⟨low, _ | ⟨high, _ | _⟩⟩ <;> rfl
      | _ => rfl
    | compare comparison => cases comparison <;> cases value <;> rfl
    | null => rfl
    | is =>
      cases value with
      | text word =>
        by_cases null : word = "null"
        · subst null
          rfl
        · by_cases notNull : word = "not_null"
          · subst notNull
            rfl
          · simp [accepts, refusal, nullTest, null, notNull, Except.bind]
      | _ => rfl

def paths (members : List String) : List String :=
  members.map fun member => (Field.ofMember member).path

def bindings (settings : Settings) (value : Value) (members : List String) :
    List (String × Value) :=
  members.filterMap (binding? settings value)

def leafIn (settings : Settings) (value : Value) (query : Query) (root member : String) :
    Predicate :=
  leaf settings value member (query.target root (Field.ofMember member).path)

section

variable {settings : Settings} {value : Value} {query : Query} {root : String}

theorem paths_append (members more : List String) :
    paths (members ++ more) = paths members ++ paths more :=
  List.map_append

theorem bindings_append (members more : List String) :
    bindings settings value (members ++ more) =
      bindings settings value members ++ bindings settings value more :=
  List.filterMap_append

theorem leafIn_grow (asked : List String) (bound : List (String × Value)) :
    leafIn settings value (query.grow root asked bound) root =
      leafIn settings value query root := by
  funext member
  rw [leafIn, Query.target_grow, leafIn]

theorem isEmpty_leaf (settings : Settings) (value : Value) (member : String) (target : Target) :
    (leaf settings value member target).isEmpty = false := by
  unfold leaf
  dsimp only
  repeat' split
  all_goals rfl

theorem compileMember_of_rootAlias?_none (member : String) (h : query.rootAlias? = none) :
    compileMember settings value member query = ⟨query, .error .missingSource⟩ := by
  rw [compileMember, h]

theorem compileMember_of_takes {member : String} (h : query.rootAlias? = some root)
    (taken : takes value member = true) :
    compileMember settings value member query =
      ⟨query.grow root (paths [member]) (bindings settings value [member]),
        .ok (leafIn settings value query root member)⟩ := by
  rw [compileMember, h]
  simp only [Query.resolve_eq, clause_eq, taken, if_true]
  cases binding : binding? settings value member with
  | none =>
    simp only [Clause.bindIn, bindings, List.filterMap_cons, binding, List.filterMap_nil]
    rfl
  | some parameter =>
    simp only [Clause.bindIn, bindings, List.filterMap_cons, binding, List.filterMap_nil]
    rfl

theorem compileMember_of_not_takes {member : String} (h : query.rootAlias? = some root)
    (refused : takes value member = false) :
    compileMember settings value member query =
      ⟨query.grow root (paths [member]) [],
        .error (refusal (Field.ofMember member).operator? value)⟩ := by
  rw [compileMember, h]
  simp only [Query.resolve_eq, clause_eq, refused, Bool.false_eq_true, if_false]
  rfl

theorem compileMembers_of_takes {members : List String} (h : query.rootAlias? = some root)
    (taken : ∀ member ∈ members, takes value member = true) :
    compileMembers settings value members query =
      ⟨query.grow root (paths members) (bindings settings value members),
        .ok (members.map (leafIn settings value query root))⟩ := by
  induction members generalizing query with
  | nil => rw [compileMembers, paths, bindings, List.map_nil, List.filterMap_nil, Query.grow_nil]; rfl
  | cons member rest ih =>
    have first := taken member List.mem_cons_self
    have later := fun other (inRest : other ∈ rest) => taken other (List.mem_cons_of_mem _ inRest)
    rw [compileMembers, compileMember_of_takes h first, Outcome.andThen_ok,
      ih (Query.rootAlias?_grow _ _ _ h) later, Outcome.andThen_ok, Query.grow_grow,
      leafIn_grow, ← paths_append, ← bindings_append]
    rfl

theorem compileMembers_append (settings : Settings) (value : Value) (members more : List String)
    (query : Query) :
    compileMembers settings value (members ++ more) query =
      (compileMembers settings value members query).andThen fun first query =>
        (compileMembers settings value more query).andThen fun later query =>
          ⟨query, .ok (first ++ later)⟩ := by
  induction members generalizing query with
  | nil =>
    rw [List.nil_append, compileMembers, Outcome.andThen_ok]
    cases compileMembers settings value more query with
    | mk left result => cases result <;> rfl
  | cons member rest ih =>
    rw [List.cons_append, compileMembers, compileMembers]
    cases compileMember settings value member query with
    | mk left result =>
      cases result with
      | error => rfl
      | ok predicate =>
        rw [Outcome.andThen_ok, Outcome.andThen_ok, ih]
        cases compileMembers settings value rest left with
        | mk left result =>
          cases result with
          | error => rfl
          | ok predicates =>
            simp only [Outcome.andThen_ok]
            cases compileMembers settings value more left with
            | mk left result => cases result <;> rfl

theorem compileMembers_of_refused {taken left : List String} {refused : String}
    (h : query.rootAlias? = some root) (before : ∀ member ∈ taken, takes value member = true)
    (here : takes value refused = false) :
    compileMembers settings value (taken ++ refused :: left) query =
      ⟨query.grow root (paths (taken ++ [refused])) (bindings settings value taken),
        .error (refusal (Field.ofMember refused).operator? value)⟩ := by
  rw [compileMembers_append, compileMembers_of_takes h before, Outcome.andThen_ok, compileMembers,
    compileMember_of_not_takes (Query.rootAlias?_grow _ _ _ h) here, Outcome.andThen_error,
    Outcome.andThen_error, Query.grow_grow, ← paths_append, List.append_nil]

theorem ofParts_leaves (connective : Connective) (members : List String) :
    Predicate.ofParts connective (members.map (leafIn settings value query root)) =
      .group connective (members.map (leafIn settings value query root)) := by
  have kept : ∀ part ∈ members.map (leafIn settings value query root),
      (!part.isEmpty) = true := by
    intro part among
    obtain ⟨member, -, rfl⟩ := List.mem_map.1 among
    rw [leafIn, isEmpty_leaf]
    rfl
  rw [Predicate.ofParts, List.filter_eq_self.2 kept]

theorem compile_of_rootAlias?_none (key : String) (h : query.rootAlias? = none) :
    compile settings key value query = ⟨query, .error .missingSource⟩ := by
  obtain ⟨member, rest, split⟩ := List.exists_cons_of_ne_nil (Key.members_ne_nil key)
  rw [compile, split, compileMembers, compileMember_of_rootAlias?_none member h,
    Outcome.andThen_error, Outcome.andThen_error]

theorem compile_of_takes {key : String} (h : query.rootAlias? = some root)
    (taken : ∀ member ∈ Key.members key, takes value member = true) :
    compile settings key value query =
      ⟨query.grow root (paths (Key.members key)) (bindings settings value (Key.members key)),
        .ok (.group .or ((Key.members key).map (leafIn settings value query root)))⟩ := by
  rw [compile, compileMembers_of_takes h taken, Outcome.andThen_ok, ofParts_leaves]

theorem compile_of_refused {key : String} {taken left : List String} {refused : String}
    (h : query.rootAlias? = some root) (split : Key.members key = taken ++ refused :: left)
    (before : ∀ member ∈ taken, takes value member = true)
    (here : takes value refused = false) :
    compile settings key value query =
      ⟨query.grow root (paths (taken ++ [refused])) (bindings settings value taken),
        .error (refusal (Field.ofMember refused).operator? value)⟩ := by
  rw [compile, split, compileMembers_of_refused h before here, Outcome.andThen_error]

theorem takes_or_refused (value : Value) (members : List String) :
    (∀ member ∈ members, takes value member = true) ∨
      ∃ taken refused left, members = taken ++ refused :: left ∧
        (∀ member ∈ taken, takes value member = true) ∧ takes value refused = false := by
  induction members with
  | nil => exact Or.inl (List.forall_mem_nil _)
  | cons member rest ih =>
    cases here : takes value member with
    | false =>
      exact Or.inr ⟨[], member, rest, rfl, List.forall_mem_nil _, here⟩
    | true =>
      rcases ih with all | ⟨taken, refused, left, rfl, before, last⟩
      · exact Or.inl (List.forall_mem_cons.2 ⟨here, all⟩)
      · exact Or.inr ⟨member :: taken, refused, left, rfl,
          List.forall_mem_cons.2 ⟨here, before⟩, last⟩

theorem takes_of_compile {key : String} {predicate : Predicate}
    (h : (compile settings key value query).result = .ok predicate) :
    ∃ root, query.rootAlias? = some root ∧
      (∀ member ∈ Key.members key, takes value member = true) ∧
      predicate = .group .or ((Key.members key).map (leafIn settings value query root)) := by
  cases source : query.rootAlias? with
  | none =>
    rw [compile_of_rootAlias?_none key source] at h
    cases h
  | some root =>
    rcases takes_or_refused value (Key.members key) with
      all | ⟨taken, refused, left, split, before, here⟩
    · rw [compile_of_takes source all] at h
      cases h
      exact ⟨root, rfl, all, rfl⟩
    · rw [compile_of_refused source split before here] at h
      cases h

theorem takes_of_compileMember {member : String} {predicate : Predicate}
    (h : (compileMember settings value member query).result = .ok predicate) :
    query.rootAlias? ≠ none ∧ takes value member = true := by
  cases source : query.rootAlias? with
  | none =>
    rw [compileMember_of_rootAlias?_none member source] at h
    cases h
  | some root =>
    refine ⟨Option.some_ne_none root, ?_⟩
    cases here : takes value member with
    | true => rfl
    | false =>
      rw [compileMember_of_not_takes source here] at h
      cases h

theorem compileMember_error {member : String} {error : FilterError}
    (h : (compileMember settings value member query).result = .error error) :
    (query.rootAlias? = none ∧ error = .missingSource) ∨
      ∃ root, query.rootAlias? = some root ∧ takes value member = false ∧
        error = refusal (Field.ofMember member).operator? value := by
  cases source : query.rootAlias? with
  | none =>
    rw [compileMember_of_rootAlias?_none member source] at h
    cases h
    exact Or.inl ⟨rfl, rfl⟩
  | some root =>
    cases here : takes value member with
    | true =>
      rw [compileMember_of_takes source here] at h
      cases h
    | false =>
      rw [compileMember_of_not_takes source here] at h
      cases h
      exact Or.inr ⟨root, rfl, rfl, rfl⟩

end

end Filter

end WhereClause
