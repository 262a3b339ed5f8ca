import WhereClause.Proofs.Members

/-! What applying filters leaves, entry by entry. Entries that compile add one clause each to the
group of the chosen connective. The first entry that does not compile ends the work: the condition
stays as the entries before it left it, while the parameters of its members before the failing one
and the joins up to and with the failing one remain. -/
namespace WhereClause

/-- The parts that a group for further conditions starts from. A query that is built up has no
condition or a group; a group of the other connective is one part, unless it is empty. -/
def openParts (connective : Connective) : Option Predicate → List Predicate
  | none => []
  | some (.group present parts) =>
    if present = connective then parts
    else if parts.isEmpty then [] else [.group present parts]
  | some leaf => [leaf]

def conditionAfter (connective : Connective) (clauses : List Predicate)
    (earlier : Option Predicate) : Option Predicate :=
  match clauses with
  | [] => earlier
  | clauses => some (.group connective (openParts connective earlier ++ clauses))

theorem groupOn_eq (connective : Connective) (earlier : Option Predicate) :
    groupOn connective earlier = .group connective (openParts connective earlier) := by
  cases earlier with
  | none => rfl
  | some predicate =>
    cases predicate with
    | group present parts =>
      by_cases same : present = connective
      · simp [groupOn, openParts, same]
      · cases parts <;> simp [groupOn, openParts, same, Predicate.add, Predicate.isEmpty,
          Predicate.count]
    | _ => rfl

theorem conjoin_eq (connective : Connective) (earlier : Option Predicate) {clause : Predicate}
    (h : clause.isEmpty = false) :
    conjoin connective earlier clause =
      .group connective (openParts connective earlier ++ [clause]) := by
  rw [conjoin, groupOn_eq, Predicate.add, h]
  rfl

theorem openParts_group (connective : Connective) (parts : List Predicate) :
    openParts connective (some (.group connective parts)) = parts := by
  simp [openParts]

theorem conditionAfter_cons (connective : Connective) {clause : Predicate}
    (rest : List Predicate) (earlier : Option Predicate) (h : clause.isEmpty = false) :
    conditionAfter connective rest (some (conjoin connective earlier clause)) =
      conditionAfter connective (clause :: rest) earlier := by
  cases rest with
  | nil => simp only [conditionAfter, conjoin_eq connective earlier h]
  | cons next more =>
    simp only [conditionAfter, conjoin_eq connective earlier h, openParts_group,
      List.append_assoc, List.singleton_append]

def Query.joinsOf (query : Query) (members : List String) : List Join :=
  match query.rootAlias? with
  | none => []
  | some root => query.newJoins root (Filter.paths members)

namespace Filter

def membersOf (entries : List (String × Value)) : List String :=
  entries.flatMap fun entry => Key.members entry.1

def bindingsOf (settings : Settings) (entries : List (String × Value)) : List (String × Value) :=
  entries.flatMap fun entry => bindings settings entry.2 (Key.members entry.1)

def withValue (value : Value) (members : List String) : List (String × Value) :=
  members.map fun member => (member, value)

def clauseIn (settings : Settings) (query : Query) (root : String) (entry : String × Value) :
    Predicate :=
  .group .or ((Key.members entry.1).map (leafIn settings entry.2 query root))

def afterEntries (settings : Settings) (mode : Connective) (root : String)
    (entries : List (String × Value)) (query : Query) : Query :=
  { query.grow root (paths (membersOf entries)) (bindingsOf settings entries) with
    condition :=
      conditionAfter mode (entries.map (clauseIn settings query root)) query.condition }

def Takes (entry : String × Value) : Prop :=
  ∀ member ∈ Key.members entry.1, takes entry.2 member = true

/-- Where entries fail first: at a member of an entry, after the entries `before` and the members
`taken` of its own, which all compile. Conditions and errors are those on the query as it is. -/
structure FailsAt (settings : Settings) (query : Query) (entries before : List (String × Value))
    (entry : String × Value) (taken : List String) (refused : String) (error : FilterError) :
    Prop where
  entries_eq : ∃ rest, entries = before ++ entry :: rest
  members_eq : ∃ left, Key.members entry.1 = taken ++ refused :: left
  compiled : ∀ earlier ∈ before, ∃ clause,
    (compile settings earlier.1 earlier.2 query).result = .ok clause
  bound : ∀ member ∈ taken, ∃ leaf,
    (compileMember settings entry.2 member query).result = .ok leaf
  fails : (compileMember settings entry.2 refused query).result = .error error

section

variable {settings : Settings} {mode : Connective} {query : Query} {root : String}
  {entries : List (String × Value)}

theorem mem_membersOf {member : String} :
    member ∈ membersOf entries ↔ ∃ entry ∈ entries, member ∈ Key.members entry.1 :=
  List.mem_flatMap

theorem mem_bindingsOf {bound : String × Value} :
    bound ∈ bindingsOf settings entries ↔ ∃ entry ∈ entries, ∃ member ∈ Key.members entry.1,
      binding? settings entry.2 member = some bound := by
  simp only [bindingsOf, bindings, List.mem_flatMap, List.mem_filterMap]

theorem names_withValue (value : Value) (members : List String) :
    Entries.names (withValue value members) = members := by
  rw [Entries.names, withValue, List.map_map]
  exact List.map_id members

theorem membersOf_append (entries more : List (String × Value)) :
    membersOf (entries ++ more) = membersOf entries ++ membersOf more :=
  List.flatMap_append

theorem bindingsOf_append (entries more : List (String × Value)) :
    bindingsOf settings (entries ++ more) =
      bindingsOf settings entries ++ bindingsOf settings more :=
  List.flatMap_append

theorem isEmpty_clauseIn (entry : String × Value) :
    (clauseIn settings query root entry).isEmpty = false := by
  have some := List.length_pos_iff.2 (Key.members_ne_nil entry.1)
  simp only [clauseIn, Predicate.isEmpty, Predicate.count, List.length_map, decide_eq_false_iff_not]
  omega

theorem leafIn_restrict (value : Value) (predicate : Predicate) :
    leafIn settings value (query.restrict mode predicate) root =
      leafIn settings value query root := rfl

theorem rootAlias?_restrict (predicate : Predicate) :
    (query.restrict mode predicate).rootAlias? = query.rootAlias? := rfl

theorem rootAlias?_afterEntries (entries : List (String × Value))
    (h : query.rootAlias? = some root) :
    (afterEntries settings mode root entries query).rootAlias? = some root :=
  Query.rootAlias?_grow root (paths (membersOf entries)) (bindingsOf settings entries) h

theorem afterEntries_cons (entry : String × Value) (rest : List (String × Value)) :
    afterEntries settings mode root rest
        ((query.grow root (paths (Key.members entry.1))
          (bindings settings entry.2 (Key.members entry.1))).restrict mode
            (clauseIn settings query root entry)) =
      afterEntries settings mode root (entry :: rest) query := by
  have same : clauseIn settings ((query.grow root (paths (Key.members entry.1))
      (bindings settings entry.2 (Key.members entry.1))).restrict mode
        (clauseIn settings query root entry)) root = clauseIn settings query root := by
    funext other
    rw [clauseIn, leafIn_restrict, leafIn_grow, ← clauseIn]
  have grown := query.grow_grow root (paths (Key.members entry.1)) (paths (membersOf rest))
    (bindings settings entry.2 (Key.members entry.1)) (bindingsOf settings rest)
  rw [← paths_append] at grown
  rw [afterEntries, afterEntries, same, List.map_cons,
    ← conditionAfter_cons mode _ _ (isEmpty_clauseIn entry)]
  exact congrArg (fun left : Query =>
    { left with condition := conditionAfter mode (rest.map (clauseIn settings query root))
                  (some (conjoin mode query.condition (clauseIn settings query root entry))) })
    grown

theorem applyEntries_of_takes (h : query.rootAlias? = some root) (taken : ∀ entry ∈ entries, Takes entry) :
    applyEntries settings mode entries query =
      ⟨afterEntries settings mode root entries query, .ok ()⟩ := by
  induction entries generalizing query with
  | nil =>
    have same : afterEntries settings mode root [] query = query.grow root [] [] := rfl
    rw [same, Query.grow_nil, applyEntries]
  | cons entry rest ih =>
    obtain ⟨first, later⟩ := List.forall_mem_cons.1 taken
    have source := Query.rootAlias?_grow root (paths (Key.members entry.1))
      (bindings settings entry.2 (Key.members entry.1)) h
    rw [applyEntries, compile_of_takes h first, Outcome.andThen_ok, ← clauseIn,
      ih ((rootAlias?_restrict _).trans source) later, afterEntries_cons]

theorem applyEntries_append (settings : Settings) (mode : Connective)
    (entries more : List (String × Value)) (query : Query) :
    applyEntries settings mode (entries ++ more) query =
      (applyEntries settings mode entries query).andThen fun _ query =>
        applyEntries settings mode more query := by
  induction entries generalizing query with
  | nil => rfl
  | cons entry rest ih =>
    rw [List.cons_append, applyEntries, applyEntries]
    cases compile settings entry.1 entry.2 query with
    | mk left result =>
      cases result with
      | error => rfl
      | ok predicate => exact ih _

theorem applyEntries_of_refused {before rest : List (String × Value)} {key : String} {value : Value}
    {taken left : List String} {refused : String} (h : query.rootAlias? = some root)
    (compiled : ∀ entry ∈ before, Takes entry)
    (split : Key.members key = taken ++ refused :: left)
    (bound : ∀ member ∈ taken, takes value member = true)
    (here : takes value refused = false) :
    applyEntries settings mode (before ++ (key, value) :: rest) query =
      ⟨(afterEntries settings mode root before query).grow root (paths (taken ++ [refused]))
          (bindings settings value taken),
        .error (refusal (Field.ofMember refused).operator? value)⟩ := by
  rw [applyEntries_append, applyEntries_of_takes h compiled, Outcome.andThen_ok, applyEntries,
    compile_of_refused (rootAlias?_afterEntries before h) split bound here, Outcome.andThen_error]

theorem applyEntries_of_rootAlias?_none (h : query.rootAlias? = none) (nonempty : entries ≠ []) :
    applyEntries settings mode entries query = ⟨query, .error .missingSource⟩ := by
  obtain ⟨entry, rest, rfl⟩ := List.exists_cons_of_ne_nil nonempty
  rw [applyEntries, compile_of_rootAlias?_none entry.1 h, Outcome.andThen_error]

theorem takes_of_compiled (nonempty : entries ≠ [])
    (h : ∀ entry ∈ entries, ∃ clause,
      (compile settings entry.1 entry.2 query).result = .ok clause) :
    ∃ root, query.rootAlias? = some root ∧ ∀ entry ∈ entries, Takes entry := by
  obtain ⟨first, firstIn⟩ := List.exists_mem_of_ne_nil entries nonempty
  obtain ⟨clause, compiled⟩ := h first firstIn
  obtain ⟨root, source, -, -⟩ := takes_of_compile compiled
  refine ⟨root, source, fun entry among => ?_⟩
  obtain ⟨clause, compiled⟩ := h entry among
  obtain ⟨-, -, taken, -⟩ := takes_of_compile compiled
  exact taken

theorem compiles_of_takes {entry : String × Value} (h : query.rootAlias? = some root)
    (taken : Takes entry) :
    (compile settings entry.1 entry.2 query).result = .ok (clauseIn settings query root entry) := by
  rw [compile_of_takes h taken]
  rfl

theorem clauses_of_compile {clauses : List Predicate} (nonempty : entries ≠ [])
    (h : entries.map (fun entry => (compile settings entry.1 entry.2 query).result) =
      clauses.map .ok) :
    ∃ root, query.rootAlias? = some root ∧ (∀ entry ∈ entries, Takes entry) ∧
      clauses = entries.map (clauseIn settings query root) := by
  have compiled : ∀ entry ∈ entries, ∃ clause,
      (compile settings entry.1 entry.2 query).result = .ok clause := by
    intro entry among
    have inMap := List.mem_map_of_mem (f := fun entry : String × Value =>
      (compile settings entry.1 entry.2 query).result) among
    rw [h] at inMap
    obtain ⟨clause, -, same⟩ := List.mem_map.1 inMap
    exact ⟨clause, same.symm⟩
  obtain ⟨root, source, taken⟩ := takes_of_compiled nonempty compiled
  refine ⟨root, source, taken, ?_⟩
  have results : entries.map (fun entry => (compile settings entry.1 entry.2 query).result) =
      (entries.map (clauseIn settings query root)).map .ok := by
    rw [List.map_map]
    exact List.map_congr_left fun entry among => compiles_of_takes source (taken entry among)
  rw [h, List.map_inj_right fun _ _ same => Except.ok.inj same] at results
  exact results

theorem afterEntries_eq (h : query.rootAlias? = some root) (nonempty : entries ≠ []) :
    afterEntries settings mode root entries query =
      { query with
        condition := some (.group mode (openParts mode query.condition ++
          entries.map (clauseIn settings query root)))
        joins := query.joins ++ query.joinsOf (membersOf entries)
        parameters := query.parameters.putAll (bindingsOf settings entries) } := by
  obtain ⟨entry, rest, rfl⟩ := List.exists_cons_of_ne_nil nonempty
  rw [Query.joinsOf, h]
  rfl

theorem forall_takes_or_refused (entries : List (String × Value)) :
    (∀ entry ∈ entries, Takes entry) ∨
      ∃ before entry rest taken refused left, entries = before ++ entry :: rest ∧
        (∀ earlier ∈ before, Takes earlier) ∧ Key.members entry.1 = taken ++ refused :: left ∧
        (∀ member ∈ taken, takes entry.2 member = true) ∧ takes entry.2 refused = false := by
  induction entries with
  | nil => exact Or.inl (List.forall_mem_nil _)
  | cons entry rest ih =>
    rcases takes_or_refused entry.2 (Key.members entry.1) with
      all | ⟨taken, refused, left, split, bound, here⟩
    · rcases ih with later | ⟨before, failing, rest, taken, refused, left, rfl, compiled, fails⟩
      · exact Or.inl (List.forall_mem_cons.2 ⟨all, later⟩)
      · exact Or.inr ⟨entry :: before, failing, rest, taken, refused, left, rfl,
          List.forall_mem_cons.2 ⟨all, compiled⟩, fails⟩
    · exact Or.inr ⟨[], entry, rest, taken, refused, left, rfl, List.forall_mem_nil _, split, bound,
        here⟩

theorem compiles_or_failsAt (settings : Settings) (query : Query)
    (entries : List (String × Value)) :
    (∃ clauses : List Predicate,
      entries.map (fun entry => (compile settings entry.1 entry.2 query).result) =
        clauses.map .ok) ∨
      ∃ before entry taken refused error,
        FailsAt settings query entries before entry taken refused error := by
  cases source : query.rootAlias? with
  | none =>
    cases entries with
    | nil => exact Or.inl ⟨[], rfl⟩
    | cons entry rest =>
      obtain ⟨member, left, split⟩ := List.exists_cons_of_ne_nil (Key.members_ne_nil entry.1)
      have fails : (compileMember settings entry.2 member query).result =
          .error .missingSource := by
        rw [compileMember_of_rootAlias?_none member source]
      exact Or.inr ⟨[], entry, [], member, _, ⟨rest, rfl⟩, ⟨left, split⟩,
        List.forall_mem_nil _, List.forall_mem_nil _, fails⟩
  | some root =>
    rcases forall_takes_or_refused entries with
      all | ⟨before, entry, rest, taken, refused, left, rfl, compiled, split, bound, here⟩
    · refine Or.inl ⟨entries.map (clauseIn settings query root), ?_⟩
      rw [List.map_map]
      exact List.map_congr_left fun entry among => compiles_of_takes source (all entry among)
    · have fails : (compileMember settings entry.2 refused query).result =
          .error (refusal (Field.ofMember refused).operator? entry.2) := by
        rw [compileMember_of_not_takes source here]
      refine Or.inr ⟨before, entry, taken, refused, _, ⟨rest, rfl⟩, ⟨left, split⟩,
        fun earlier among => ⟨_, compiles_of_takes source (compiled earlier among)⟩,
        fun member among => ?_, fails⟩
      exact ⟨_, congrArg Outcome.result (compileMember_of_takes source (bound member among))⟩

theorem applyEntries_of_failsAt {before : List (String × Value)} {entry : String × Value}
    {taken : List String} {refused : String} {error : FilterError}
    (failing : FailsAt settings query entries before entry taken refused error) :
    ∃ earlier, applyEntries settings mode before query = ⟨earlier, .ok ()⟩ ∧
      earlier.selected = query.selected ∧ earlier.roots = query.roots ∧
      earlier.order = query.order ∧
      applyEntries settings mode entries query =
        ⟨{ earlier with
            joins := earlier.joins ++ earlier.joinsOf (taken ++ [refused])
            parameters := earlier.parameters.putAll (bindings settings entry.2 taken) },
          .error error⟩ := by
  obtain ⟨⟨rest, rfl⟩, ⟨left, split⟩, compiled, bound, here⟩ := failing
  rcases compileMember_error here with ⟨none, rfl⟩ | ⟨root, source, untaken, rfl⟩
  · have firstEntry : before = [] := by
      refine Classical.byContradiction fun nonempty => ?_
      obtain ⟨root, source, -⟩ := takes_of_compiled nonempty compiled
      rw [none] at source
      cases source
    have firstMember : taken = [] := by
      refine List.eq_nil_iff_forall_not_mem.2 fun member among => ?_
      obtain ⟨leaf, done⟩ := bound member among
      exact (takes_of_compileMember done).1 none
    subst firstEntry firstMember
    refine ⟨query, rfl, rfl, rfl, rfl, ?_⟩
    rw [List.nil_append, applyEntries_of_rootAlias?_none none (List.cons_ne_nil _ _),
      Query.joinsOf, none, List.append_nil]
    rfl
  · have taking : ∀ entry ∈ before, Takes entry := by
      intro entry among
      obtain ⟨clause, done⟩ := compiled entry among
      obtain ⟨-, -, all, -⟩ := takes_of_compile done
      exact all
    have binding : ∀ member ∈ taken, takes entry.2 member = true := by
      intro member among
      obtain ⟨leaf, done⟩ := bound member among
      exact (takes_of_compileMember done).2
    refine ⟨_, applyEntries_of_takes source taking, rfl, rfl, rfl, ?_⟩
    rw [applyEntries_of_refused source taking split binding untaken, Query.joinsOf,
      rootAlias?_afterEntries before source]
    rfl

theorem takes_of_applyEntries
    (h : (applyEntries settings mode entries query).result = .ok ()) (nonempty : entries ≠ []) :
    ∃ root, query.rootAlias? = some root ∧ ∀ entry ∈ entries, Takes entry := by
  rcases compiles_or_failsAt settings query entries with
    ⟨clauses, same⟩ | ⟨before, entry, taken, refused, error, failing⟩
  · obtain ⟨root, source, taken, -⟩ := clauses_of_compile nonempty same
    exact ⟨root, source, taken⟩
  · obtain ⟨earlier, -, -, -, -, after⟩ := applyEntries_of_failsAt failing
    rw [after] at h
    cases h

end

/-- Applying nothing changes nothing. Applying entries that all compile adds their clauses, in order,
to the parts that the connective's group starts from. Otherwise there is a first failing entry with a
first failing member: the error is that member's, the entries before are applied, and behind them
are left the parameters of the members before it, and the joins of these and its own. -/
theorem apply_exact (settings : Settings) (mode : Connective) (filters : Filters) (query : Query) :
    (filters.entries = [] → apply settings mode filters query = ⟨query, .ok ()⟩) ∧
    (∀ clauses : List Predicate, filters.entries ≠ [] →
      filters.entries.map (fun entry => (compile settings entry.1 entry.2 query).result) =
        clauses.map .ok →
      (∀ clause ∈ clauses, ∃ leaves, clause = .group .or leaves) ∧
      apply settings mode filters query =
        ⟨{ query with
            condition := some (.group mode (openParts mode query.condition ++ clauses))
            joins := query.joins ++ query.joinsOf (membersOf filters.entries)
            parameters := query.parameters.putAll (bindingsOf settings filters.entries) },
          .ok ()⟩) ∧
    (∀ (before : Filters) (entry : String × Value) (taken : List String) (refused : String)
        (error : FilterError),
      FailsAt settings query filters.entries before.entries entry taken refused error →
      ∃ earlier, apply settings mode before query = ⟨earlier, .ok ()⟩ ∧
        earlier.selected = query.selected ∧ earlier.roots = query.roots ∧
        earlier.order = query.order ∧
        apply settings mode filters query =
          ⟨{ earlier with
              joins := earlier.joins ++ earlier.joinsOf (taken ++ [refused])
              parameters := earlier.parameters.putAll (bindings settings entry.2 taken) },
            .error error⟩) ∧
    ((∃ clauses : List Predicate,
      filters.entries.map (fun entry => (compile settings entry.1 entry.2 query).result) =
        clauses.map .ok) ∨
      ∃ (before : Filters) (entry : String × Value) (taken : List String) (refused : String)
        (error : FilterError),
        FailsAt settings query filters.entries before.entries entry taken refused error) := by
  refine ⟨fun nil => ?_, fun clauses nonempty compiled => ?_, ?_, ?_⟩
  · rw [apply, nil, applyEntries]
  · obtain ⟨root, source, taken, rfl⟩ := clauses_of_compile nonempty compiled
    refine ⟨fun clause among => ?_, ?_⟩
    · obtain ⟨entry, -, rfl⟩ := List.mem_map.1 among
      exact ⟨_, rfl⟩
    · rw [apply, applyEntries_of_takes source taken, afterEntries_eq source nonempty]
  · intro before entry taken refused error failing
    exact applyEntries_of_failsAt failing
  · rcases compiles_or_failsAt settings query filters.entries with
      all | ⟨before, entry, taken, refused, error, failing⟩
    · exact Or.inl all
    · obtain ⟨rest, split⟩ := failing.entries_eq
      have distinct : (Entries.names before).Nodup := by
        have whole := filters.nodup_names
        rw [split, Entries.names, List.map_append] at whole
        exact (List.nodup_append.1 whole).1
      exact Or.inr ⟨⟨before, distinct⟩, entry, taken, refused, error, failing⟩

theorem apply_exact_second_member :
    let alternatives : Predicate := .group .or [.isNull "t.a", .isNull "t.b"]
    let query : Query := { roots := [⟨"test", "t"⟩], condition := some alternatives }
    let first : Filters := Table.ofList [("age__lt", .int 3)]
    let filters : Filters :=
      Table.ofList [("age__lt", .int 3), ("owner.name___or___boss.age__between", .int 5)]
    let earlier : Query :=
      { query with
        condition := some (.group .and [alternatives, .group .or [.comparison "t.age" "<" "3"]]) }
    apply {} .and ∅ query = ⟨query, .ok ()⟩ ∧ apply {} .and first query = ⟨earlier, .ok ()⟩ ∧
      apply {} .and filters query =
        ⟨{ earlier with
            joins := [⟨.left, "t.owner", "owner"⟩, ⟨.left, "t.boss", "boss"⟩]
            parameters := Table.empty.put "fc303c" (.int 5) },
          .error (.wrongShape (some .between) .pair)⟩ := by
  intro alternatives query first filters earlier
  have nothing := (apply_exact {} .and ∅ query).1 rfl
  have one := ((apply_exact {} .and first query).2.1
    [.group .or [.comparison "t.age" "<" "3"]] (by decide +kernel)
    (by with_unfolding_all rfl)).2
  have compiled : ∀ entry ∈ first.entries, ∃ clause,
      (compile {} entry.1 entry.2 query).result = .ok clause := by
    intro entry among
    rw [List.mem_singleton.1 among]
    exact ⟨.group .or [.comparison "t.age" "<" "3"], by with_unfolding_all rfl⟩
  have bound : ∀ member ∈ ["owner.name"], ∃ leaf,
      (compileMember {} (.int 5) member query).result = .ok leaf := by
    intro member among
    rw [List.mem_singleton.1 among]
    exact ⟨_, congrArg Outcome.result (compileMember_of_takes rfl (by decide +kernel))⟩
  have failing : FailsAt {} query filters.entries first.entries
      ("owner.name___or___boss.age__between", .int 5) ["owner.name"] "boss.age__between"
      (.wrongShape (some .between) .pair) :=
    ⟨⟨[], rfl⟩, ⟨[], by decide +kernel⟩, compiled, bound, by with_unfolding_all rfl⟩
  obtain ⟨left, before, -, -, -, after⟩ :=
    (apply_exact {} .and filters query).2.2.1 first _ _ _ _ failing
  have same : left = earlier := by
    rw [one] at before
    refine (congrArg Outcome.query before).symm.trans ?_
    with_unfolding_all rfl
  subst same
  refine ⟨nothing, before, after.trans ?_⟩
  have binds : bindings {} (.int 5) ["owner.name"] = [("fc303c", .int 5)] := by
    have plain : (Field.ofMember "owner.name").operator? = none := by decide +kernel
    have named : parameterName {} "owner.name" = "fc303c" := by decide +kernel
    rw [bindings, List.filterMap_cons, binding?, plain, named]
    rfl
  rw [binds]
  with_unfolding_all rfl

end Filter

end WhereClause
