import WhereClause.Proofs.Closure
import WhereClause.Proofs.ReadBack

/-! Alternatives written in one key, against entries of their own that are combined by OR. The two
leave different trees: one group of all conditions, or a group of one condition for each member.
Main statement: on a query without a condition both succeed or fail together, and when they succeed
they leave the same joins, the same parameters and the same text. Errors are not compared. -/
namespace WhereClause

namespace Predicate

theorem isEmpty_group (connective : Connective) {parts : List Predicate} (h : parts ≠ []) :
    (group connective parts).isEmpty = false :=
  decide_eq_false (mt List.length_eq_zero_iff.1 h)

theorem partText_singleton (connective : Connective) {part : Predicate}
    (simple : part.isCompound = false) : partText (group connective [part]) = partText part := by
  have alone : (group connective [part]).isCompound = false := rfl
  rw [partText, partText, enclose, enclose, text_singleton, simple, alone]

theorem text_map_singleton (connective inner : Connective) {parts : List Predicate}
    (simple : ∀ part ∈ parts, part.isCompound = false) :
    (group connective (parts.map fun part => group inner [part])).text =
      (group connective parts).text := by
  by_cases several : 1 < parts.length
  · have several' : 1 < (parts.map fun part => group inner [part]).length := by
      rwa [List.length_map]
    apply String.toList_injective
    rw [toList_text_group connective several', toList_text_group connective several, List.map_map]
    congr 1
    exact List.map_congr_left fun part among => partText_singleton inner (simple part among)
  · rcases parts with _ | ⟨part, _ | ⟨second, more⟩⟩
    · rfl
    · rw [List.map_singleton, text_singleton, text_singleton, text_singleton]
    · exact absurd (Nat.lt_add_of_pos_left (Nat.succ_pos _)) several

end Predicate

theorem openParts_of_isEmpty (mode : Connective) {earlier : Option Predicate}
    (h : ∀ tree, earlier = some tree → tree.isEmpty = true) : openParts mode earlier = [] := by
  cases earlier with
  | none => rfl
  | some tree =>
    have empty := h tree rfl
    cases tree with
    | group present parts =>
      obtain rfl := List.length_eq_zero_iff.1 (of_decide_eq_true empty)
      by_cases same : present = mode <;> simp [openParts, same]
    | _ => cases empty

theorem Query.text_congr (query : Query) {first second : Predicate}
    (nonempty : first.isEmpty = false) (otherNonempty : second.isEmpty = false)
    (same : first.text = second.text) :
    ({ query with condition := some first } : Query).text =
      ({ query with condition := some second } : Query).text := by
  have written : ({ query with condition := some first } : Query).whereText =
      ({ query with condition := some second } : Query).whereText := by
    rw [whereText_of_not_isEmpty rfl nonempty, whereText_of_not_isEmpty rfl otherNonempty, same]
  rw [Query.text, written]
  rfl

theorem Query.text_alternatives (query : Query) (mode : Connective) {leaves : List Predicate}
    (nonempty : leaves ≠ []) (simple : ∀ leaf ∈ leaves, leaf.isCompound = false) :
    let together : Predicate := .group mode [.group .or leaves]
    let apart : Predicate := .group .or (leaves.map fun leaf => .group .or [leaf])
    ({ query with condition := some together } : Query).text =
      ({ query with condition := some apart } : Query).text := by
  refine query.text_congr rfl (Predicate.isEmpty_group .or (mt List.map_eq_nil_iff.1 nonempty)) ?_
  rw [Predicate.text_singleton, Predicate.text_map_singleton .or .or simple]

namespace Filter

section

variable {settings : Settings} {mode : Connective} {value : Value} {query : Query} {root : String}
  {entries : List (String × Value)} {members : List String}

theorem isCompound_leafIn (settings : Settings) (value : Value) (query : Query) (root member : String) :
    (leafIn settings value query root member).isCompound = false := by
  have single := isGroup_leaf settings value member (query.target root (Field.ofMember member).path)
  rw [leafIn]
  generalize leaf settings value member _ = condition at single ⊢
  cases condition with
  | group => cases single
  | _ => rfl

theorem apply_ofList (settings : Settings) (mode : Connective) (query : Query)
    (h : (Entries.names entries).Nodup) :
    apply settings mode (Table.ofList entries) query = applyEntries settings mode entries query := by
  rw [apply, Table.entries_ofList h]

theorem applyEntries_ok_iff (nonempty : entries ≠ []) :
    (applyEntries settings mode entries query).result = .ok () ↔
      ∃ root, query.rootAlias? = some root ∧ ∀ entry ∈ entries, Takes entry := by
  refine ⟨fun done => takes_of_applyEntries done nonempty, fun ⟨root, source, taken⟩ => ?_⟩
  rw [applyEntries_of_takes source taken]

theorem withValue_ne_nil (value : Value) (h : members ≠ []) : withValue value members ≠ [] :=
  mt List.map_eq_nil_iff.1 h

theorem takes_withValue_iff (single : ∀ member ∈ members, Key.members member = [member]) :
    (∀ entry ∈ withValue value members, Takes entry) ↔
      ∀ member ∈ members, takes value member = true := by
  rw [withValue, List.forall_mem_map]
  refine forall₂_congr fun member among => ?_
  rw [Takes, single member among, List.forall_mem_singleton]

theorem membersOf_withValue (single : ∀ member ∈ members, Key.members member = [member]) :
    membersOf (withValue value members) = members := by
  induction members with
  | nil => rfl
  | cons member rest ih =>
    obtain ⟨first, later⟩ := List.forall_mem_cons.1 single
    have rest_eq : membersOf (withValue value (member :: rest)) =
        Key.members member ++ membersOf (withValue value rest) := rfl
    rw [rest_eq, first, ih later, List.singleton_append]

theorem bindingsOf_withValue (single : ∀ member ∈ members, Key.members member = [member]) :
    bindingsOf settings (withValue value members) = bindings settings value members := by
  induction members with
  | nil => rfl
  | cons member rest ih =>
    obtain ⟨first, later⟩ := List.forall_mem_cons.1 single
    have rest_eq : bindingsOf settings (withValue value (member :: rest)) =
        bindings settings value (Key.members member) ++
          bindingsOf settings (withValue value rest) := rfl
    rw [rest_eq, first, ih later, ← bindings_append, List.singleton_append]

theorem clauses_withValue (single : ∀ member ∈ members, Key.members member = [member]) :
    (withValue value members).map (clauseIn settings query root) =
      (members.map (leafIn settings value query root)).map fun leaf => .group .or [leaf] := by
  rw [withValue, List.map_map, List.map_map]
  refine List.map_congr_left fun member among => ?_
  rw [Function.comp_apply, clauseIn, single member among]
  rfl

def joinedAndBound (settings : Settings) (value : Value) (members : List String)
    (query : Query) : Query :=
  { query with
    joins := query.joins ++ query.joinsOf members
    parameters := query.parameters.putAll (bindings settings value members) }

theorem apply_group (settings : Settings) (mode : Connective)
    (source : query.rootAlias? = some root) {key : String}
    (fresh : ∀ tree, query.condition = some tree → tree.isEmpty = true)
    (taken : ∀ member ∈ Key.members key, takes value member = true) :
    applyEntries settings mode [(key, value)] query =
      ⟨{ joinedAndBound settings value (Key.members key) query with
          condition := some (.group mode
            [.group .or ((Key.members key).map (leafIn settings value query root))]) },
        .ok ()⟩ := by
  have all : ∀ entry ∈ [(key, value)], Takes entry := List.forall_mem_singleton.2 taken
  have whole : membersOf [(key, value)] = Key.members key := List.append_nil _
  have bound : bindingsOf settings [(key, value)] = bindings settings value (Key.members key) :=
    List.append_nil _
  rw [applyEntries_of_takes source all, afterEntries_eq source (List.cons_ne_nil _ _), whole, bound,
    openParts_of_isEmpty mode fresh]
  rfl

theorem apply_withValue (settings : Settings) (source : query.rootAlias? = some root)
    (nonempty : members ≠ [])
    (fresh : ∀ tree, query.condition = some tree → tree.isEmpty = true)
    (single : ∀ member ∈ members, Key.members member = [member])
    (taken : ∀ member ∈ members, takes value member = true) :
    applyEntries settings .or (withValue value members) query =
      ⟨{ joinedAndBound settings value members query with
          condition := some (.group .or
            ((members.map (leafIn settings value query root)).map fun leaf => .group .or [leaf])) },
        .ok ()⟩ := by
  rw [applyEntries_of_takes source ((takes_withValue_iff single).2 taken),
    afterEntries_eq source (withValue_ne_nil value nonempty), membersOf_withValue single,
    bindingsOf_withValue single, clauses_withValue single, openParts_of_isEmpty .or fresh]
  rfl

end

/-- Distinct members in one key, when the key is split into just these, against the members as
entries of their own that are combined by OR. On a query without a condition, or with an empty one,
the one succeeds exactly when the other does, and then they leave the same joins, parameters and
text. -/
theorem apply_alternatives (settings : Settings) (mode : Connective) (members : List String)
    (value : Value) (query : Query) (distinct : members.Nodup)
    (fresh : ∀ tree, query.condition = some tree → tree.isEmpty = true)
    (parts : Key.members ((String.ofList Key.orDelimiter.chars).intercalate members) = members) :
    let key := (String.ofList Key.orDelimiter.chars).intercalate members
    let grouped := apply settings mode (Table.ofList [(key, value)]) query
    let separate := apply settings .or (Table.ofList (withValue value members)) query
    (grouped.result = .ok () ↔ separate.result = .ok ()) ∧
    (grouped.result = .ok () →
      grouped.query.joins = separate.query.joins ∧
      grouped.query.parameters = separate.query.parameters ∧
      grouped.query.text = separate.query.text ∧
      grouped.query.inlinedText = separate.query.inlinedText) := by
  intro key grouped separate
  have nonempty : members ≠ [] := parts ▸ Key.members_ne_nil key
  have single : ∀ member ∈ members, Key.members member = [member] := by
    intro member among
    rw [← parts] at among
    exact Key.members_of_mem among
  have groupedEq : grouped = applyEntries settings mode [(key, value)] query :=
    apply_ofList settings mode query (List.pairwise_singleton _ key)
  have separateEq : separate = applyEntries settings .or (withValue value members) query :=
    apply_ofList settings .or query (by rwa [names_withValue])
  rw [groupedEq, separateEq, applyEntries_ok_iff (List.cons_ne_nil _ _),
    applyEntries_ok_iff (withValue_ne_nil value nonempty), takes_withValue_iff single,
    List.forall_mem_singleton, Takes, parts]
  refine ⟨Iff.rfl, fun ⟨root, source, taken⟩ => ?_⟩
  have one := apply_group settings mode source fresh (parts.symm ▸ taken)
  have many := apply_withValue settings source nonempty fresh single taken
  rw [parts] at one
  rw [one, many]
  have simple : ∀ leaf ∈ members.map (leafIn settings value query root),
      leaf.isCompound = false := by
    rw [List.forall_mem_map]
    exact fun member _ => isCompound_leafIn settings value query root member
  have text := (joinedAndBound settings value members query).text_alternatives mode
    (mt List.map_eq_nil_iff.1 nonempty) simple
  refine ⟨rfl, rfl, text, ?_⟩
  rw [Query.inlinedText, Query.inlinedText, text]

theorem apply_alternatives_three :
    let query : Query := { roots := [⟨"test", "t"⟩], condition := some (.group .or []) }
    let members := ["owner.age__like", "kind", "boss.n__lt"]
    let key := "owner.age__like___or___kind___or___boss.n__lt"
    let value : Value := .text "1 OR 2"
    let grouped := apply {} .and (Table.ofList [(key, value)]) query
    let separate := apply {} .or (Table.ofList (withValue value members)) query
    members.Nodup ∧ Key.members key = members ∧ separate.result = .ok () ∧
      separate.query.parameters.names = ["f7d37e", "fd939a"] ∧
      grouped.query.text = "SELECT t FROM test t LEFT JOIN t.owner owner LEFT JOIN t.boss boss " ++
        "WHERE owner.age LIKE :f7d37e OR t.kind = :fd939a OR (boss.n < 1 OR 2)" ∧
      separate.query.text = grouped.query.text := by
  intro query members key value grouped separate
  have distinct : members.Nodup := by decide
  have parts : Key.members key = members := by decide +kernel
  have fresh : ∀ tree, query.condition = some tree → tree.isEmpty = true := by
    intro tree same
    obtain rfl : .group .or [] = tree := Option.some.inj same
    rfl
  have taken : ∀ member ∈ Key.members key, takes value member = true := by decide +kernel
  have source : query.rootAlias? = some "t" := rfl
  have done : grouped.result = .ok () :=
    congrArg Outcome.result (apply_group {} .and source fresh taken)
  obtain ⟨together, same⟩ := apply_alternatives {} .and members value query distinct fresh parts
  obtain ⟨-, parameters, text, -⟩ := same done
  refine ⟨distinct, parts, together.1 done, ?_, by decide +kernel, text.symm⟩
  exact (congrArg Table.names parameters.symm).trans (by decide +kernel)

end Filter

end WhereClause
