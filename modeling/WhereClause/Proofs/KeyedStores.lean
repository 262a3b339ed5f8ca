import WhereClause.Form
import WhereClause.Proofs.LastWrites
import WhereClause.Proofs.Members

/-! Stores with names: filters, sortings, bound parameters and registered forms. The first three
keep an entry's place when it is written again, a registry puts a form behind the others; in either
case a look-up finds what was written last. Main statement: whatever is written in any order, names
that come again included, a store holds each name once with the last item under it. -/
namespace WhereClause

namespace Entries

variable {α : Type} {name : String} {item : α} {entries writes : List (String × α)}

/-- Whether an entry is the last one that was written under its name. -/
def IsLast (writes : List (String × α)) (entry : String × α) : Prop :=
  ∃ before after, writes = before ++ entry :: after ∧ entry.1 ∉ names after

structure Recalls (look : String → Option α) (writes : List (String × α)) : Prop where
  last : ∀ entry, IsLast writes entry → look entry.1 = some entry.2
  never : ∀ name, name ∉ names writes → look name = none

theorem find?_eq_map_find? :
    find? name entries = (entries.find? fun entry => entry.1 = name).map Prod.snd := by
  induction entries with
  | nil => rfl
  | cons entry rest ih =>
    rw [find?, List.find?_cons, ih]
    by_cases same : entry.1 = name
    · simp [same]
    · simp [same]

theorem find?_eq_some_iff : find? name entries = some item ↔
    ∃ before after, entries = before ++ (name, item) :: after ∧ name ∉ names before := by
  rw [find?_eq_map_find?, Option.map_eq_some_iff]
  constructor
  · rintro ⟨⟨_, _⟩, found, rfl⟩
    obtain ⟨same, before, after, split, others⟩ := List.find?_eq_some_iff_append.1 found
    obtain rfl := of_decide_eq_true same
    refine ⟨before, after, split, fun among => ?_⟩
    obtain ⟨entry, inside, named⟩ := List.mem_map.1 among
    simpa [named] using others entry inside
  · rintro ⟨before, after, split, absent⟩
    refine ⟨(name, item), List.find?_eq_some_iff_append.2 ⟨by simp, before, after, split, ?_⟩, rfl⟩
    intro entry inside
    have apart : entry.1 ≠ name := fun same => absent (same ▸ List.mem_map_of_mem inside)
    simpa using apart

theorem find?_reverse_eq_some_iff :
    find? name writes.reverse = some item ↔ IsLast writes (name, item) := by
  rw [find?_eq_some_iff]
  constructor
  · rintro ⟨before, after, split, absent⟩
    refine ⟨after.reverse, before.reverse, ?_, ?_⟩
    · rw [← List.reverse_reverse writes, split]
      simp
    · rwa [names_reverse, List.mem_reverse]
  · rintro ⟨before, after, rfl, absent⟩
    refine ⟨after.reverse, before.reverse, by simp, ?_⟩
    rwa [names_reverse, List.mem_reverse]

theorem recalls_of_eq {look : String → Option α}
    (h : ∀ name, look name = find? name writes.reverse) : Recalls look writes where
  last entry isLast := (h entry.1).trans (find?_reverse_eq_some_iff.2 isLast)
  never name absent := by
    rw [h, find?_eq_none_iff, names_reverse, List.mem_reverse]
    exact absent

theorem find?_concat (other : String) (entry : String × α) :
    find? other (entries ++ [entry]) =
      (find? other entries).or (if entry.1 = other then some entry.2 else none) := by
  induction entries with
  | nil => rfl
  | cons first rest ih =>
    rw [List.cons_append, find?, find?]
    split
    · rfl
    · exact ih

theorem find?_filter (other : String) :
    find? other (entries.filter fun entry => entry.1 ≠ name) =
      if name = other then none else find? other entries := by
  induction entries with
  | nil => simp [find?]
  | cons entry rest ih =>
    by_cases same : entry.1 = name
    · rw [List.filter_cons_of_neg (by simpa using same), ih, find?]
      split
      · rfl
      · next apart => rw [if_neg (same ▸ apart)]
    · rw [List.filter_cons_of_pos (by simpa using same), find?, find?, ih]
      split
      · next here => rw [if_neg (here ▸ Ne.symm same)]
      · rfl

end Entries

namespace Table

variable {α : Type} {table : Table α} {writes : List (String × α)}

/-- Whether a table is what writes leave: each written name once, in the order of first writes, with
the item that was written under it last. -/
structure Keeps (table : Table α) (writes : List (String × α)) : Prop where
  names : table.names = (Entries.names writes).eraseDups
  items : ∀ entry ∈ table.entries, Entries.IsLast writes entry
  size : table.size = (Entries.names writes).eraseDups.length
  recalls : Entries.Recalls table.get? writes

theorem Keeps.of_entries (h : table.entries = Entries.lastWrites writes) : table.Keeps writes := by
  have look : ∀ name, table.get? name = Entries.find? name writes.reverse := by
    intro name
    rw [get?, h, Entries.find?_lastWrites]
  refine ⟨?_, fun entry among => ?_, ?_, Entries.recalls_of_eq look⟩
  · rw [Table.names, h, Entries.names_lastWrites]
  · rw [← Entries.find?_reverse_eq_some_iff, ← look]
    exact Entries.find?_of_mem table.nodup_names among
  · rw [Table.size, h, Entries.length_lastWrites]

theorem entries_putAll_eq_upsertAll (table : Table α) (writes : List (String × α)) :
    (table.putAll writes).entries = Entries.upsertAll table.entries writes := by
  induction writes generalizing table with
  | nil => rfl
  | cons entry rest ih => exact ih (table.put entry.1 entry.2)

theorem entries_putAll_eq_lastWrites (table : Table α) (writes : List (String × α)) :
    (table.putAll writes).entries = Entries.lastWrites (table.entries ++ writes) := by
  have earlier : ofList table.entries = table := eq_of_entries (entries_ofList table.nodup_names)
  calc (table.putAll writes).entries
      = ((ofList table.entries).putAll writes).entries := by rw [earlier]
    _ = (ofList (table.entries ++ writes)).entries :=
        congrArg entries (putAll_append empty table.entries writes).symm
    _ = Entries.upsertAll [] (table.entries ++ writes) := entries_putAll_eq_upsertAll empty _
    _ = Entries.lastWrites (table.entries ++ writes) := Entries.upsertAll_nil _

theorem keeps_putAll (table : Table α) (writes : List (String × α)) :
    (table.putAll writes).Keeps (table.entries ++ writes) :=
  .of_entries (entries_putAll_eq_lastWrites table writes)

end Table

def Query.bindAll (query : Query) (writes : List (String × Value)) : Query :=
  writes.foldl (fun query write => query.bind write.1 write.2) query

theorem Query.bindAll_eq (query : Query) (writes : List (String × Value)) :
    query.bindAll writes = { query with parameters := query.parameters.putAll writes } := by
  induction writes generalizing query with
  | nil => rfl
  | cons write rest ih => exact ih (query.bind write.1 write.2)

namespace Registry

def registerAll (registry : Registry) (writes : List (String × Form)) : Registry :=
  writes.foldl (fun registry write => registry.register write.1 write.2) registry

theorem registerAll_concat (registry : Registry) (writes : List (String × Form))
    (write : String × Form) :
    registry.registerAll (writes ++ [write]) =
      (registry.registerAll writes).register write.1 write.2 :=
  List.foldl_append

theorem get?_register (registry : Registry) (name other : String) (form : Form) :
    (registry.register name form).get? other =
      if name = other then some form else registry.get? other := by
  have entries : (registry.register name form).entries =
      registry.entries.filter (fun entry => entry.1 ≠ name) ++ [(name, form)] := rfl
  rw [Table.get?, entries, Entries.find?_concat, Entries.find?_filter]
  split
  · rfl
  · exact Option.or_none

theorem get?_registerAll (registry : Registry) (writes : List (String × Form)) (name : String) :
    (registry.registerAll writes).get? name =
      Entries.find? name (registry.entries ++ writes).reverse := by
  induction writes using List.reverseRecOn with
  | nil =>
    rw [List.append_nil]
    exact Entries.find?_perm (List.reverse_perm _).symm registry.nodup_names name
  | append_singleton writes write ih =>
    rw [registerAll_concat, get?_register, ih, ← List.append_assoc, List.reverse_concat]
    rfl

theorem sublist_registerAll (registry : Registry) (writes : List (String × Form)) :
    (registry.registerAll writes).entries.Sublist (registry.entries ++ writes) := by
  induction writes using List.reverseRecOn with
  | nil =>
    rw [List.append_nil]
    exact List.Sublist.refl _
  | append_singleton writes write ih =>
    rw [registerAll_concat, ← List.append_assoc]
    exact (List.filter_sublist.trans ih).append_right [write]

/-- Whether a registry is what registrations leave: the last form under each name, in the order of
these registrations, is found and applied, and any other name is unknown and changes nothing. -/
structure Keeps (registry : Registry) (writes : List (String × Form)) : Prop where
  order : registry.entries.Sublist writes
  items : ∀ entry ∈ registry.entries, Entries.IsLast writes entry
  known : ∀ name form, Entries.IsLast writes (name, form) → registry.form name = .ok form ∧
    ∀ settings query, registry.apply settings name query = form.apply settings query
  unknown : ∀ name, name ∉ Entries.names writes →
    registry.form name = .error (.unknownForm name) ∧
    ∀ settings query, registry.apply settings name query = ⟨query, .error (.unknownForm name)⟩

theorem apply_of_form {registry : Registry} {name : String} {form : Form}
    (h : registry.form name = .ok form) (settings : Settings) (query : Query) :
    registry.apply settings name query = form.apply settings query := by
  rw [apply, h]

theorem apply_of_form_error {registry : Registry} {name : String} {error : FilterError}
    (h : registry.form name = .error error) (settings : Settings) (query : Query) :
    registry.apply settings name query = ⟨query, .error error⟩ := by
  rw [apply, h]

theorem keeps_registerAll (registry : Registry) (writes : List (String × Form)) :
    (registry.registerAll writes).Keeps (registry.entries ++ writes) := by
  have look := get?_registerAll registry writes
  have recalls := Entries.recalls_of_eq look
  refine ⟨sublist_registerAll registry writes, fun entry among => ?_, fun name form isLast => ?_,
    fun name absent => ?_⟩
  · rw [← Entries.find?_reverse_eq_some_iff, ← look]
    exact Entries.find?_of_mem (registry.registerAll writes).nodup_names among
  · have found : (registry.registerAll writes).form name = .ok form := by
      rw [Registry.form, recalls.last _ isLast]
    exact ⟨found, apply_of_form found⟩
  · have missing : (registry.registerAll writes).form name = .error (.unknownForm name) := by
      rw [Registry.form, recalls.never _ absent]
    exact ⟨missing, apply_of_form_error missing⟩

end Registry

/-- Filters, sortings and parameters keep each written name once, in the order of first writes, with
the item written under it last, and find just these; a registry finds and applies the form that was
registered last under a name and leaves a query as it is for any other name. What a store holds in
the beginning counts as written first. -/
theorem stores_keep_last :
    (∀ (filters : Filters) (writes : List (String × Value)),
      (filters.putAll writes).Keeps (filters.entries ++ writes)) ∧
    (∀ (sorting : Sorting) (writes : List (String × String)),
      (sorting.putAll writes).Keeps (sorting.entries ++ writes)) ∧
    (∀ (query : Query) (writes : List (String × Value)),
      (query.bindAll writes).parameters.Keeps (query.parameters.entries ++ writes)) ∧
    ∀ (registry : Registry) (writes : List (String × Form)),
      (registry.registerAll writes).Keeps (registry.entries ++ writes) := by
  refine ⟨Table.keeps_putAll, Table.keeps_putAll, fun query writes => ?_,
    Registry.keeps_registerAll⟩
  rw [Query.bindAll_eq]
  exact query.parameters.keeps_putAll writes

theorem stores_keep_last_repeated :
    let filters : Filters := Table.ofList [("b", .int 1), ("a", .int 2), ("b", .int 3)]
    let query : Query := Query.empty.bind "p" (.int 1)
    let after := query.bindAll [("q", .int 2), ("p", .null)]
    let first : Form := {}
    let second : Form := { mode := .or, data := some filters }
    let registry := Registry.registerAll ∅ [("x", first), ("y", first), ("x", second)]
    filters.names = ["b", "a"] ∧ filters.get? "b" = some (.int 3) ∧ filters.get? "c" = none ∧
      after.parameters.names = ["p", "q"] ∧ after.parameters.get? "p" = some .null ∧
      registry.names = ["y", "x"] ∧ registry.form "x" = .ok second ∧
      registry.apply {} "x" query = second.apply {} query ∧
      registry.form "z" = .error (.unknownForm "z") ∧
      registry.apply {} "z" query = ⟨query, .error (.unknownForm "z")⟩ := by
  intro filters query after first second registry
  obtain ⟨filtersKeep, -, queriesKeep, registriesKeep⟩ := stores_keep_last
  have kept := filtersKeep ∅ [("b", .int 1), ("a", .int 2), ("b", .int 3)]
  have bound := queriesKeep query [("q", .int 2), ("p", .null)]
  have registered := registriesKeep ∅ [("x", first), ("y", first), ("x", second)]
  have known := registered.known "x" second ⟨[("x", first), ("y", first)], [], rfl, by decide⟩
  have unknown := registered.unknown "z" (by decide)
  refine ⟨kept.names.trans (by decide), ?_, kept.recalls.never "c" (by decide),
    bound.names.trans (by decide), ?_, by decide, known.1, known.2 {} query, unknown.1,
    unknown.2 {} query⟩
  · exact kept.recalls.last ("b", .int 3) ⟨[("b", .int 1), ("a", .int 2)], [], rfl, by decide⟩
  · exact bound.recalls.last ("p", .null) ⟨[("p", .int 1), ("q", .int 2)], [], rfl, by decide⟩

end WhereClause
