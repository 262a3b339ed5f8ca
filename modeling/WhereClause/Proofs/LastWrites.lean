import Mathlib.Data.List.Induction
import Mathlib.Data.Option.Basic
import WhereClause.Proofs.Joins
import WhereClause.Table

/-! Entries written one after the other, with names that may come again. What is left is each name
once, where it came first, with the item that was written under it last. -/
namespace WhereClause.Entries

variable {α : Type} {name : String} {item : α} {entries other : List (String × α)}

def upsertAll (state entries : List (String × α)) : List (String × α) :=
  entries.foldl (fun state entry => upsert entry.1 entry.2 state) state

def looked (look : String → Option α) (listed : List String) : List (String × α) :=
  listed.filterMap fun name => (look name).map fun item => (name, item)

/-- Each name once, where it comes first, with the last item under it. -/
def lastWrites (entries : List (String × α)) : List (String × α) :=
  looked (fun name => find? name entries.reverse) (names entries).eraseDups

theorem find?_eq_none_iff : find? name entries = none ↔ name ∉ names entries := by
  induction entries with
  | nil => exact ⟨fun _ => List.not_mem_nil, fun _ => rfl⟩
  | cons entry rest ih =>
    rw [find?, names_cons, List.mem_cons, not_or]
    split
    · next same => exact iff_of_false (Option.some_ne_none _) fun absent => absent.1 same.symm
    · next apart => exact ih.trans (and_iff_right (Ne.symm apart)).symm

theorem mem_of_find? (h : find? name entries = some item) : (name, item) ∈ entries := by
  induction entries with
  | nil => cases h
  | cons entry rest ih =>
    rw [find?] at h
    split at h
    · next same =>
      obtain rfl := Option.some.inj h
      rw [← same]
      exact List.mem_cons_self
    · exact List.mem_cons_of_mem _ (ih h)

theorem find?_of_mem (distinct : (names entries).Nodup) (h : (name, item) ∈ entries) :
    find? name entries = some item := by
  induction entries with
  | nil => cases h
  | cons entry rest ih =>
    obtain ⟨new, later⟩ := List.nodup_cons.1 distinct
    rw [find?]
    rcases List.mem_cons.1 h with rfl | inRest
    · exact if_pos rfl
    · have apart : entry.1 ≠ name := by
        rintro rfl
        exact new (List.mem_map.2 ⟨_, inRest, rfl⟩)
      rw [if_neg apart, ih later inRest]

theorem find?_perm (perm : entries.Perm other) (distinct : (names entries).Nodup) (name : String) :
    find? name entries = find? name other := by
  have otherDistinct : (names other).Nodup := (perm.map Prod.fst).nodup_iff.1 distinct
  refine Option.ext fun item => ⟨fun found => ?_, fun found => ?_⟩
  · exact find?_of_mem otherDistinct (perm.mem_iff.1 (mem_of_find? found))
  · exact find?_of_mem distinct (perm.mem_iff.2 (mem_of_find? found))

theorem eq_of_find? {more : List (String × α)} (same : names entries = names more)
    (nodup : (names entries).Nodup) (found : ∀ name, find? name entries = find? name more) :
    entries = more := by
  induction entries generalizing more with
  | nil => exact (List.map_eq_nil_iff.1 same.symm).symm
  | cons entry rest ih =>
    cases more with
    | nil => cases same
    | cons other others =>
      obtain ⟨first, later⟩ := List.cons.inj same
      obtain ⟨new, nodup⟩ := List.nodup_cons.1 nodup
      have item := found entry.1
      rw [find?, find?, if_pos rfl, if_pos first.symm] at item
      have tails : ∀ name, find? name rest = find? name others := by
        intro name
        have known := found name
        by_cases same : entry.1 = name
        · subst same
          have absent : entry.1 ∉ names others := by rwa [names, ← later]
          rw [find?_eq_none_iff.2 new, find?_eq_none_iff.2 absent]
        · rwa [find?, find?, if_neg same, if_neg (first ▸ same)] at known
      rw [ih later nodup tails, Prod.ext first (Option.some.inj item)]

section Looked

variable {look : String → Option α} {listed : List String}

theorem looked_cons_some {item : α} (found : look name = some item) (rest : List String) :
    looked look (name :: rest) = (name, item) :: looked look rest :=
  List.filterMap_cons_some (by rw [found, Option.map_some])

theorem names_looked (all : ∀ name ∈ listed, look name ≠ none) :
    names (looked look listed) = listed := by
  induction listed with
  | nil => rfl
  | cons name rest ih =>
    obtain ⟨here, later⟩ := List.forall_mem_cons.1 all
    obtain ⟨item, found⟩ := Option.ne_none_iff_exists'.1 here
    rw [looked_cons_some found, names_cons, ih later]

theorem find?_looked (all : ∀ name ∈ listed, look name ≠ none) (h : name ∈ listed) :
    find? name (looked look listed) = look name := by
  induction listed with
  | nil => cases h
  | cons other rest ih =>
    obtain ⟨here, later⟩ := List.forall_mem_cons.1 all
    obtain ⟨item, found⟩ := Option.ne_none_iff_exists'.1 here
    rw [looked_cons_some found, find?]
    split
    · next same => rw [← found, ← show other = name from same]
    · next apart => exact ih later (List.mem_of_ne_of_mem (Ne.symm apart) h)

end Looked

theorem names_reverse (entries : List (String × α)) :
    names entries.reverse = (names entries).reverse :=
  List.map_reverse

theorem find?_reverse_ne_none (written : name ∈ (names entries).eraseDups) :
    find? name entries.reverse ≠ none := by
  rw [Ne, find?_eq_none_iff, not_not, names_reverse, List.mem_reverse]
  exact List.mem_eraseDups.1 written

theorem names_lastWrites (entries : List (String × α)) :
    names (lastWrites entries) = (names entries).eraseDups :=
  names_looked fun _ => find?_reverse_ne_none

theorem length_lastWrites (members : List (String × α)) :
    (lastWrites members).length = (names members).eraseDups.length := by
  rw [← names_lastWrites, names, List.length_map]

theorem find?_lastWrites (name : String) (entries : List (String × α)) :
    find? name (lastWrites entries) = find? name entries.reverse := by
  by_cases written : name ∈ names entries
  · exact find?_looked (fun _ => find?_reverse_ne_none) (List.mem_eraseDups.2 written)
  · rw [find?_eq_none_iff.2 (by rwa [names_lastWrites, List.mem_eraseDups]),
      find?_eq_none_iff.2 (by rwa [names_reverse, List.mem_reverse])]

theorem nodup_names_lastWrites (entries : List (String × α)) :
    (names (lastWrites entries)).Nodup := by
  rw [names_lastWrites]
  exact nodup_eraseDups _

theorem eraseDups_concat (listed : List String) (name : String) :
    (listed ++ [name]).eraseDups =
      if name ∈ listed.eraseDups then listed.eraseDups else listed.eraseDups ++ [name] := by
  rw [List.eraseDups_append]
  by_cases known : name ∈ listed
  · have none : [name].removeAll listed = [] := by simp [List.removeAll, known]
    rw [if_pos (List.mem_eraseDups.2 known), none, List.eraseDups_nil, List.append_nil]
  · have new : [name].removeAll listed = [name] := by simp [List.removeAll, known]
    rw [if_neg (mt List.mem_eraseDups.1 known), new]
    rfl

theorem lastWrites_concat (entries : List (String × α)) (name : String) (item : α) :
    lastWrites (entries ++ [(name, item)]) = upsert name item (lastWrites entries) := by
  refine eq_of_find? ?_ (nodup_names_lastWrites _) fun other => ?_
  · rw [names_upsert, names_lastWrites, names_lastWrites, ← eraseDups_concat, names, names,
      List.map_append]
    rfl
  · rw [find?_upsert, find?_lastWrites, find?_lastWrites, List.reverse_concat]
    rfl

theorem upsertAll_concat (state entries : List (String × α)) (entry : String × α) :
    upsertAll state (entries ++ [entry]) = upsert entry.1 entry.2 (upsertAll state entries) :=
  List.foldl_append

theorem upsertAll_nil (entries : List (String × α)) :
    upsertAll [] entries = lastWrites entries := by
  induction entries using List.reverseRecOn with
  | nil => rfl
  | append_singleton entries entry ih =>
    rw [upsertAll_concat, ih, lastWrites_concat]

end WhereClause.Entries
