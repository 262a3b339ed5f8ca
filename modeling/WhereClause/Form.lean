import WhereClause.Filter

/-!
Forms: filters that may or may not have been submitted, how they are combined, and a sorting that
follows them. A registry keeps forms by name; the last one under a name counts.
-/
namespace WhereClause

structure Form where
  data : Option Filters := none
  mode : Connective := .and
  sorting : Option Sorting := none

namespace Form

def applyData (settings : Settings) (form : Form) (query : Query) : Outcome Unit :=
  match form.data with
  | none => ⟨query, .ok ()⟩
  | some filters => Filter.apply settings form.mode filters query

def applySorting (form : Form) (query : Query) : Outcome Unit :=
  match form.sorting with
  | none => ⟨query, .ok ()⟩
  | some sorting => sorting.apply query

def apply (settings : Settings) (form : Form) (query : Query) : Outcome Unit :=
  (form.applyData settings query).andThen fun _ query => form.applySorting query

end Form

abbrev Registry := Table Form

namespace Registry

def entriesWith (registry : Registry) (name : String) (form : Form) : List (String × Form) :=
  registry.entries.filter (fun entry => entry.1 ≠ name) ++ [(name, form)]

theorem nodup_names_entriesWith (registry : Registry) (name : String) (form : Form) :
    (Entries.names (registry.entriesWith name form)).Nodup := by
  rw [entriesWith, Entries.names, List.map_append]
  refine List.nodup_append.2 ⟨?_, by simp, ?_⟩
  · exact (List.filter_sublist.map Prod.fst).nodup registry.nodup_names
  · rintro other among _ last rfl
    obtain ⟨entry, kept, rfl⟩ := List.mem_map.1 among
    exact of_decide_eq_true (List.mem_filter.1 kept).2 (List.mem_singleton.1 last)

/-- Registers a form behind all others. One of the same name goes. -/
def register (registry : Registry) (name : String) (form : Form) : Registry :=
  ⟨registry.entriesWith name form, registry.nodup_names_entriesWith name form⟩

def form (registry : Registry) (name : String) : Except FilterError Form :=
  match registry.get? name with
  | some form => .ok form
  | none => .error (.unknownForm name)

def apply (registry : Registry) (settings : Settings) (name : String) (query : Query) :
    Outcome Unit :=
  match registry.form name with
  | .ok form => form.apply settings query
  | .error error => ⟨query, .error error⟩

end Registry

end WhereClause
