import WhereClause.Proofs.Joins

/-! The columns that paths lead to, said of their texts and of the joins as they are listed. A path
without a dot is a field of the base. Of one with a dot, what stands before the first dot names the
source of a join, or asks for one. Main statement: resolving a path leads to this column and this
join, and to no other. -/
namespace WhereClause

namespace Key

theorem eq_of_append_dot {first second before behind : List Char} (here : '.' ∉ first)
    (there : '.' ∉ before) (h : first ++ '.' :: second = before ++ '.' :: behind) :
    first = before ∧ second = behind := by
  rcases List.append_eq_append_iff.1 h with ⟨between, rfl, rests⟩ | ⟨between, rfl, rests⟩
  · cases between with
    | nil => exact ⟨(List.append_nil _).symm, (List.cons.inj rests).2⟩
    | cons c more =>
      obtain rfl := (List.cons.inj rests).1
      exact absurd (List.mem_append_right first List.mem_cons_self) there
  · cases between with
    | nil => exact ⟨List.append_nil _, (List.cons.inj rests).2.symm⟩
    | cons c more =>
      obtain rfl := (List.cons.inj rests).1
      exact absurd (List.mem_append_right before List.mem_cons_self) here

theorem eq_of_splitPath? {path segment rest : String}
    (h : splitPath? path = some (segment, rest)) : path = segment ++ "." ++ rest := by
  obtain ⟨⟨before, after⟩, cut, same⟩ := Option.map_eq_some_iff.1 h
  obtain ⟨rfl, rfl⟩ := Prod.mk.inj same
  apply String.toList_injective
  simp only [Text.eq_of_cut? cut, String.toList_append, String.toList_ofList]
  rfl

theorem splitPath?_eq_none_iff {path : String} : splitPath? path = none ↔ '.' ∉ path.toList := by
  constructor
  · intro h among
    obtain ⟨first, last, split⟩ := List.append_of_mem among
    have occurs : Text.occurs pathDelimiter path.toList = true :=
      (Text.occurs_iff _ _).2 ⟨first, last, by rw [split, List.append_assoc]; rfl⟩
    rw [Text.occurs, Option.map_eq_none_iff.1 h] at occurs
    cases occurs
  · intro absent
    cases split : splitPath? path with
    | none => rfl
    | some parts =>
      refine absurd ?_ absent
      rw [eq_of_splitPath? split]
      simp

theorem splitPath?_eq_some_iff {path segment rest : String} :
    splitPath? path = some (segment, rest) ↔
      path = segment ++ "." ++ rest ∧ '.' ∉ segment.toList := by
  constructor
  · intro h
    exact ⟨eq_of_splitPath? h, dot_not_mem_of_splitPath? h⟩
  · rintro ⟨rfl, first⟩
    cases split : splitPath? (segment ++ "." ++ rest) with
    | none =>
      refine absurd ?_ (splitPath?_eq_none_iff.1 split)
      simp
    | some parts =>
      obtain ⟨before, after⟩ := parts
      have same := congrArg String.toList (eq_of_splitPath? split)
      simp only [String.toList_append, List.append_assoc] at same
      obtain ⟨segments, rests⟩ := eq_of_append_dot first (dot_not_mem_of_splitPath? split) same
      rw [String.toList_injective segments, String.toList_injective rests]

end Key

namespace Query

theorem joinedAlias?_eq_some_iff {query : Query} {source aliasName : String} :
    query.joinedAlias? source = some aliasName ↔
      ∃ before join after, query.joins = before ++ join :: after ∧ join.source = source ∧
        (∀ later ∈ after, later.source ≠ source) ∧ join.aliasName = aliasName := by
  constructor
  · intro h
    obtain ⟨join, found, named⟩ := Option.map_eq_some_iff.1 h
    obtain ⟨here, after, before, split, others⟩ := List.find?_eq_some_iff_append.1 found
    refine ⟨before.reverse, join, after.reverse, ?_, of_decide_eq_true here,
      fun later among => ?_, named⟩
    · rw [← List.reverse_inj, split]
      simp
    · have other := others later (List.mem_reverse.1 among)
      simpa using other
  · rintro ⟨before, join, after, joins, here, last, named⟩
    refine Option.map_eq_some_iff.2 ⟨join, ?_, named⟩
    refine List.find?_eq_some_iff_append.2
      ⟨decide_eq_true here, after.reverse, before.reverse, ?_, fun later among => ?_⟩
    · rw [joins]
      simp
    · have other := last later (List.mem_reverse.1 among)
      simpa using other

/-- Whether a path leads to a column from the joins as they are, and the join that it asks for,
named by its segment, if it asks for one. -/
inductive Leads (query : Query) (root : String) : String → String → Option String → Prop
  | plain {path : String} (undotted : '.' ∉ path.toList) :
      Leads query root path (root ++ "." ++ path) none
  | joined {segment rest : String} {before after : List Join} {join : Join}
      (first : '.' ∉ segment.toList) (joins : query.joins = before ++ join :: after)
      (source : join.source = root ++ "." ++ segment)
      (last : ∀ later ∈ after, later.source ≠ root ++ "." ++ segment) :
      Leads query root (segment ++ "." ++ rest) (join.aliasName ++ "." ++ rest) none
  | new {segment rest : String} (first : '.' ∉ segment.toList)
      (unjoined : ∀ join ∈ query.joins, join.source ≠ root ++ "." ++ segment) :
      Leads query root (segment ++ "." ++ rest) (segment ++ "." ++ rest) (some segment)

def newSegment? (query : Query) (base path : String) : Option String :=
  (Key.segment? path).filter fun segment => query.joinedAlias? (qualified base segment) = none

theorem newSegments_eq (query : Query) (base : String) (paths : List String) :
    query.newSegments base paths = (paths.filterMap (query.newSegment? base)).eraseDups := by
  rw [newSegments, List.filter_filterMap]
  rfl

theorem leads_target (query : Query) (root path : String) :
    query.Leads root path (query.target root path).column (query.newSegment? root path) := by
  unfold target newSegment? Key.segment?
  cases split : Key.splitPath? path with
  | none => exact .plain (Key.splitPath?_eq_none_iff.1 split)
  | some parts =>
    obtain ⟨segment, rest⟩ := parts
    obtain ⟨rfl, first⟩ := Key.splitPath?_eq_some_iff.1 split
    dsimp only [Option.map_some]
    cases known : query.joinedAlias? (qualified root segment) with
    | none =>
      have new : (some segment).filter
          (fun segment => query.joinedAlias? (qualified root segment) = none) = some segment := by
        simp [known]
      rw [new]
      refine .new first fun join among same => ?_
      exact joinedAlias?_eq_none_iff.1 known (List.mem_map.2 ⟨join, among, same⟩)
    | some aliasName =>
      have old : (some segment).filter
          (fun segment => query.joinedAlias? (qualified root segment) = none) = none := by
        simp [known]
      obtain ⟨before, join, after, joins, source, last, rfl⟩ := joinedAlias?_eq_some_iff.1 known
      rw [old]
      exact .joined first joins source last

variable {query : Query} {root path column : String} {new? : Option String}

theorem Leads.eq_target (h : query.Leads root path column new?) :
    (query.target root path).column = column ∧ query.newSegment? root path = new? := by
  unfold target newSegment? Key.segment?
  cases h with
  | plain undotted =>
    rw [Key.splitPath?_eq_none_iff.2 undotted]
    exact ⟨rfl, rfl⟩
  | @joined segment rest before after join first joins source last =>
    have known : query.joinedAlias? (root ++ "." ++ segment) = some join.aliasName :=
      joinedAlias?_eq_some_iff.2 ⟨before, join, after, joins, source, last, rfl⟩
    rw [Key.splitPath?_eq_some_iff.2 ⟨rfl, first⟩]
    simp [known, Target.column, qualified]
  | @new segment rest first unjoined =>
    have unknown : query.joinedAlias? (root ++ "." ++ segment) = none := by
      refine joinedAlias?_eq_none_iff.2 fun among => ?_
      obtain ⟨join, inJoins, source⟩ := List.mem_map.1 among
      exact unjoined join inJoins source
    rw [Key.splitPath?_eq_some_iff.2 ⟨rfl, first⟩]
    simp [unknown, Target.column, qualified]

theorem aliasName_target (undotted : '.' ∉ path.toList) :
    (query.target root path).aliasName = root := by
  rw [target, Key.splitPath?_eq_none_iff.2 undotted]

theorem leads_iff : query.Leads root path column new? ↔
    (query.target root path).column = column ∧ query.newSegment? root path = new? := by
  refine ⟨Leads.eq_target, ?_⟩
  rintro ⟨rfl, rfl⟩
  exact query.leads_target root path

end Query

end WhereClause
