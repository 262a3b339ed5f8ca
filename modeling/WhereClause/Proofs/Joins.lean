import WhereClause.Proofs.Search
import WhereClause.Query

/-! The joins that paths ask of a query, said at once for a whole list of paths: each source that is
not joined yet, once, in the order of first use. Resolving the paths one by one against the growing
query adds exactly these, and no path leads elsewhere because of joins that other paths added.
Nothing is said here about aliases being distinct. -/
namespace WhereClause

def Key.segment? (path : String) : Option String :=
  (splitPath? path).map Prod.fst

theorem qualified_right_inj (base : String) {a b : String} :
    qualified base a = qualified base b ↔ a = b := by
  simp only [qualified, String.append_right_inj]

theorem Key.dot_not_mem_of_splitPath? {path segment leaf : String}
    (h : splitPath? path = some (segment, leaf)) : '.' ∉ segment.toList := by
  obtain ⟨⟨before, after⟩, cut, same⟩ := Option.map_eq_some_iff.1 h
  obtain ⟨rfl, rfl⟩ := Prod.mk.inj same
  have absent := Text.not_occurs_of_cut? cut
  rw [← Bool.not_eq_true, Text.occurs_iff] at absent
  rw [String.toList_ofList]
  intro among
  obtain ⟨first, last, split⟩ := List.append_of_mem among
  exact absent ⟨first, last, by rw [split, List.append_assoc]; rfl⟩

theorem toList_qualified (base field : String) :
    (qualified base field).toList = base.toList ++ '.' :: field.toList := by
  simp [qualified]

theorem eq_nil_of_dot_not_mem {between field another : List Char} (h : '.' ∉ field)
    (same : '.' :: field = between ++ '.' :: another) : between = [] ∧ field = another := by
  cases between with
  | nil => exact ⟨rfl, (List.cons.inj same).2⟩
  | cons c more =>
    have fields : field = more ++ '.' :: another := (List.cons.inj same).2
    exact absurd (fields ▸ List.mem_append_right more List.mem_cons_self) h

theorem qualified_inj {base other field another : String} (here : '.' ∉ field.toList)
    (there : '.' ∉ another.toList) (h : qualified base field = qualified other another) :
    base = other ∧ field = another := by
  have chars := congrArg String.toList h
  rw [toList_qualified, toList_qualified] at chars
  rcases List.append_eq_append_iff.1 chars with ⟨between, bases, rests⟩ | ⟨between, bases, rests⟩
  · obtain ⟨rfl, fields⟩ := eq_nil_of_dot_not_mem here rests
    rw [List.append_nil] at bases
    exact ⟨String.toList_injective bases.symm, String.toList_injective fields⟩
  · obtain ⟨rfl, fields⟩ := eq_nil_of_dot_not_mem there rests
    rw [List.append_nil] at bases
    exact ⟨String.toList_injective bases, String.toList_injective fields.symm⟩

theorem nodup_eraseDups {α : Type} [BEq α] [LawfulBEq α] (items : List α) :
    items.eraseDups.Nodup := by
  match items with
  | [] => exact List.nodup_nil
  | item :: rest =>
    rw [List.eraseDups_cons, List.nodup_cons]
    refine ⟨fun again => ?_, nodup_eraseDups _⟩
    have other := (List.mem_filter.1 (List.mem_eraseDups.1 again)).2
    simp at other
termination_by items.length
decreasing_by exact Nat.lt_succ_of_le (List.length_filter_le _ _)

namespace Query

theorem joinedAlias?_eq_none_iff {query : Query} {source : String} :
    query.joinedAlias? source = none ↔ source ∉ query.joins.map Join.source := by
  simp [joinedAlias?]

/-- The field that a path leads to in a query as it stands; a source that is not joined goes by the
segment itself. -/
def target (query : Query) (base path : String) : Target :=
  match Key.splitPath? path with
  | none => ⟨path, base⟩
  | some (segment, leaf) =>
    ⟨leaf, (query.joinedAlias? (qualified base segment)).getD segment⟩

def newSegments (query : Query) (base : String) (paths : List String) : List String :=
  ((paths.filterMap Key.segment?).filter fun segment =>
    query.joinedAlias? (qualified base segment) = none).eraseDups

def newJoins (query : Query) (base : String) (paths : List String) : List Join :=
  (query.newSegments base paths).map fun segment => ⟨.left, qualified base segment, segment⟩

def joinPaths (query : Query) (base : String) (paths : List String) : Query :=
  { query with joins := query.joins ++ query.newJoins base paths }

theorem mem_newSegments (query : Query) (base : String) (paths : List String) (segment : String) :
    segment ∈ query.newSegments base paths ↔
      segment ∈ paths.filterMap Key.segment? ∧
        query.joinedAlias? (qualified base segment) = none := by
  simp [newSegments, List.mem_eraseDups]

theorem newSegments_append (query : Query) (base : String) (paths more : List String) :
    query.newSegments base (paths ++ more) = query.newSegments base paths ++
      ((more.filterMap Key.segment?).filter fun segment =>
        query.joinedAlias? (qualified base segment) = none ∧
          segment ∉ query.newSegments base paths).eraseDups := by
  rw [newSegments, List.filterMap_append, List.filter_append, List.eraseDups_append]
  simp only [List.removeAll, List.filter_filter]
  congr 3
  funext segment
  rw [Bool.eq_iff_iff]
  simp only [Bool.and_eq_true, Bool.not_eq_true', decide_eq_true_eq, List.elem_eq_mem,
    decide_eq_false_iff_not, List.mem_filter, mem_newSegments]
  exact and_comm

theorem find?_reverse_newJoins (base segment : String) (segments : List String) :
    ((segments.map fun s => (⟨.left, qualified base s, s⟩ : Join)).reverse.find?
      fun join => join.source = qualified base segment) =
      if segment ∈ segments then some ⟨.left, qualified base segment, segment⟩ else none := by
  induction segments with
  | nil => rfl
  | cons s rest ih =>
    rw [List.map_cons, List.reverse_cons, List.find?_append, ih]
    by_cases later : segment ∈ rest
    · simp [later]
    · by_cases here : segment = s
      · subst here
        simp [later]
      · simp [later, here, qualified_right_inj, Ne.symm here]

theorem joinedAlias?_joinPaths (query : Query) (base : String) (paths : List String)
    (segment : String) :
    (query.joinPaths base paths).joinedAlias? (qualified base segment) =
      if segment ∈ query.newSegments base paths then some segment
      else query.joinedAlias? (qualified base segment) := by
  rw [joinedAlias?, joinPaths, List.reverse_append, List.find?_append, newJoins,
    find?_reverse_newJoins]
  by_cases new : segment ∈ query.newSegments base paths <;> simp [new, joinedAlias?]

theorem target_joinPaths (query : Query) (base : String) (paths : List String) (path : String) :
    (query.joinPaths base paths).target base path = query.target base path := by
  simp only [target, joinedAlias?_joinPaths]
  split
  · rfl
  · next segment leaf _ =>
    by_cases new : segment ∈ query.newSegments base paths
    · simp [new, ((mem_newSegments query base paths segment).1 new).2]
    · simp [new]

theorem resolve_eq (query : Query) (base path : String) :
    query.resolve base path = (query.target base path, query.joinPaths base [path]) := by
  rw [resolve, target]
  cases split : Key.splitPath? path with
  | none => simp [joinPaths, newJoins, newSegments, Key.segment?, split]
  | some parts =>
    obtain ⟨segment, leaf⟩ := parts
    cases known : query.joinedAlias? (qualified base segment) <;>
      simp [joinField, leftJoin, joinPaths, newJoins, newSegments, Key.segment?, split, known,
        List.eraseDups_cons]

theorem newSegments_joinPaths (query : Query) (base : String) (paths more : List String) :
    (query.joinPaths base paths).newSegments base more =
      ((more.filterMap Key.segment?).filter fun segment =>
        query.joinedAlias? (qualified base segment) = none ∧
          segment ∉ query.newSegments base paths).eraseDups := by
  rw [newSegments]
  congr 2
  funext segment
  rw [joinedAlias?_joinPaths]
  by_cases new : segment ∈ query.newSegments base paths <;> simp [new]

theorem joinPaths_joinPaths (query : Query) (base : String) (paths more : List String) :
    (query.joinPaths base paths).joinPaths base more = query.joinPaths base (paths ++ more) := by
  have segments : query.newSegments base (paths ++ more) = query.newSegments base paths ++
      (query.joinPaths base paths).newSegments base more := by
    rw [newSegments_append, newSegments_joinPaths]
  simp only [joinPaths, newJoins] at segments ⊢
  rw [segments, List.map_append, List.append_assoc]

theorem newSegments_joinPaths_of_subset (query : Query) (base : String) {paths more : List String}
    (h : more ⊆ paths) : (query.joinPaths base paths).newSegments base more = [] := by
  refine List.eq_nil_iff_forall_not_mem.2 fun segment among => ?_
  rw [newSegments_joinPaths, List.mem_eraseDups, List.mem_filter, decide_eq_true_iff] at among
  obtain ⟨asked, unjoined, absent⟩ := among
  obtain ⟨path, inMore, starts⟩ := List.mem_filterMap.1 asked
  have askedBefore := List.mem_filterMap.2 ⟨path, h inMore, starts⟩
  exact absent ((mem_newSegments query base paths segment).2 ⟨askedBefore, unjoined⟩)

theorem joinPaths_of_subset (query : Query) (base : String) {paths more : List String}
    (h : more ⊆ paths) :
    (query.joinPaths base paths).joinPaths base more = query.joinPaths base paths := by
  rw [joinPaths, newJoins, newSegments_joinPaths_of_subset query base h, List.map_nil,
    List.append_nil]

theorem joinedAlias?_joinPaths_of_ne (query : Query) {base other segment : String}
    (paths : List String) (apart : other ≠ base) (h : '.' ∉ segment.toList) :
    (query.joinPaths base paths).joinedAlias? (qualified other segment) =
      query.joinedAlias? (qualified other segment) := by
  have unasked : (query.newJoins base paths).reverse.find?
      (fun join => join.source = qualified other segment) = none := by
    rw [List.find?_eq_none]
    intro join among
    obtain ⟨asked, new, rfl⟩ := List.mem_map.1 (List.mem_reverse.1 among)
    obtain ⟨path, -, starts⟩ :=
      List.mem_filterMap.1 ((mem_newSegments query base paths asked).1 new).1
    obtain ⟨⟨first, leaf⟩, split, rfl⟩ := Option.map_eq_some_iff.1 starts
    intro same
    have bases := qualified_inj (Key.dot_not_mem_of_splitPath? split) h (of_decide_eq_true same)
    exact apart bases.1.symm
  rw [joinedAlias?, joinPaths, List.reverse_append, List.find?_append, unasked, Option.none_or,
    joinedAlias?]

theorem target_joinPaths_any (query : Query) (base other : String) (paths : List String)
    (path : String) :
    (query.joinPaths base paths).target other path = query.target other path := by
  by_cases same : other = base
  · rw [same, target_joinPaths]
  · rw [target, target]
    cases split : Key.splitPath? path with
    | none => rfl
    | some parts =>
      dsimp only
      rw [joinedAlias?_joinPaths_of_ne query paths same (Key.dot_not_mem_of_splitPath? split)]

theorem joinPaths_nil (query : Query) (base : String) : query.joinPaths base [] = query := by
  simp [joinPaths, newJoins, newSegments]

theorem rootAlias?_joinPaths {query : Query} {root : String} (base : String) (paths : List String)
    (h : query.rootAlias? = some root) : (query.joinPaths base paths).rootAlias? = some root := by
  rw [rootAlias?, aliases] at h ⊢
  simp only [joinPaths, List.map_append, ← List.append_assoc]
  rw [List.head?_append, h]
  rfl

theorem joins_joinPaths_congr {query other : Query} (base : String) (paths : List String)
    (h : query.joins = other.joins) :
    (query.joinPaths base paths).joins = (other.joinPaths base paths).joins := by
  have found : ∀ source, query.joinedAlias? source = other.joinedAlias? source := by
    intro source
    rw [joinedAlias?, joinedAlias?, h]
  simp only [joinPaths, newJoins, newSegments, found, h]

/-- One left join for each of the segments whose source no join has, in the order of first use. -/
def joinsFor (query : Query) (root : String) (segments : List String) : List Join :=
  let joined := query.joins.map Join.source
  (segments.filter fun segment => qualified root segment ∉ joined).eraseDups.map fun segment =>
    ⟨.left, qualified root segment, segment⟩

theorem newJoins_eq_joinsFor (query : Query) (root : String) (paths : List String) :
    query.newJoins root paths = query.joinsFor root (paths.filterMap Key.segment?) := by
  simp only [newJoins, newSegments, joinsFor, joinedAlias?_eq_none_iff]

theorem nodup_source_joinsFor (query : Query) (root : String) (segments : List String) :
    ((query.joinsFor root segments).map Join.source).Nodup := by
  rw [joinsFor, List.map_map]
  refine List.Pairwise.map _ (fun first second apart same => apart ?_) (nodup_eraseDups _)
  exact (qualified_right_inj root).1 same

theorem source_not_mem_of_mem_joinsFor {query : Query} {root : String} {segments : List String}
    {join : Join} (h : join ∈ query.joinsFor root segments) :
    join.source ∉ query.joins.map Join.source := by
  obtain ⟨segment, among, rfl⟩ := List.mem_map.1 h
  have new := (List.mem_filter.1 (List.mem_eraseDups.1 among)).2
  exact of_decide_eq_true new

end Query

end WhereClause
