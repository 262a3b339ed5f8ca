import Mathlib.Data.List.Nodup
import WhereClause.Proofs.Joins
import WhereClause.Query.Text

/-! Where the joins of a query stand in its text. Each root has a branch: itself and the joins
behind it. Main statement: every join is in one branch, once, whatever the joins are, cycles and
repeated aliases included; and where aliases are distinct and each join starts from a root or from
a join before it, it is the branch of the root that its chain of sources ends at. -/
namespace WhereClause

theorem perm_flatMap_filter {α : Type} (kind : α → Nat) (items : List α) {kinds : List Nat}
    (distinct : kinds.Nodup) :
    (kinds.flatMap fun k => items.filter fun item => kind item = k).Perm
      (items.filter fun item => kind item ∈ kinds) := by
  induction kinds with
  | nil => simp
  | cons k rest ih =>
    obtain ⟨new, later⟩ := List.nodup_cons.1 distinct
    have here : (items.filter fun item => kind item ∈ k :: rest).filter
        (fun item => kind item = k) = items.filter fun item => kind item = k := by
      rw [List.filter_filter]
      exact List.filter_congr fun item _ => by
        by_cases same : kind item = k <;> simp [same]
    have others : (items.filter fun item => kind item ∈ k :: rest).filter
        (fun item => !decide (kind item = k)) = items.filter fun item => kind item ∈ rest := by
      rw [List.filter_filter]
      exact List.filter_congr fun item _ => by
        by_cases same : kind item = k <;> simp [same, new]
    have parted := List.filter_append_perm (fun item => decide (kind item = k))
      (items.filter fun item => kind item ∈ k :: rest)
    rw [here, others] at parted
    rw [List.flatMap_cons]
    exact ((ih later).append_left _).trans parted

namespace Join

theorem base_of_source {join : Join} {aliasName field : String}
    (source : join.source = qualified aliasName field) (h : '.' ∉ aliasName.toList) :
    join.base = aliasName := by
  have chars : ∀ c ∈ aliasName.toList, (c != '.') = true := by
    intro c among
    rw [bne_iff_ne]
    rintro rfl
    exact h among
  rw [base, source, toList_qualified, List.takeWhile_append_of_pos chars,
    List.takeWhile_cons_of_neg (by simp), List.append_nil, String.ofList_toList]

theorem follow_of_not_mem {joins : List Join} {aliasName : String}
    (h : aliasName ∉ joins.map Join.aliasName) (steps : Nat) :
    follow joins steps aliasName = aliasName := by
  cases steps with
  | zero => rfl
  | succ steps =>
    have none : (joins.find? fun join => join.aliasName = aliasName) = none := by
      rw [List.find?_eq_none]
      intro join among same
      exact h (List.mem_map.2 ⟨join, among, of_decide_eq_true same⟩)
    rw [follow, none]

theorem follow_of_mem {joins : List Join} (distinct : (joins.map Join.aliasName).Nodup)
    {parent : Join} (among : parent ∈ joins) (steps : Nat) :
    follow joins (steps + 1) parent.aliasName = follow joins steps parent.base := by
  have found : (joins.find? fun join => join.aliasName = parent.aliasName) = some parent := by
    cases first : joins.find? fun join => join.aliasName = parent.aliasName with
    | none => exact absurd (decide_eq_true rfl) (List.find?_eq_none.1 first parent among)
    | some other =>
      have named : other.aliasName = parent.aliasName := by simpa using List.find?_some first
      rw [List.inj_on_of_nodup_map distinct (List.mem_of_find?_eq_some first) among named]
  rw [follow, found]

end Join

namespace Query

/-- The roots in order, each with the joins that stand behind it in the text. -/
def branches (query : Query) : List (Root × List Join) :=
  query.roots.zipIdx.map fun (root, index) =>
    (root, query.joins.filter fun join => query.rootIndex join = index)

def branchText (branch : Root × List Join) : String :=
  " ".intercalate (branch.1.text :: branch.2.map Join.text)

/-- Whether aliases are distinct and have no dot, and each join starts from a root or from a join
before it. -/
structure IsForest (query : Query) : Prop where
  nodup_aliases : query.aliases.Nodup
  dot_not_mem : ∀ aliasName ∈ query.aliases, '.' ∉ aliasName.toList
  starts : ∀ before join after, query.joins = before ++ join :: after →
    ∃ aliasName field, join.source = qualified aliasName field ∧
      (aliasName ∈ query.roots.map Root.aliasName ∨ aliasName ∈ before.map Join.aliasName)

/-- The root that a chain of sources ends at: the join's own, or that of the join it starts from. -/
inductive EndsAt (query : Query) : Join → Root → Prop
  | root {join : Join} {root : Root} {field : String} (among : root ∈ query.roots)
      (source : join.source = qualified root.aliasName field) : EndsAt query join root
  | join {join parent : Join} {root : Root} {field : String} (among : parent ∈ query.joins)
      (source : join.source = qualified parent.aliasName field)
      (ends : EndsAt query parent root) : EndsAt query join root

section

variable {query : Query}

theorem fromText_eq (rooted : query.roots ≠ []) :
    query.fromText = " FROM " ++ ", ".intercalate (query.branches.map branchText) := by
  rw [fromText, if_neg (by simpa using rooted), branches, List.map_map]
  rfl

theorem roots_branches (query : Query) : query.branches.map Prod.fst = query.roots := by
  rw [branches, List.map_map]
  exact List.zipIdx_map_fst 0 query.roots

theorem mem_branches {branch : Root × List Join} :
    branch ∈ query.branches ↔ ∃ index, query.roots[index]? = some branch.1 ∧
      branch.2 = query.joins.filter fun join => query.rootIndex join = index := by
  rw [branches, List.mem_map]
  constructor
  · rintro ⟨⟨root, index⟩, among, rfl⟩
    exact ⟨index, List.mem_zipIdx_iff_getElem?.1 among, rfl⟩
  · rintro ⟨index, at_index, joined⟩
    exact ⟨(branch.1, index), List.mem_zipIdx_iff_getElem?.2 at_index, Prod.ext rfl joined.symm⟩

theorem rootIndex_lt (rooted : query.roots ≠ []) (join : Join) :
    query.rootIndex join < query.roots.length := by
  unfold rootIndex
  dsimp only
  cases found : query.roots.findIdx? _ with
  | none => exact List.length_pos_iff.2 rooted
  | some index => exact (List.findIdx?_eq_some_iff_getElem.1 found).1

theorem joins_branches (rooted : query.roots ≠ []) :
    (query.branches.flatMap Prod.snd).Perm query.joins := by
  have kinds : query.branches.flatMap Prod.snd =
      (List.range' 0 query.roots.length).flatMap fun index =>
        query.joins.filter fun join => query.rootIndex join = index := by
    rw [branches, List.flatMap_map, ← List.zipIdx_map_snd 0 query.roots, List.flatMap_map]
  have all : (query.joins.filter fun join =>
      query.rootIndex join ∈ List.range' 0 query.roots.length) = query.joins := by
    refine List.filter_eq_self.2 fun join _ => decide_eq_true ?_
    rw [List.mem_range'_1, Nat.zero_add]
    exact ⟨Nat.zero_le _, rootIndex_lt rooted join⟩
  have sorted := perm_flatMap_filter query.rootIndex query.joins
    (List.nodup_range' (s := 0) (n := query.roots.length) 1)
  rw [all, ← kinds] at sorted
  exact sorted

namespace IsForest

theorem base_eq (forest : query.IsForest) {join : Join} {aliasName field : String}
    (source : join.source = qualified aliasName field) (known : aliasName ∈ query.aliases) :
    join.base = aliasName :=
  Join.base_of_source source (forest.dot_not_mem aliasName known)

theorem root_mem_aliases {root : Root} (among : root ∈ query.roots) :
    root.aliasName ∈ query.aliases :=
  List.mem_append_left _ (List.mem_map_of_mem among)

theorem join_mem_aliases {join : Join} (among : join ∈ query.joins) :
    join.aliasName ∈ query.aliases :=
  List.mem_append_right _ (List.mem_map_of_mem among)

theorem nodup_roots (forest : query.IsForest) : (query.roots.map Root.aliasName).Nodup :=
  (List.nodup_append.1 forest.nodup_aliases).1

theorem nodup_joins (forest : query.IsForest) : (query.joins.map Join.aliasName).Nodup :=
  (List.nodup_append.1 forest.nodup_aliases).2.1

theorem root_not_mem_joins (forest : query.IsForest) {root : Root} (among : root ∈ query.roots) :
    root.aliasName ∉ query.joins.map Join.aliasName := fun joined =>
  (List.nodup_append.1 forest.nodup_aliases).2.2 _ (List.mem_map_of_mem among) _ joined rfl

theorem follow_eq (forest : query.IsForest) (steps : Nat) {before after : List Join} {join : Join}
    (split : query.joins = before ++ join :: after) (enough : before.length ≤ steps) :
    ∃ root ∈ query.roots, query.EndsAt join root ∧
      Join.follow query.joins steps join.base = root.aliasName := by
  -- A parent stands before its join, so each step leaves fewer joins before the one followed.
  induction steps generalizing before join after with
  | zero =>
    obtain ⟨aliasName, field, source, rooted | joined⟩ := forest.starts before join after split
    · obtain ⟨root, among, rfl⟩ := List.mem_map.1 rooted
      rw [forest.base_eq source (root_mem_aliases among)]
      exact ⟨root, among, .root among source, rfl⟩
    · rw [List.length_eq_zero_iff.1 (Nat.le_zero.1 enough)] at joined
      cases joined
  | succ steps ih =>
    obtain ⟨aliasName, field, source, rooted | joined⟩ := forest.starts before join after split
    · obtain ⟨root, among, rfl⟩ := List.mem_map.1 rooted
      rw [forest.base_eq source (root_mem_aliases among)]
      exact ⟨root, among, .root among source,
        Join.follow_of_not_mem (forest.root_not_mem_joins among) _⟩
    · obtain ⟨parent, among, rfl⟩ := List.mem_map.1 joined
      obtain ⟨first, between, rfl⟩ := List.append_of_mem among
      have inJoins : parent ∈ query.joins := split ▸ List.mem_append_left _ among
      have fewer : first.length ≤ steps := by
        rw [List.length_append, List.length_cons] at enough
        omega
      have resplit : query.joins = first ++ parent :: (between ++ join :: after) := by
        rw [split, List.append_assoc, List.cons_append]
      obtain ⟨root, rooted, ends, leads⟩ := ih resplit fewer
      rw [forest.base_eq source (join_mem_aliases inJoins),
        Join.follow_of_mem forest.nodup_joins inJoins]
      exact ⟨root, rooted, .join inJoins source ends, leads⟩

theorem endsAt_unique (forest : query.IsForest) {join : Join} {root other : Root}
    (ends : query.EndsAt join root) (endsOther : query.EndsAt join other) : root = other := by
  induction ends with
  | @root join root field among source =>
    have base := forest.base_eq source (root_mem_aliases among)
    cases endsOther with
    | root amongOther sourceOther =>
      have baseOther := forest.base_eq sourceOther (root_mem_aliases amongOther)
      exact List.inj_on_of_nodup_map forest.nodup_roots among amongOther
        (base.symm.trans baseOther)
    | join joined sourceOther _ =>
      have baseOther := forest.base_eq sourceOther (join_mem_aliases joined)
      have same := base.symm.trans baseOther
      exact absurd (same ▸ List.mem_map_of_mem joined) (forest.root_not_mem_joins among)
  | @join join parent root field among source _ ih =>
    have base := forest.base_eq source (join_mem_aliases among)
    cases endsOther with
    | root amongOther sourceOther =>
      have baseOther := forest.base_eq sourceOther (root_mem_aliases amongOther)
      have same := baseOther.symm.trans base
      exact absurd (same ▸ List.mem_map_of_mem among) (forest.root_not_mem_joins amongOther)
    | join joined sourceOther endsOther =>
      have baseOther := forest.base_eq sourceOther (join_mem_aliases joined)
      rw [← List.inj_on_of_nodup_map forest.nodup_joins among joined (base.symm.trans baseOther)]
        at endsOther
      exact ih endsOther

theorem endsAt_rootIndex (forest : query.IsForest) {join : Join} (among : join ∈ query.joins) :
    ∃ root, query.roots[query.rootIndex join]? = some root ∧ query.EndsAt join root := by
  obtain ⟨before, after, split⟩ := List.append_of_mem among
  have enough : before.length ≤ query.joins.length := by
    rw [split, List.length_append]
    omega
  obtain ⟨root, rooted, ends, leads⟩ := forest.follow_eq query.joins.length split enough
  refine ⟨root, ?_, ends⟩
  unfold rootIndex
  rw [leads]
  dsimp only
  cases found : query.roots.findIdx? fun other => other.aliasName = root.aliasName with
  | none =>
    have missing := List.findIdx?_eq_none_iff.1 found root rooted
    exact absurd rfl (of_decide_eq_false missing)
  | some index =>
    obtain ⟨bound, named, -⟩ := List.findIdx?_eq_some_iff_getElem.1 found
    rw [Option.getD_some, List.getElem?_eq_getElem bound,
      List.inj_on_of_nodup_map forest.nodup_roots (List.getElem_mem bound) rooted
        (of_decide_eq_true named)]

theorem rootIndex_eq_iff (forest : query.IsForest) {join : Join} (among : join ∈ query.joins)
    {root : Root} {index : Nat} (here : query.roots[index]? = some root) :
    query.rootIndex join = index ↔ query.EndsAt join root := by
  obtain ⟨own, ownHere, ends⟩ := forest.endsAt_rootIndex among
  constructor
  · rintro rfl
    rw [Option.some.inj (here.symm.trans ownHere)]
    exact ends
  · intro endsHere
    obtain rfl := forest.endsAt_unique ends endsHere
    obtain ⟨bound, _⟩ := List.getElem?_eq_some_iff.1 ownHere
    exact (List.getElem?_inj bound (List.Nodup.of_map _ forest.nodup_roots)).1
      (ownHere.trans here.symm)

theorem mem_branch_iff (forest : query.IsForest) {branch : Root × List Join}
    (h : branch ∈ query.branches) {join : Join} :
    join ∈ branch.2 ↔ join ∈ query.joins ∧ query.EndsAt join branch.1 := by
  obtain ⟨index, here, joined⟩ := mem_branches.1 h
  rw [joined, List.mem_filter, decide_eq_true_iff]
  exact and_congr_right fun among => forest.rootIndex_eq_iff among here

theorem parent_sublist (forest : query.IsForest) {parent join : Join} {field : String}
    (among : parent ∈ query.joins) (joined : join ∈ query.joins)
    (source : join.source = qualified parent.aliasName field) :
    [parent, join].Sublist query.joins := by
  obtain ⟨before, after, split⟩ := List.append_of_mem joined
  have base := forest.base_eq source (join_mem_aliases among)
  obtain ⟨aliasName, other, sourceOther, rooted | earlier⟩ := forest.starts before join after split
  · obtain ⟨root, amongRoots, rfl⟩ := List.mem_map.1 rooted
    have same := (forest.base_eq sourceOther (root_mem_aliases amongRoots)).symm.trans base
    exact absurd (same ▸ List.mem_map_of_mem among) (forest.root_not_mem_joins amongRoots)
  · obtain ⟨first, inBefore, rfl⟩ := List.mem_map.1 earlier
    have inJoins : first ∈ query.joins := split ▸ List.mem_append_left _ inBefore
    have same := (forest.base_eq sourceOther (join_mem_aliases inJoins)).symm.trans base
    obtain rfl := List.inj_on_of_nodup_map forest.nodup_joins inJoins among same
    rw [split]
    exact (List.singleton_sublist.2 inBefore).append (List.singleton_sublist.2 List.mem_cons_self)

end IsForest

end

/-- The text of a query with a root lists the roots in order, with a comma between them, and behind
each its joins; every join of the query stands there, and as often as it was registered. If aliases
are distinct and without a dot, and each join starts from a root or from an earlier join, then each
chain of sources ends at one root, the joins behind a root are those whose chains end there, in the
order in which they were registered, and a join stands behind the one it starts from. -/
theorem text_branches (query : Query) (rooted : query.roots ≠ []) :
    query.text = "SELECT " ++ query.selectText ++
        (" FROM " ++ ", ".intercalate (query.branches.map branchText)) ++
        query.whereText ++ query.orderText ∧
      query.branches.map Prod.fst = query.roots ∧
      (query.branches.flatMap Prod.snd).Perm query.joins ∧
      (query.IsForest →
        (∀ join ∈ query.joins, ∃ root, query.EndsAt join root ∧
          ∀ other, query.EndsAt join other → other = root) ∧
        ∀ branch ∈ query.branches,
          (∀ join, join ∈ branch.2 ↔ join ∈ query.joins ∧ query.EndsAt join branch.1) ∧
          branch.2.Sublist query.joins ∧
          ∀ parent ∈ query.joins, ∀ join ∈ branch.2,
            (∃ field, join.source = qualified parent.aliasName field) →
            [parent, join].Sublist branch.2) := by
  refine ⟨?_, query.roots_branches, joins_branches rooted, fun forest => ⟨?_, ?_⟩⟩
  · rw [text, fromText_eq rooted]
  · intro join among
    obtain ⟨root, -, ends⟩ := forest.endsAt_rootIndex among
    exact ⟨root, ends, fun other endsOther => forest.endsAt_unique endsOther ends⟩
  · intro branch among
    obtain ⟨index, here, joined⟩ := mem_branches.1 among
    refine ⟨fun join => forest.mem_branch_iff among, joined ▸ List.filter_sublist, ?_⟩
    rintro parent inJoins join inBranch ⟨field, source⟩
    obtain ⟨joinIn, ends⟩ := (forest.mem_branch_iff among).1 inBranch
    obtain ⟨parentRoot, -, parentEnds⟩ := forest.endsAt_rootIndex inJoins
    have same := forest.endsAt_unique (.join inJoins source parentEnds) ends
    have parentIn := (forest.mem_branch_iff among).2 ⟨inJoins, same ▸ parentEnds⟩
    have kept := (forest.parent_sublist inJoins joinIn source).filter
      fun other => decide (query.rootIndex other = index)
    rw [joined] at inBranch parentIn ⊢
    have both : ∀ other ∈ [parent, join], decide (query.rootIndex other = index) = true :=
      List.forall_mem_cons.2 ⟨(List.mem_filter.1 parentIn).2,
        List.forall_mem_singleton.2 (List.mem_filter.1 inBranch).2⟩
    rwa [List.filter_eq_self.2 both] at kept

theorem text_branches_chain :
    let owner : Join := ⟨.left, "o.owner", "owner"⟩
    let company : Join := ⟨.inner, "owner.company", "company"⟩
    let tags : Join := ⟨.left, "t.tags", "tags"⟩
    let query : Query :=
      { roots := [⟨"test", "t"⟩, ⟨"other", "o"⟩], joins := [owner, company, tags] }
    query.roots ≠ [] ∧ query.IsForest ∧
      query.text = "SELECT t, o FROM test t LEFT JOIN t.tags tags, other o " ++
        "LEFT JOIN o.owner owner INNER JOIN owner.company company" ∧
      (query.branches.flatMap Prod.snd).Perm query.joins ∧
      query.EndsAt company ⟨"other", "o"⟩ ∧ [owner, company].Sublist [owner, company] := by
  intro owner company tags query
  have starts : ∀ before join after, query.joins = before ++ join :: after →
      ∃ aliasName field, join.source = qualified aliasName field ∧
        (aliasName ∈ query.roots.map Root.aliasName ∨
          aliasName ∈ before.map Join.aliasName) := by
    intro before join after split
    rcases List.cons_eq_append_iff.1 split with ⟨rfl, here⟩ | ⟨before, rfl, second⟩
    · obtain ⟨rfl, -⟩ := List.cons.inj here
      exact ⟨"o", "owner", by decide +kernel, Or.inl (by decide +kernel)⟩
    rcases List.cons_eq_append_iff.1 second with ⟨rfl, here⟩ | ⟨before, rfl, third⟩
    · obtain ⟨rfl, -⟩ := List.cons.inj here
      exact ⟨"owner", "company", by decide +kernel, Or.inr (by decide +kernel)⟩
    rcases List.cons_eq_append_iff.1 third with ⟨rfl, here⟩ | ⟨before, rfl, none⟩
    · obtain ⟨rfl, -⟩ := List.cons.inj here
      exact ⟨"t", "tags", by decide +kernel, Or.inl (by decide +kernel)⟩
    cases before <;> cases none
  have rooted : query.roots ≠ [] := List.cons_ne_nil _ _
  have forest : query.IsForest := ⟨by decide +kernel, by decide +kernel, starts⟩
  obtain ⟨-, -, once, inPlace⟩ := query.text_branches rooted
  have branch : (⟨"other", "o"⟩, [owner, company]) ∈ query.branches := by decide +kernel
  obtain ⟨members, -, behind⟩ := (inPlace forest).2 _ branch
  have last : company ∈ [owner, company] := List.mem_cons_of_mem _ List.mem_cons_self
  refine ⟨rooted, forest, by decide +kernel, once, ((members company).1 last).2, ?_⟩
  exact behind owner List.mem_cons_self company last ⟨"company", by decide +kernel⟩

end Query

end WhereClause
