import WhereClause.Proofs.Entries
import WhereClause.Proofs.Like

/-! What the parameters of a query hold once filters are applied. A parameter is named for its
member alone, so a member that stands in several entries has one parameter, and the last of these
entries decides what it holds. Main statement: where names tell members apart, every condition finds
its own value if and only if the entries agree on the members that they share. -/
namespace WhereClause

namespace Table

variable {α : Type} {entries : List (String × α)} {name : String} {item : α}

theorem get?_putAll_of_not_mem (table : Table α) (h : name ∉ Entries.names entries) :
    (table.putAll entries).get? name = table.get? name := by
  induction entries generalizing table with
  | nil => rfl
  | cons entry rest ih =>
    obtain ⟨here, later⟩ := not_or.1 (fun among => h (List.mem_cons.2 among))
    rw [putAll_cons, ih _ later, get?_put, if_neg (Ne.symm here)]

theorem get?_putAll_of_forall (table : Table α) (written : name ∈ Entries.names entries)
    (same : ∀ entry ∈ entries, entry.1 = name → entry.2 = item) :
    (table.putAll entries).get? name = some item := by
  induction entries generalizing table with
  | nil => cases written
  | cons entry rest ih =>
    obtain ⟨here, later⟩ := List.forall_mem_cons.1 same
    rw [putAll_cons]
    by_cases again : name ∈ Entries.names rest
    · exact ih _ again later
    · rcases List.mem_cons.1 written with rfl | among
      · rw [get?_putAll_of_not_mem _ again, get?_put, if_pos rfl, here rfl]
      · exact absurd among again

end Table

namespace Filter

/-- Whether a condition that a member compiles to finds the value of its own entry in the query that
is left in the end: an equality the value, a search its text between percent signs. -/
def KeepsOwn (settings : Settings) (query after : Query) (entry : String × Value)
    (member : String) : Prop :=
  (∀ column name : String,
    (compileMember settings entry.2 member query).result =
        .ok (.comparison column "=" (":" ++ name)) →
      after.parameters.get? name = some entry.2) ∧
  (∀ column name : String,
    (compileMember settings entry.2 member query).result =
        .ok (.comparison column "LIKE" (":" ++ name)) →
      after.parameters.get? name = some (.text ("%" ++
        (if settings.escapeLike then String.ofList (Like.escaped entry.2.display.toList)
          else entry.2.display) ++ "%")))

/-- Whether entries bind the members that they share to the same. -/
def Agree (settings : Settings) (entries : List (String × Value)) : Prop :=
  ∀ entry ∈ entries, ∀ other ∈ entries, ∀ member ∈ Key.members entry.1,
    member ∈ Key.members other.1 →
      binding? settings entry.2 member = binding? settings other.2 member

def NamesApart (settings : Settings) (members : List String) : Prop :=
  ∀ member ∈ members, ∀ other ∈ members,
    parameterName settings member = parameterName settings other → member = other

section

variable {settings : Settings} {entries : List (String × Value)} {query : Query} {root : String}

theorem binding?_name {value : Value} {member : String} {bound : String × Value}
    (h : binding? settings value member = some bound) :
    bound.1 = parameterName settings member := by
  unfold binding? at h
  split at h
  · cases h
    rfl
  · cases h
    rfl
  · cases h

theorem binding?_isSome (settings : Settings) (value other : Value) (member : String) :
    (binding? settings value member).isSome = (binding? settings other member).isSome := by
  unfold binding?
  split <;> rfl

theorem binding?_eq_of_get? {value other : Value} {member : String} {table : Table Value}
    (mine : ∀ bound, binding? settings value member = some bound →
      table.get? bound.1 = some bound.2)
    (others : ∀ bound, binding? settings other member = some bound →
      table.get? bound.1 = some bound.2) :
    binding? settings value member = binding? settings other member := by
  have both := binding?_isSome settings value other member
  cases left : binding? settings value member with
  | none =>
    cases right : binding? settings other member with
    | none => rfl
    | some bound =>
      rw [left, right] at both
      cases both
  | some bound =>
    cases right : binding? settings other member with
    | none =>
      rw [left, right] at both
      cases both
    | some otherBound =>
      have named : bound.1 = otherBound.1 := (binding?_name left).trans (binding?_name right).symm
      have held := mine bound left
      rw [named, others otherBound right] at held
      exact congrArg some (Prod.ext named (Option.some.inj held).symm)

theorem keepsOwn_iff_get? {after : Query} {entry : String × Value} {member : String}
    (h : query.rootAlias? = some root) (taken : takes entry.2 member = true) :
    KeepsOwn settings query after entry member ↔ ∀ bound,
      binding? settings entry.2 member = some bound →
        after.parameters.get? bound.1 = some bound.2 := by
  rw [KeepsOwn, compileMember_of_takes h taken, ← pattern_eq]
  unfold leafIn leaf binding?
  dsimp only
  generalize (Field.ofMember member).operator? = operator?
  cases operator? with
  | none => simp
  | some operator =>
    cases operator with
    | like => simp
    | compare comparison => cases comparison <;> simp
    | isIn => simp
    | null => by_cases holds : entry.2.holds = true <;> simp [holds]
    | between =>
      simp only [Except.ok.injEq]
      split <;> simp
    | is =>
      simp only [Except.ok.injEq]
      split <;> simp

theorem NamesApart.mono {members more : List String} (apart : NamesApart settings more)
    (h : members ⊆ more) : NamesApart settings members :=
  fun member among other otherAmong => apart member (h among) other (h otherAmong)

theorem get?_putAll_bindingsOf (table : Table Value)
    (apart : NamesApart settings (membersOf entries)) {entry : String × Value} {member : String}
    {bound : String × Value} (among : entry ∈ entries) (within : member ∈ Key.members entry.1)
    (binds : binding? settings entry.2 member = some bound)
    (same : ∀ other ∈ entries, member ∈ Key.members other.1 →
      binding? settings other.2 member = some bound) :
    (table.putAll (bindingsOf settings entries)).get? bound.1 = some bound.2 := by
  refine Table.get?_putAll_of_forall table ?_ fun written inAll named => ?_
  · exact List.mem_map_of_mem (mem_bindingsOf.2 ⟨entry, among, member, within, binds⟩)
  · obtain ⟨other, otherAmong, otherMember, otherWithin, otherBinds⟩ := mem_bindingsOf.1 inAll
    rw [binding?_name otherBinds, binding?_name binds] at named
    have one : otherMember = member :=
      apart _ (mem_membersOf.2 ⟨other, otherAmong, otherWithin⟩) _
        (mem_membersOf.2 ⟨entry, among, within⟩) named
    subst one
    have alike := same other otherAmong otherWithin
    rw [otherBinds] at alike
    rw [Option.some.inj alike]

theorem get?_putAll_bindingsOf_of_not_mem (table : Table Value) {member : String}
    (apart : NamesApart settings (member :: membersOf entries))
    (absent : member ∉ membersOf entries) :
    (table.putAll (bindingsOf settings entries)).get? (parameterName settings member) =
      table.get? (parameterName settings member) := by
  refine Table.get?_putAll_of_not_mem table fun written => ?_
  obtain ⟨bound, inAll, named⟩ := List.mem_map.1 written
  obtain ⟨other, among, otherMember, within, binds⟩ := mem_bindingsOf.1 inAll
  rw [binding?_name binds] at named
  have inMembers := mem_membersOf.2 ⟨other, among, within⟩
  have one := apart _ (List.mem_cons_of_mem _ inMembers) _ List.mem_cons_self named
  exact absent (one ▸ inMembers)

theorem get?_putAll_of_last (table : Table Value) {before later : List (String × Value)}
    {last : String × Value} {member : String} {bound : String × Value}
    (apart : NamesApart settings (membersOf (before ++ last :: later)))
    (within : member ∈ Key.members last.1) (absent : ∀ entry ∈ later, member ∉ Key.members entry.1)
    (binds : binding? settings last.2 member = some bound) :
    (table.putAll (bindingsOf settings (before ++ last :: later))).get? bound.1 =
      some bound.2 := by
  have inLast : member ∈ membersOf [last] := mem_membersOf.2 ⟨last, List.mem_cons_self, within⟩
  have notLater : member ∉ membersOf later := by
    intro among
    obtain ⟨entry, inLater, has⟩ := mem_membersOf.1 among
    exact absent entry inLater has
  rw [List.append_cons, membersOf_append, membersOf_append] at apart
  have ofLast : NamesApart settings (membersOf [last]) :=
    apart.mono fun other among => List.mem_append_left _ (List.mem_append_right _ among)
  have ofLater : NamesApart settings (member :: membersOf later) := by
    refine apart.mono (List.cons_subset.2 ⟨?_, List.subset_append_right _ _⟩)
    exact List.mem_append_left _ (List.mem_append_right _ inLast)
  rw [List.append_cons, bindingsOf_append, bindingsOf_append, Table.putAll_append,
    Table.putAll_append, binding?_name binds,
    get?_putAll_bindingsOf_of_not_mem _ ofLater notLater, ← binding?_name binds]
  refine get?_putAll_bindingsOf _ ofLast List.mem_cons_self within binds fun other among _ => ?_
  rw [List.mem_singleton.1 among, binds]

theorem parameters_applyEntries {mode : Connective}
    (h : (applyEntries settings mode entries query).result = .ok ()) :
    (applyEntries settings mode entries query).query.parameters =
      query.parameters.putAll (bindingsOf settings entries) := by
  by_cases empty : entries = []
  · rw [empty]
    rfl
  · obtain ⟨root, source, taken⟩ := takes_of_applyEntries h empty
    rw [applyEntries_of_takes source taken]
    rfl

end

/-- Where filters are applied without an error and names tell their members apart, every condition
on a parameter finds the value of its own entry if and only if entries that share a member bind it
to the same. In any case the last entry that has a member decides what its parameter holds. -/
theorem keepsOwn_iff_agree (settings : Settings) (mode : Connective) (filters : Filters)
    (query : Query) (done : (apply settings mode filters query).result = .ok ())
    (apart : NamesApart settings (membersOf filters.entries)) :
    ((∀ entry ∈ filters.entries, ∀ member ∈ Key.members entry.1,
        KeepsOwn settings query (apply settings mode filters query).query entry member) ↔
      Agree settings filters.entries) ∧
    (∀ (before later : List (String × Value)) (last : String × Value) (member : String)
        (bound : String × Value),
      filters.entries = before ++ last :: later → member ∈ Key.members last.1 →
      (∀ entry ∈ later, member ∉ Key.members entry.1) →
      binding? settings last.2 member = some bound →
      (apply settings mode filters query).query.parameters.get? bound.1 = some bound.2) := by
  have parameters := parameters_applyEntries done
  rw [← apply] at parameters
  have finds : ∀ entry ∈ filters.entries, ∀ member ∈ Key.members entry.1,
      (KeepsOwn settings query (apply settings mode filters query).query entry member ↔
        ∀ bound, binding? settings entry.2 member = some bound →
          (query.parameters.putAll (bindingsOf settings filters.entries)).get? bound.1 =
            some bound.2) := by
    intro entry among member within
    obtain ⟨root, source, taken⟩ := takes_of_applyEntries done (List.ne_nil_of_mem among)
    rw [← parameters]
    exact keepsOwn_iff_get? source (taken entry among member within)
  refine ⟨⟨fun keeps entry among other otherAmong member within otherWithin => ?_,
    fun agree entry among member within => ?_⟩, ?_⟩
  · have mine := (finds entry among member within).1 (keeps entry among member within)
    have others := (finds other otherAmong member otherWithin).1
      (keeps other otherAmong member otherWithin)
    exact binding?_eq_of_get? mine others
  · refine (finds entry among member within).2 fun bound binds => ?_
    refine get?_putAll_bindingsOf _ apart among within binds fun other otherAmong otherWithin => ?_
    rw [← agree entry among other otherAmong member within otherWithin, binds]
  · intro before later last member bound parted within absent binds
    rw [parameters]
    rw [parted] at apart ⊢
    exact get?_putAll_of_last _ apart within absent binds

theorem keepsOwn_iff_agree_shared_member :
    let query : Query := { roots := [⟨"test", "t"⟩] }
    let filters : Filters :=
      Table.ofList [("a", .int 1), ("a___or___b", .int 2), ("c__like", .text "x%")]
    let after := (apply {} .and filters query).query
    (apply {} .and filters query).result = .ok () ∧
      NamesApart {} (membersOf filters.entries) ∧
      (compileMember {} (.int 1) "a" query).result = .ok (.comparison "t.a" "=" ":f0cc17") ∧
      after.parameters.get? "f0cc17" = some (.int 2) ∧
      (compileMember {} (.text "x%") "c__like" query).result =
        .ok (.comparison "t.c" "LIKE" ":f2763a") ∧
      after.parameters.get? "f2763a" = some (.text "%x%%") ∧
      ¬ ∀ entry ∈ filters.entries, ∀ member ∈ Key.members entry.1,
        KeepsOwn {} query after entry member := by
  intro query filters after
  have plain : (Field.ofMember "a").operator? = none := by decide +kernel
  have named : parameterName {} "a" = "f0cc17" := by decide +kernel
  have binds : ∀ value, binding? {} value "a" = some ("f0cc17", value) := by
    intro value
    rw [binding?, plain, named]
  have entries : filters.entries =
      [("a", .int 1), ("a___or___b", .int 2), ("c__like", .text "x%")] := rfl
  have taken : ∀ entry ∈ filters.entries, Takes entry := by
    rw [entries]
    unfold Takes
    decide +kernel
  have done : (apply {} .and filters query).result = .ok () := by
    rw [apply, applyEntries_of_takes rfl taken]
  have apart : NamesApart {} (membersOf filters.entries) := by
    unfold NamesApart
    decide +kernel
  have compiled : (compileMember {} (.int 1) "a" query).result =
      .ok (.comparison "t.a" "=" ":f0cc17") := by
    rw [compileMember_of_takes rfl (by decide +kernel)]
    unfold leafIn leaf
    simp only [plain, named]
    with_unfolding_all rfl
  obtain ⟨keeps_iff, last⟩ := keepsOwn_iff_agree {} .and filters query done apart
  have held := last [("a", .int 1)] [("c__like", .text "x%")] ("a___or___b", .int 2) "a"
    ("f0cc17", .int 2) entries (by decide +kernel) (by decide +kernel) (binds (.int 2))
  have like : (Field.ofMember "c__like").operator? = some .like := by decide +kernel
  have likeNamed : parameterName {} "c__like" = "f2763a" := by decide +kernel
  have searches : (compileMember {} (.text "x%") "c__like" query).result =
      .ok (.comparison "t.c" "LIKE" ":f2763a") := by
    rw [compileMember_of_takes rfl (by decide +kernel)]
    unfold leafIn leaf
    simp only [like, likeNamed]
    with_unfolding_all rfl
  have sought := last [("a", .int 1), ("a___or___b", .int 2)] [] ("c__like", .text "x%") "c__like"
    ("f2763a", .text "%x%%") entries (by decide +kernel) (List.forall_mem_nil _)
    (by rw [binding?, like, likeNamed]; rfl)
  refine ⟨done, apart, compiled, held, searches, sought, fun keeps => ?_⟩
  have agree := keeps_iff.1 keeps
  rw [entries] at agree
  have shared := agree ("a", .int 1) List.mem_cons_self ("a___or___b", .int 2)
    (List.mem_cons_of_mem _ List.mem_cons_self) "a" (by decide +kernel) (by decide +kernel)
  rw [binds, binds] at shared
  cases shared

end Filter

end WhereClause
