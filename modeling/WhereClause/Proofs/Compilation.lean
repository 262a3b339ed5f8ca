import Mathlib.Data.List.Forall2
import WhereClause.Proofs.OperatorTable

/-! What an entry compiles to, said of its members and of the query before. The compiler goes
through a query that changes from member to member; the relation here puts together the rows of the
table and the columns of one query. Main statement: both agree, so no member's condition or refusal
hangs on what the members before it left behind. Nothing is said of the digests in the names of
parameters. -/
namespace WhereClause.Filter

structure Part where
  predicate : Predicate
  binding? : Option (String × Value)
  segment? : Option String

def IsPart (settings : Settings) (query : Query) (root : String) (value : Value) (member : String)
    (part : Part) : Prop :=
  ∃ column, query.Leads root (Field.ofMember member).path column part.segment? ∧
    IsRow settings (settings.stem ++ Digest.short member settings.hashLength) root member column
      (Field.ofMember member) value part.predicate part.binding?

/-- The query that parts leave: a left join for each segment that they ask for, in the order of
first use, and their bindings, of which the last of a name stays. -/
def leave (query : Query) (root : String) (parts : List Part) (segment? : Option String) : Query :=
  { query with
    joins := query.joins ++ (parts.filterMap Part.segment? ++ segment?.toList).eraseDups.map
      fun segment => ⟨.left, root ++ "." ++ segment, segment⟩
    parameters := query.parameters.putAll (parts.filterMap Part.binding?) }

/-- What an entry compiles to. A member that refuses the value still joins what its path asks for,
and members behind it do nothing. -/
inductive Compiles (settings : Settings) (key : String) (value : Value) (query : Query) :
    Outcome Predicate → Prop
  | missing (roots : query.roots = []) (joins : query.joins = []) :
      Compiles settings key value query ⟨query, .error .missingSource⟩
  | all {root : String} {others : List String} {parts : List Part}
      (aliases : query.roots.map Root.aliasName ++ query.joins.map Join.aliasName = root :: others)
      (each : List.Forall₂ (IsPart settings query root value) (Key.members key) parts) :
      Compiles settings key value query
        ⟨leave query root parts none, .ok (.group .or (parts.map Part.predicate))⟩
  | refused {root column refused : String} {others before after : List String} {parts : List Part}
      {segment? : Option String} {error : FilterError}
      (aliases : query.roots.map Root.aliasName ++ query.joins.map Join.aliasName = root :: others)
      (split : Key.members key = before ++ refused :: after)
      (each : List.Forall₂ (IsPart settings query root value) before parts)
      (leads : query.Leads root (Field.ofMember refused).path column segment?)
      (refusal : IsRefused (Field.ofMember refused).suffix? value error) :
      Compiles settings key value query ⟨leave query root parts segment?, .error error⟩

def partOf (settings : Settings) (value : Value) (query : Query) (root member : String) : Part :=
  ⟨leafIn settings value query root member, binding? settings value member,
    query.newSegment? root (Field.ofMember member).path⟩

section

variable {settings : Settings} {key member root : String} {value : Value} {query : Query}
  {members : List String} {part : Part} {parts : List Part} {outcome : Outcome Predicate}

theorem isPart_iff : IsPart settings query root value member part ↔
    takes value member = true ∧ partOf settings value query root member = part := by
  constructor
  · rintro ⟨column, leads, row⟩
    obtain ⟨rfl, segment⟩ := Query.leads_iff.1 leads
    obtain ⟨taken, predicate, binding⟩ := IsRow.takes row Query.aliasName_target
    refine ⟨taken, ?_⟩
    rw [partOf, leafIn, predicate, binding, segment]
  · rintro ⟨taken, rfl⟩
    exact ⟨_, query.leads_target root _, isRow_of_takes taken Query.aliasName_target⟩

theorem forall₂_isPart_iff : List.Forall₂ (IsPart settings query root value) members parts ↔
    (∀ member ∈ members, takes value member = true) ∧
      members.map (partOf settings value query root) = parts := by
  have each : IsPart settings query root value = fun member part =>
      takes value member = true ∧ partOf settings value query root member = part := by
    funext member part
    exact propext isPart_iff
  rw [each, List.forall₂_and_left, ← List.forall₂_map_left_iff, List.forall₂_eq_eq_eq]

theorem leave_parts (members asked : List String) {segment? : Option String}
    (last : segment?.toList = asked.filterMap (query.newSegment? root)) :
    leave query root (members.map (partOf settings value query root)) segment? =
      query.grow root (paths members ++ asked) (bindings settings value members) := by
  rw [leave, List.filterMap_map, List.filterMap_map, last, Query.grow, Query.joinPaths,
    Query.newJoins, Query.newSegments_eq, List.filterMap_append, paths, List.filterMap_map]
  rfl

theorem rootAlias?_of_aliases {others : List String}
    (aliases : query.roots.map Root.aliasName ++ query.joins.map Join.aliasName = root :: others) :
    query.rootAlias? = some root := by
  rw [Query.rootAlias?, Query.aliases, aliases, List.head?_cons]

theorem Compiles.eq_compile (h : Compiles settings key value query outcome) :
    compile settings key value query = outcome := by
  cases h with
  | missing roots joins =>
    have source : query.rootAlias? = none := by
      rw [Query.rootAlias?, Query.aliases, roots, joins]
      rfl
    exact compile_of_rootAlias?_none key source
  | all aliases each =>
    obtain ⟨taken, rfl⟩ := forall₂_isPart_iff.1 each
    rw [compile_of_takes (rootAlias?_of_aliases aliases) taken, leave_parts _ [] rfl,
      List.append_nil, List.map_map]
    rfl
  | @refused root column refused _ before _ _ _ _ aliases split each leads refusal =>
    obtain ⟨taken, rfl⟩ := forall₂_isPart_iff.1 each
    obtain ⟨untaken, rfl⟩ := isRefused_iff.1 refusal
    obtain ⟨-, rfl⟩ := Query.leads_iff.1 leads
    rw [compile_of_refused (rootAlias?_of_aliases aliases) split taken untaken,
      leave_parts before [(Field.ofMember refused).path] rfl, paths_append]
    rfl

theorem exists_compiles (settings : Settings) (key : String) (value : Value) (query : Query) :
    ∃ outcome, Compiles settings key value query outcome := by
  cases aliases : query.roots.map Root.aliasName ++ query.joins.map Join.aliasName with
  | nil =>
    obtain ⟨roots, joins⟩ := List.append_eq_nil_iff.1 aliases
    exact ⟨_, .missing (List.map_eq_nil_iff.1 roots) (List.map_eq_nil_iff.1 joins)⟩
  | cons root others =>
    rcases takes_or_refused value (Key.members key) with
      taken | ⟨before, refused, after, split, taken, untaken⟩
    · exact ⟨_, .all aliases (forall₂_isPart_iff.2 ⟨taken, rfl⟩)⟩
    · exact ⟨_, .refused aliases split (forall₂_isPart_iff.2 ⟨taken, rfl⟩)
        (query.leads_target root _) (isRefused_iff.2 ⟨untaken, rfl⟩)⟩

end

/-- Compiling an entry member by member on the growing query gives what the table gives for each
member on the query before: their conditions in order, one for each, or the first refusal, and the
joins and bindings up to there. -/
theorem compile_iff_compiles (settings : Settings) (key : String) (value : Value) (query : Query)
    (outcome : Outcome Predicate) :
    compile settings key value query = outcome ↔ Compiles settings key value query outcome := by
  refine ⟨?_, Compiles.eq_compile⟩
  rintro rfl
  obtain ⟨outcome, compiles⟩ := exists_compiles settings key value query
  rwa [compiles.eq_compile]

theorem compile_iff_compiles_mixed :
    let settings : Settings := { escapeLike := true }
    let query : Query :=
      { roots := [⟨"test", "t"⟩], joins := [⟨.inner, "t.owner", "o"⟩, ⟨.left, "t.owner", "p"⟩] }
    let accepted := "a__b___or___owner.name.first___or___boss.n__lte___or___boss.n__null"
    let refused := "boss.name__like___or___team.n__between___or___club.x"
    compile settings accepted (.text "null") query =
        ⟨{ query with
            joins := query.joins ++ [⟨.left, "t.boss", "boss"⟩]
            parameters := Table.ofList [("f6421b", .text "null"), ("f3ce66", .text "null")] },
          .ok (.group .or [.comparison "t.a__b" "=" ":f6421b",
            .comparison "p.name.first" "=" ":f3ce66", .comparison "boss.n" "<=" "null",
            .isNull "boss.n"])⟩ ∧
      compile settings refused (.text "5%") query =
        ⟨{ query with
            joins := query.joins ++ [⟨.left, "t.boss", "boss"⟩, ⟨.left, "t.team", "team"⟩]
            parameters := Table.ofList [("fed3f5", .text "%5\\%%")] },
          .error (.wrongShape (some .between) .pair)⟩ := by
  intro settings query accepted refused
  have scalar : ∀ text, (Value.text text).IsScalar := fun text items same => by cases same
  have asks : ∀ segment rest : String, '.' ∉ segment.toList →
      "t" ++ "." ++ segment ∉ query.joins.map Join.source →
      query.Leads "t" (segment ++ "." ++ rest) (segment ++ "." ++ rest) (some segment) :=
    fun segment rest first unused => .new first fun join among same =>
      unused (List.mem_map.2 ⟨join, among, same⟩)
  have boss : query.Leads "t" "boss.n" "boss.n" (some "boss") :=
    asks "boss" "n" (by decide) (by decide)
  have whole : IsPart settings query "t" (.text "null") "a__b"
      ⟨.comparison "t.a__b" "=" ":f6421b", some ("f6421b", .text "null"), none⟩ := by
    have field : Field.ofMember "a__b" = ⟨"a", some "b"⟩ := by decide +kernel
    have name : settings.stem ++ Digest.short "a__b" settings.hashLength = "f6421b" := by
      decide +kernel
    rw [IsPart, field, name]
    exact ⟨"t.a", .plain (by decide), .wholeMember (by decide) (scalar _) (by decide)⟩
  have joined : IsPart settings query "t" (.text "null") "owner.name.first"
      ⟨.comparison "p.name.first" "=" ":f3ce66", some ("f3ce66", .text "null"), none⟩ := by
    have field : Field.ofMember "owner.name.first" = ⟨"owner.name.first", none⟩ := by decide +kernel
    have name : settings.stem ++ Digest.short "owner.name.first" settings.hashLength = "f3ce66" := by
      decide +kernel
    rw [IsPart, field, name]
    exact ⟨"p.name.first", @Query.Leads.joined _ _ "owner" "name.first" [⟨.inner, "t.owner", "o"⟩] []
      ⟨.left, "t.owner", "p"⟩ (by decide) rfl rfl (List.forall_mem_nil _),
      .equality (by decide) (scalar _) (by decide)⟩
  have order : IsPart settings query "t" (.text "null") "boss.n__lte"
      ⟨.comparison "boss.n" "<=" "null", none, some "boss"⟩ := by
    have field : Field.ofMember "boss.n__lte" = ⟨"boss.n", some "lte"⟩ := by decide +kernel
    rw [IsPart, field]
    exact ⟨"boss.n", boss, .order (by decide) (scalar _) (.plain fun text dated => by cases dated)⟩
  have test : IsPart settings query "t" (.text "null") "boss.n__null"
      ⟨.isNull "boss.n", none, some "boss"⟩ := by
    have field : Field.ofMember "boss.n__null" = ⟨"boss.n", some "null"⟩ := by decide +kernel
    rw [IsPart, field]
    refine ⟨"boss.n", boss, .null fun falsy => ?_⟩
    cases falsy with
    | text spelled => exact absurd spelled (by decide)
  have search : IsPart settings query "t" (.text "5%") "boss.name__like"
      ⟨.comparison "boss.name" "LIKE" ":fed3f5", some ("fed3f5", .text "%5\\%%"), some "boss"⟩ := by
    have field : Field.ofMember "boss.name__like" = ⟨"boss.name", some "like"⟩ := by decide +kernel
    have name : settings.stem ++ Digest.short "boss.name__like" settings.hashLength = "fed3f5" := by
      decide +kernel
    rw [IsPart, field, name]
    exact ⟨"boss.name", asks "boss" "name" (by decide) (by decide),
      @IsRow.like _ _ _ _ _ _ "5\\%" _ (scalar _) (by decide)⟩
  have members : Key.members accepted =
      ["a__b", "owner.name.first", "boss.n__lte", "boss.n__null"] := by decide +kernel
  have each := List.Forall₂.cons whole (.cons joined (.cons order (.cons test .nil)))
  rw [← members] at each
  have split : Key.members refused = ["boss.name__like"] ++ "team.n__between" :: ["club.x"] := by
    decide +kernel
  have field : Field.ofMember "team.n__between" = ⟨"team.n", some "between"⟩ := by decide +kernel
  have leads : query.Leads "t" (Field.ofMember "team.n__between").path "team.n" (some "team") := by
    rw [field]
    exact asks "team" "n" (by decide) (by decide)
  have refusal : IsRefused (Field.ofMember "team.n__between").suffix? (.text "5%")
      (.wrongShape (some .between) .pair) := by
    rw [field]
    exact .noPair fun low high same => by cases same
  have compiles := (compile_iff_compiles settings accepted (.text "null") query _).2 (.all rfl each)
  have fails := (compile_iff_compiles settings refused (.text "5%") query _).2
    (.refused rfl split (.cons search .nil) leads refusal)
  exact ⟨compiles.trans rfl, fails.trans rfl⟩

end WhereClause.Filter
