import WhereClause.Form
import WhereClause.Proofs.Ordering

/-! Histories of calls on one query: compiling, applying, sorting and resolving in any order, calls
that fail included. All that such a call does is to join paths, bind parameters, restrict the
condition and add terms. Main statement: none of it changes what a key or a sorted path means,
whatever was joined before. Roots and joins that a caller adds in between are no calls. -/
namespace WhereClause

namespace Outcome

variable {α β : Type} {P : Query → Prop}

theorem andThen_keeps {outcome : Outcome α} {next : α → Query → Outcome β} (h : P outcome.query)
    (step : ∀ answer query, P query → P (next answer query).query) :
    P (outcome.andThen next).query := by
  obtain ⟨query, result⟩ := outcome
  cases result with
  | ok answer => exact step answer query h
  | error error => exact h

end Outcome

theorem Filter.compile_keeps {P : Query → Prop} {settings : Settings} {query : Query} (key : String)
    (value : Value) (h : P query)
    (grow : ∀ base paths members, P (query.grow base paths (bindings settings value members))) :
    P (compile settings key value query).query := by
  cases source : query.rootAlias? with
  | none =>
    rw [compile_of_rootAlias?_none key source]
    exact h
  | some root =>
    rcases takes_or_refused value (Key.members key) with
      all | ⟨taken, refused, left, split, before, here⟩
    · rw [compile_of_takes source all]
      exact grow _ _ _
    · rw [compile_of_refused source split before here]
      exact grow _ _ _

inductive Call where
  | apply (settings : Settings) (mode : Connective) (filters : Filters)
  | applyDefault (settings : Settings) (filters : Filters)
  | compile (settings : Settings) (key : String) (value : Value)
  | sort (sorting : Sorting)
  | form (settings : Settings) (form : Form)
  | resolve (base path : String)

namespace Call

def run : Call → Query → Query
  | apply settings mode filters, query => (Filter.apply settings mode filters query).query
  | applyDefault settings filters, query => (Filter.applyDefault settings filters query).query
  | compile settings key value, query => (Filter.compile settings key value query).query
  | sort sorting, query => (sorting.apply query).query
  | form settings submitted, query => (submitted.apply settings query).query
  | resolve base path, query => (query.resolve base path).2

def runAll (calls : List Call) (query : Query) : Query :=
  calls.foldl (fun query call => call.run query) query

end Call

/-- Whether a property of queries outlasts whatever a call does: joining paths and binding
parameters, adding the clause of an entry that compiles, and adding terms. -/
structure Outlasts (P : Query → Prop) : Prop where
  grow : ∀ query base paths bindings, P query → P (query.grow base paths bindings)
  restrict : ∀ settings mode query root entry, P query → query.rootAlias? = some root →
    Filter.Takes entry →
    P ((query.grow root (Filter.paths (Key.members entry.1))
      (Filter.bindings settings entry.2 (Key.members entry.1))).restrict mode
        (Filter.clauseIn settings query root entry))
  sort : ∀ query root entries, P query → query.rootAlias? = some root →
    P (Sorting.afterTerms root entries query)

namespace Outlasts

variable {P : Query → Prop} {query : Query}

theorem resolve (lasts : Outlasts P) (base path : String) (h : P query) :
    P (query.resolve base path).2 := by
  rw [Query.resolve_eq]
  exact lasts.grow query base [path] [] h

theorem compile (lasts : Outlasts P) (settings : Settings) (key : String) (value : Value)
    (h : P query) : P (Filter.compile settings key value query).query :=
  Filter.compile_keeps key value h fun base paths _ => lasts.grow query base paths _ h

theorem applyEntries (lasts : Outlasts P) (settings : Settings) (mode : Connective)
    (entries : List (String × Value)) (h : P query) :
    P (Filter.applyEntries settings mode entries query).query := by
  induction entries generalizing query with
  | nil => exact h
  | cons entry rest ih =>
    have left := lasts.compile settings entry.1 entry.2 h
    rw [Filter.applyEntries]
    cases result : (Filter.compile settings entry.1 entry.2 query).result with
    | error error =>
      rw [Outcome.andThen, result]
      exact left
    | ok predicate =>
      obtain ⟨root, source, taken, -⟩ := Filter.takes_of_compile result
      rw [Filter.compile_of_takes source taken, Outcome.andThen_ok]
      exact ih (lasts.restrict settings mode query root entry h source taken)

theorem sorting (lasts : Outlasts P) (sorting : Sorting) (h : P query) :
    P (sorting.apply query).query := by
  cases source : query.rootAlias? with
  | none =>
    rw [Sorting.apply, source]
    split <;> exact h
  | some root =>
    rw [sorting.apply_of_rootAlias? source]
    exact lasts.sort query root sorting.entries h source

theorem form (lasts : Outlasts P) (settings : Settings) (form : Form) (h : P query) :
    P (form.apply settings query).query := by
  refine Outcome.andThen_keeps ?_ fun _ query h => ?_
  · rw [Form.applyData]
    split
    · exact h
    · exact lasts.applyEntries settings form.mode _ h
  · rw [Form.applySorting]
    split
    · exact h
    · exact lasts.sorting _ h

theorem call (lasts : Outlasts P) (call : Call) (h : P query) : P (call.run query) := by
  cases call with
  | apply settings mode filters => exact lasts.applyEntries settings mode filters.entries h
  | applyDefault settings filters =>
    exact lasts.applyEntries settings settings.mode filters.entries h
  | compile settings key value => exact lasts.compile settings key value h
  | sort sorting => exact lasts.sorting sorting h
  | form settings form => exact lasts.form settings form h
  | resolve base path => exact lasts.resolve base path h

theorem calls (lasts : Outlasts P) (calls : List Call) (h : P query) :
    P (Call.runAll calls query) := by
  induction calls generalizing query with
  | nil => exact h
  | cons call rest ih => exact ih (lasts.call call h)

end Outlasts

/-- Whether fields without an alias of their own belong where they did, and every path leads where
it did. -/
structure SameFields (query after : Query) : Prop where
  root : after.rootAlias? = query.rootAlias?
  target : ∀ base path, after.target base path = query.target base path

theorem SameFields.refl (query : Query) : SameFields query query := ⟨rfl, fun _ _ => rfl⟩

theorem SameFields.joinPaths {query after : Query} {root : String} (h : SameFields query after)
    (source : query.rootAlias? = some root) (base : String) (paths : List String) :
    SameFields query (after.joinPaths base paths) where
  root := (Query.rootAlias?_joinPaths base paths (h.root.trans source)).trans source.symm
  target other path :=
    (after.target_joinPaths_any base other paths path).trans (h.target other path)

theorem outlasts_sameFields {query : Query} {root : String}
    (source : query.rootAlias? = some root) : Outlasts (SameFields query) where
  grow _ base paths _ h :=
    ⟨(h.joinPaths source base paths).root, (h.joinPaths source base paths).target⟩
  restrict _ _ _ root entry h _ _ :=
    let joined := h.joinPaths source root (Filter.paths (Key.members entry.1))
    ⟨joined.root, joined.target⟩
  sort _ root entries h _ :=
    let joined := h.joinPaths source root (Entries.names entries)
    ⟨joined.root, joined.target⟩

theorem SameFields.leafIn {query after : Query} (h : SameFields query after) (settings : Settings)
    (value : Value) (root : String) :
    Filter.leafIn settings value after root = Filter.leafIn settings value query root := by
  funext member
  rw [Filter.leafIn, h.target, Filter.leafIn]

theorem SameFields.compile {query after : Query} (h : SameFields query after) (settings : Settings)
    (key : String) (value : Value) :
    (Filter.compile settings key value after).result =
      (Filter.compile settings key value query).result := by
  cases source : query.rootAlias? with
  | none =>
    rw [Filter.compile_of_rootAlias?_none key source,
      Filter.compile_of_rootAlias?_none key (h.root.trans source)]
  | some root =>
    rcases Filter.takes_or_refused value (Key.members key) with
      all | ⟨taken, refused, left, split, before, here⟩
    · rw [Filter.compile_of_takes source all, Filter.compile_of_takes (h.root.trans source) all,
        h.leafIn]
    · rw [Filter.compile_of_refused source split before here,
        Filter.compile_of_refused (h.root.trans source) split before here]

theorem SameFields.terms {query after : Query} (h : SameFields query after) (root : String)
    (entries : List (String × String)) :
    Sorting.terms after root entries = Sorting.terms query root entries := by
  simp only [Sorting.terms, h.target]

/-- After any calls on a query that has an alias, failing ones included, every key compiles with
every value to the condition or the error that it has before them, and every sorting adds the terms
that it adds before them. -/
theorem meaning_runAll (calls : List Call) (query : Query) (source : query.aliases ≠ []) :
    let after := Call.runAll calls query
    (∀ settings key value,
      (Filter.compile settings key value after).result =
        (Filter.compile settings key value query).result) ∧
    (∀ sorting : Sorting, ∃ terms,
      (sorting.apply query).result = .ok () ∧ (sorting.apply after).result = .ok () ∧
      (sorting.apply query).query.order = query.order ++ terms ∧
      (sorting.apply after).query.order = after.order ++ terms) := by
  intro after
  obtain ⟨first, rest, aliases⟩ := List.exists_cons_of_ne_nil source
  have root : query.rootAlias? = some first := by rw [Query.rootAlias?, aliases, List.head?_cons]
  have same : SameFields query after :=
    (outlasts_sameFields root).calls calls (SameFields.refl query)
  refine ⟨same.compile, fun sorting => ⟨Sorting.terms query first sorting.entries, ?_⟩⟩
  have before := sorting.apply_of_rootAlias? root
  have later := sorting.apply_of_rootAlias? (same.root.trans root)
  refine ⟨congrArg Outcome.result before, congrArg Outcome.result later,
    congrArg (fun outcome => outcome.query.order) before, ?_⟩
  rw [later, ← same.terms]
  rfl

theorem meaning_runAll_after_failure :
    let query : Query :=
      { joins := [⟨.left, "x.t", "t"⟩, ⟨.inner, "t.owner", "o"⟩, ⟨.left, "t.owner", "p"⟩] }
    let failing : Filters := Table.ofList [("boss.a___or___team.b__between", .int 5)]
    let sorting : Sorting := Table.ofList [("boss.age", "desc"), ("owner.name", "asc")]
    let calls : List Call := [.resolve "t.owner" "boss.name", .apply {} .or failing, .sort sorting]
    let after := Call.runAll calls query
    query.aliases ≠ [] ∧ after.aliases = ["t", "o", "p", "boss", "boss", "team"] ∧
      (Filter.compile {} "owner.name__null___or___boss.age__lt" (.int 3) after).result =
        .ok (.group .or [.isNull "p.name", .comparison "boss.age" "<" "3"]) ∧
      (sorting.apply after).query.order =
        after.order ++ ["boss.age desc", "p.name asc"] := by
  intro query failing sorting calls after
  have source : query.aliases ≠ [] := by decide
  obtain ⟨compiles, sorts⟩ := meaning_runAll calls query source
  obtain ⟨terms, -, -, before, later⟩ := sorts sorting
  have added : terms = ["boss.age desc", "p.name asc"] := before.symm.trans rfl
  refine ⟨source, by decide +kernel, (compiles _ _ _).trans (by with_unfolding_all rfl), ?_⟩
  rw [later, added]

end WhereClause
