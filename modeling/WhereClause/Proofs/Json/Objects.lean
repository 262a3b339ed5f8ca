import WhereClause.Proofs.Json.Takes
import WhereClause.Proofs.LastWrites

/-! Which texts hold an object, member for member as they stand there, and that readers of objects
take just these. A reader of objects goes from state to state, so what it makes of the members is a
run over them, whatever its states are. Names and items are what the readers of texts and of
documents take; nothing is said about faults. -/
namespace WhereClause.Json

def Member (item : Reader Json) (s : List Char) (name : String) (found : Json)
    (left : List Char) : Prop :=
  ∃ behindName behindColon, Takes takeString s name behindName ∧
    skipBlanks behindName = ':' :: behindColon ∧ Takes item behindColon found left

/-- Members from behind the quote of the first name up to behind the closing brace, with those whose
name comes again. -/
inductive Members (item : Reader Json) : List Char → List (String × Json) → List Char → Prop
  | last {s left rest : List Char} {name : String} {found : Json}
      (member : Member item s name found left) (close : skipBlanks left = '\x7d' :: rest) :
      Members item s [(name, found)] rest
  | more {s left next later rest : List Char} {name : String} {found : Json}
      {members : List (String × Json)} (member : Member item s name found left)
      (comma : skipBlanks left = ',' :: next) (quote : skipBlanks next = '"' :: later)
      (others : Members item later members rest) :
      Members item s ((name, found) :: members) rest

inductive Body (item : Reader Json) : List Char → List (String × Json) → List Char → Prop
  | empty {s rest : List Char} (close : skipBlanks s = '\x7d' :: rest) : Body item s [] rest
  | filled {s next rest : List Char} {members : List (String × Json)}
      (quote : skipBlanks s = '"' :: next) (within : Members item next members rest) :
      Body item s members rest

/-- A text that is an object, with nothing but blanks around it. -/
def IsObjectText (text : String) (members : List (String × Json)) : Prop :=
  ∃ next rest, skipBlanks text.toList = '\x7b' :: next ∧
    Body (takeValue (depthLimit - 1)) next members rest ∧ skipBlanks rest = []

inductive Run {σ ι : Type} (step : σ → ι → σ → Prop) : σ → List ι → σ → Prop
  | nil {state : σ} : Run step state [] state
  | cons {state reached final : σ} {item : ι} {items : List ι} (first : step state item reached)
      (later : Run step reached items final) : Run step state (item :: items) final

section Runs

variable {σ ι : Type} {step other : σ → ι → σ → Prop} {state final : σ} {items : List ι}

theorem run_iff_foldl (f : σ → ι → σ) :
    Run (fun state item reached => reached = f state item) state items final ↔
      final = items.foldl f state := by
  constructor
  · intro h
    induction h with
    | nil => rfl
    | cons first _ ih => rw [ih, first, List.foldl_cons]
  · rintro rfl
    induction items generalizing state with
    | nil => exact .nil
    | cons item items ih => exact .cons rfl ih

theorem run_concat_iff {item : ι} : Run step state (items ++ [item]) final ↔
    ∃ reached, Run step state items reached ∧ step reached item final := by
  constructor
  · intro h
    induction items generalizing state with
    | nil =>
      cases h with
      | cons first later =>
        cases later
        exact ⟨state, .nil, first⟩
    | cons other items ih =>
      cases h with
      | cons first later =>
        obtain ⟨reached, run, last⟩ := ih later
        exact ⟨reached, .cons first run, last⟩
  · rintro ⟨reached, run, last⟩
    induction run with
    | nil => exact .cons last .nil
    | cons first _ ih => exact .cons first (ih last)

theorem Run.imp (h : Run step state items final)
    (weaker : ∀ item ∈ items, ∀ state reached, step state item reached → other state item reached) :
    Run other state items final := by
  induction h with
  | nil => exact .nil
  | cons first _ ih =>
    obtain ⟨here, later⟩ := List.forall_mem_cons.1 weaker
    exact .cons (here _ _ first) (ih later)

end Runs

variable {item : Reader Json} {s rest : List Char} {name : String}
  {state final : List (String × Json)}

theorem takes_colon_iff : Takes takeColon s () rest ↔ skipBlanks s = ':' :: rest := by
  constructor
  · rintro ⟨taken, took, -, rfl⟩
    rw [takeColon] at took
    split at took
    · cases took
    · next start =>
      split at took
      · next colon =>
        cases took
        subst colon
        exact start
      · cases took
  · intro start
    rw [Takes, takeColon]
    split
    · next ended => cases start.symm.trans ended
    · next started =>
      cases start.symm.trans started
      exact ⟨_, if_pos rfl, rfl, rfl⟩

theorem takes_plainMember_iff :
    Takes (plainMember item state name) s final rest ↔
      ∃ behindColon found, skipBlanks s = ':' :: behindColon ∧ Takes item behindColon found rest ∧
        final = Entries.upsert name found state := by
  constructor
  · rintro ⟨taken, took, rfl, rfl⟩
    obtain ⟨colon, took_colon, took⟩ := bind_eq_ok.1 took
    obtain ⟨value, took_value, took⟩ := bind_eq_ok.1 took
    cases took
    exact ⟨colon.rest, value.value, takes_colon_iff.1 ⟨colon, took_colon, rfl, rfl⟩,
      ⟨value, took_value, rfl, rfl⟩, rfl⟩
  · rintro ⟨behindColon, found, start, ⟨value, took_value, rfl, rfl⟩, rfl⟩
    obtain ⟨colon, took_colon, -, rfl⟩ := takes_colon_iff.2 start
    refine ⟨_, bind_eq_ok.2 ⟨colon, took_colon, bind_eq_ok.2 ⟨value, took_value, rfl⟩⟩, rfl, rfl⟩

theorem takes_members_iff {σ : Type} {member : σ → String → Reader σ} {state final : σ} :
    Takes (takeMembers member state) s final rest ↔
      ∃ name behindName reached left, Takes takeString s name behindName ∧
        Takes (member state name) behindName reached left ∧
        (skipBlanks left = '\x7d' :: rest ∧ final = reached ∨
          ∃ next later, skipBlanks left = ',' :: next ∧ skipBlanks next = '"' :: later ∧
            Takes (takeMembers member reached) later final rest) := by
  constructor
  · rintro ⟨taken, took, rfl, rfl⟩
    rw [takeMembers] at took
    obtain ⟨key, took_key, took⟩ := bind_eq_ok.1 took
    obtain ⟨reached, took_item, took⟩ := bind_eq_ok.1 took
    refine ⟨key.value, key.rest, reached.value, reached.rest, ⟨key, took_key, rfl, rfl⟩,
      ⟨reached, took_item, rfl, rfl⟩, ?_⟩
    split at took
    · cases took
    · next start =>
      split at took
      · next close =>
        cases took
        subst close
        exact Or.inl ⟨start, rfl⟩
      split at took
      · next comma =>
        subst comma
        split at took
        · cases took
        · next later =>
          split at took
          · next quote =>
            subst quote
            obtain ⟨others, took_others, took⟩ := bind_eq_ok.1 took
            cases took
            exact Or.inr ⟨_, _, start, later, others, took_others, rfl, rfl⟩
          · split at took <;> cases took
      · cases took
  · rintro ⟨name, behindName, reached, left, ⟨key, took_key, rfl, rfl⟩,
      ⟨item, took_item, rfl, rfl⟩, ending⟩
    rw [Takes, takeMembers, took_key]
    simp only [bind, Except.bind]
    rw [took_item]
    simp only
    rcases ending with ⟨close, rfl⟩ | ⟨next, later, comma, quote, others, took_others, rfl, rfl⟩
    · split
      · next ended => cases close.symm.trans ended
      · next started =>
        cases close.symm.trans started
        exact ⟨_, if_pos rfl, rfl, rfl⟩
    · split
      · next ended => cases comma.symm.trans ended
      · next started =>
        cases comma.symm.trans started
        rw [if_neg (by decide), if_pos rfl]
        split
        · next ended => cases quote.symm.trans ended
        · next started =>
          cases quote.symm.trans started
          rw [if_pos rfl, took_others]
          exact ⟨_, rfl, rfl, rfl⟩

theorem takes_object_iff {σ : Type} {member : σ → String → Reader σ} {state final : σ} :
    Takes (takeObject member state) s final rest ↔
      (skipBlanks s = '\x7d' :: rest ∧ final = state) ∨
        ∃ next, skipBlanks s = '"' :: next ∧ Takes (takeMembers member state) next final rest := by
  constructor
  · rintro ⟨taken, took, rfl, rfl⟩
    rw [takeObject] at took
    split at took
    · cases took
    · next start =>
      split at took
      · next quote =>
        subst quote
        obtain ⟨members, took_members, rfl⟩ := map_eq_ok.1 took
        exact Or.inr ⟨_, start, members, took_members, rfl, rfl⟩
      split at took
      · next close =>
        cases took
        subst close
        exact Or.inl ⟨start, rfl⟩
      · cases took
  · rintro (⟨close, rfl⟩ | ⟨next, quote, members, took, rfl, rfl⟩)
    · rw [Takes, takeObject]
      split
      · next ended => cases close.symm.trans ended
      · next started =>
        cases close.symm.trans started
        rw [if_neg (by decide), if_pos rfl]
        exact ⟨_, rfl, rfl, rfl⟩
    · rw [Takes, takeObject]
      split
      · next ended => cases quote.symm.trans ended
      · next started =>
        cases quote.symm.trans started
        rw [if_pos rfl, took]
        exact ⟨_, rfl, rfl, rfl⟩

theorem Member.unique {found other : Json} {name' : String} {left left' : List Char}
    (h : Member item s name found left) (h' : Member item s name' other left') :
    name = name' ∧ found = other ∧ left = left' := by
  obtain ⟨behindName, behindColon, named, colon, value⟩ := h
  obtain ⟨behindName', behindColon', named', colon', value'⟩ := h'
  obtain ⟨rfl, rfl⟩ := takes_unique named named'
  cases colon.symm.trans colon'
  obtain ⟨rfl, rfl⟩ := takes_unique value value'
  exact ⟨rfl, rfl, rfl⟩

theorem Members.unique {members more : List (String × Json)} {rest' : List Char}
    (h : Members item s members rest) (h' : Members item s more rest') :
    members = more ∧ rest = rest' := by
  induction h generalizing more rest' with
  | last member close =>
    cases h' with
    | last member' close' =>
      obtain ⟨rfl, rfl, rfl⟩ := member.unique member'
      cases close.symm.trans close'
      exact ⟨rfl, rfl⟩
    | more member' comma' =>
      obtain ⟨rfl, rfl, rfl⟩ := member.unique member'
      cases close.symm.trans comma'
  | more member comma quote _ ih =>
    cases h' with
    | last member' close' =>
      obtain ⟨rfl, rfl, rfl⟩ := member.unique member'
      cases comma.symm.trans close'
    | more member' comma' quote' others' =>
      obtain ⟨rfl, rfl, rfl⟩ := member.unique member'
      cases comma.symm.trans comma'
      cases quote.symm.trans quote'
      obtain ⟨rfl, rfl⟩ := ih others'
      exact ⟨rfl, rfl⟩

theorem Body.unique {members more : List (String × Json)} {rest' : List Char}
    (h : Body item s members rest) (h' : Body item s more rest') :
    members = more ∧ rest = rest' := by
  cases h with
  | empty close =>
    cases h' with
    | empty close' =>
      cases close.symm.trans close'
      exact ⟨rfl, rfl⟩
    | filled quote' => cases close.symm.trans quote'
  | filled quote within =>
    cases h' with
    | empty close' => cases quote.symm.trans close'
    | filled quote' within' =>
      cases quote.symm.trans quote'
      exact within.unique within'

theorem Member.length_le {found : Json} {left : List Char} (h : Member item s name found left) :
    left.length ≤ s.length := by
  obtain ⟨behindName, behindColon, named, colon, value⟩ := h
  have skipped := length_skipBlanks_le behindName
  rw [colon, List.length_cons] at skipped
  have := named.length_le
  have := value.length_le
  omega

section Steps

variable {σ : Type} {member : σ → String → Reader σ} {adds : σ → String × Json → σ → Prop}
  {start finish : σ}

theorem run_of_takes (h : Takes (takeMembers member start) s finish rest)
    (step : ∀ state name s reached left, Takes (member state name) s reached left →
      ∃ behindColon found, skipBlanks s = ':' :: behindColon ∧ Takes item behindColon found left ∧
        adds state (name, found) reached) :
    ∃ members, Members item s members rest ∧ Run adds start members finish := by
  -- Each round begins behind the comma and the quote that end the one before, so in a shorter text.
  induction length : s.length using Nat.strongRecOn generalizing s start with
  | ind n ih =>
    obtain ⟨name, behindName, reached, left, named, taken, ending⟩ := takes_members_iff.1 h
    obtain ⟨behindColon, found, colon, value, adds⟩ := step _ _ _ _ _ taken
    have member : Member item s name found left := ⟨behindName, behindColon, named, colon, value⟩
    rcases ending with ⟨close, rfl⟩ | ⟨next, later, comma, quote, others⟩
    · exact ⟨_, .last member close, .cons adds .nil⟩
    · have shorter : later.length < n := by
        have within := member.length_le
        have skipped := length_skipBlanks_le left
        have again := length_skipBlanks_le next
        rw [comma, List.length_cons] at skipped
        rw [quote, List.length_cons] at again
        omega
      obtain ⟨members, within, run⟩ := ih later.length shorter others rfl
      exact ⟨_, .more member comma quote within, .cons adds run⟩

theorem takes_of_run {members : List (String × Json)} (h : Members item s members rest)
    (run : Run adds start members finish)
    (step : ∀ state name s behindColon found reached left, skipBlanks s = ':' :: behindColon →
      Takes item behindColon found left → adds state (name, found) reached →
        Takes (member state name) s reached left) :
    Takes (takeMembers member start) s finish rest := by
  induction h generalizing start with
  | last member close =>
    obtain ⟨behindName, behindColon, named, colon, value⟩ := member
    cases run with
    | cons first later =>
      cases later
      exact takes_members_iff.2 ⟨_, behindName, _, _, named, step _ _ _ _ _ _ _ colon value first,
        Or.inl ⟨close, rfl⟩⟩
  | more member comma quote _ ih =>
    obtain ⟨behindName, behindColon, named, colon, value⟩ := member
    cases run with
    | cons first later =>
      exact takes_members_iff.2 ⟨_, behindName, _, _, named, step _ _ _ _ _ _ _ colon value first,
        Or.inr ⟨_, _, comma, quote, ih later⟩⟩

end Steps

theorem members_of_takes (h : Takes (takeMembers (plainMember item) state) s final rest) :
    ∃ members, Members item s members rest ∧ final = Entries.upsertAll state members := by
  let write (earlier : List (String × Json)) (entry : String × Json) :=
    Entries.upsert entry.1 entry.2 earlier
  have written : ∃ members, Members item s members rest ∧
      Run (fun earlier entry reached => reached = write earlier entry) state members final :=
    run_of_takes h fun _ _ _ _ _ => takes_plainMember_iff.1
  obtain ⟨members, within, run⟩ := written
  exact ⟨members, within, (run_iff_foldl write).1 run⟩

theorem takes_of_members {members : List (String × Json)} (h : Members item s members rest) :
    Takes (takeMembers (plainMember item) state) s (Entries.upsertAll state members) rest := by
  refine takes_of_run h ((run_iff_foldl _).2 rfl) fun _ _ _ _ _ _ _ colon value same => ?_
  exact takes_plainMember_iff.2 ⟨_, _, colon, value, same⟩

theorem takes_plainObject_iff :
    Takes (takeObject (plainMember item) []) s final rest ↔
      ∃ members, Body item s members rest ∧ final = Entries.lastWrites members := by
  rw [takes_object_iff]
  constructor
  · rintro (⟨close, rfl⟩ | ⟨next, quote, taken⟩)
    · exact ⟨[], .empty close, rfl⟩
    · obtain ⟨members, within, rfl⟩ := members_of_takes taken
      exact ⟨members, .filled quote within, Entries.upsertAll_nil members⟩
  · rintro ⟨members, _ | ⟨quote, within⟩, rfl⟩
    · next close => exact Or.inl ⟨close, rfl⟩
    · rw [← Entries.upsertAll_nil]
      exact Or.inr ⟨_, quote, takes_of_members within⟩

theorem takes_record_iff {σ : Type} {expected : String} {member : σ → String → Reader σ}
    {state final : σ} : Takes (takeRecord expected member state) s final rest ↔
      ∃ next, skipBlanks s = '\x7b' :: next ∧ Takes (takeObject member state) next final rest := by
  constructor
  · rintro ⟨taken, took, rfl, rfl⟩
    rw [takeRecord] at took
    split at took
    · cases took
    · next start =>
      split at took
      · next brace =>
        subst brace
        obtain ⟨object, took_object, rfl⟩ := map_eq_ok.1 took
        exact ⟨_, start, object, took_object, rfl, rfl⟩
      · cases took
  · rintro ⟨next, start, object, took, rfl, rfl⟩
    rw [Takes, takeRecord]
    split
    · next ended => cases start.symm.trans ended
    · next started =>
      cases start.symm.trans started
      rw [if_pos rfl, took]
      exact ⟨_, rfl, rfl, rfl⟩

theorem takes_nested_object_iff {members : List (String × Json)} :
    Takes (takeNested (some item)) s (.object members) rest ↔
      ∃ next, skipBlanks s = '\x7b' :: next ∧
        Takes (takeObject (plainMember item) []) next members rest := by
  constructor
  · rintro ⟨taken, took, value, rfl⟩
    rw [takeNested] at took
    split at took
    · cases took
    next start =>
    split at took
    · obtain ⟨array, -, rfl⟩ := map_eq_ok.1 took
      cases value
    split at took
    · next brace =>
      subst brace
      obtain ⟨object, took_object, rfl⟩ := map_eq_ok.1 took
      cases value
      exact ⟨_, start, object, took_object, rfl, rfl⟩
    · obtain ⟨scalar, took_scalar, rfl⟩ := map_eq_ok.1 took
      have kind := takesScalars_takeScalar _ scalar took_scalar
      rw [show scalar.value = .object members from value] at kind
      cases kind
  · rintro ⟨next, start, object, took, rfl, rfl⟩
    rw [Takes, takeNested]
    split
    · next ended => cases start.symm.trans ended
    · next started =>
      cases start.symm.trans started
      rw [if_neg (by decide), if_pos rfl]
      dsimp only
      rw [took]
      exact ⟨_, rfl, rfl, rfl⟩

theorem requireEnd_eq_ok_iff : requireEnd rest = .ok () ↔ skipBlanks rest = [] := by
  rw [requireEnd]
  split
  · next ended => exact iff_of_true rfl ended
  · next c more start =>
    exact iff_of_false (fun h => by cases h) (start ▸ List.cons_ne_nil c more)

theorem readAll_eq_ok_iff {α : Type} {reader : Reader α} {text : String} {value : α} :
    readAll reader text = .ok value ↔
      ∃ rest, Takes reader text.toList value rest ∧ skipBlanks rest = [] := by
  constructor
  · intro h
    rw [readAll] at h
    split at h
    · cases h
    next taken took =>
    split at h
    · cases h
    next ended =>
    cases h
    exact ⟨taken.rest, ⟨taken, took, rfl, rfl⟩, requireEnd_eq_ok_iff.1 ended⟩
  · rintro ⟨rest, ⟨taken, took, rfl, rfl⟩, ended⟩
    rw [readAll, took]
    dsimp only
    rw [requireEnd_eq_ok_iff.2 ended]

section Texts

variable {text : String} {table : List (String × Json)}

theorem isObjectText_unique {members more : List (String × Json)}
    (h : IsObjectText text members) (h' : IsObjectText text more) : members = more := by
  obtain ⟨next, rest, start, body, -⟩ := h
  obtain ⟨next', rest', start', body', -⟩ := h'
  cases start.symm.trans start'
  exact (body.unique body').1

theorem exists_isObjectText_iff :
    (∃ members, IsObjectText text members ∧ Entries.lastWrites members = table) ↔
      ∃ rest, (∃ next, skipBlanks text.toList = '\x7b' :: next ∧
        Takes (takeObject (plainMember (takeValue (depthLimit - 1))) []) next table rest) ∧
          skipBlanks rest = [] := by
  constructor
  · rintro ⟨members, ⟨next, rest, start, body, ended⟩, rfl⟩
    exact ⟨rest, ⟨next, start, takes_plainObject_iff.2 ⟨members, body, rfl⟩⟩, ended⟩
  · rintro ⟨rest, ⟨next, start, taken⟩, ended⟩
    obtain ⟨members, body, rfl⟩ := takes_plainObject_iff.1 taken
    exact ⟨members, ⟨next, rest, start, body, ended⟩, rfl⟩

theorem readAll_record_iff {expected : String} :
    readAll (takeRecord expected (plainMember (takeValue (depthLimit - 1))) []) text = .ok table ↔
      ∃ members, IsObjectText text members ∧ Entries.lastWrites members = table := by
  simp only [readAll_eq_ok_iff, takes_record_iff, exists_isObjectText_iff]

theorem readAll_object_iff :
    readAll (takeValue depthLimit) text = .ok (.object table) ↔
      ∃ members, IsObjectText text members ∧ Entries.lastWrites members = table := by
  rw [exists_isObjectText_iff, readAll_eq_ok_iff]
  exact exists_congr fun rest => and_congr_left fun _ => takes_nested_object_iff

end Texts

end WhereClause.Json
