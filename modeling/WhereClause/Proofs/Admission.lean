import Mathlib.Data.List.Forall2
import WhereClause.EntryText
import WhereClause.Proofs.Json.Objects
import WhereClause.Proofs.JsonRoundTrip
import WhereClause.Proofs.Members

/-! Which texts are taken as entries, and what is answered to the others. Four checks are made one
after the other: of the size of the text, of its form, of the number of its distinct names, and of
the items that stand last under them. What exactly is wrong with a text that is no object is not
described here. -/
namespace WhereClause

inductive Json.HoldsObject : Json → Prop
  | object (members : List (String × Json)) : HoldsObject (.object members)
  | item {items : List Json} {item : Json} (among : item ∈ items) (inside : HoldsObject item) :
      HoldsObject (.array items)

open Json Entries

theorem Json.holdsObject_array_iff {items : List Json} :
    HoldsObject (.array items) ↔ ∃ item ∈ items, HoldsObject item :=
  ⟨fun | .item among inside => ⟨_, among, inside⟩, fun ⟨_, among, inside⟩ => .item among inside⟩

namespace Value

mutual

theorem ofJson?_eq_none_iff : ∀ document : Json, ofJson? document = none ↔ HoldsObject document
  | .null | .bool _ | .float _ | .string _ =>
    iff_of_false (Option.some_ne_none _) fun inside => nomatch inside
  | .int value => by
    refine iff_of_false ?_ fun inside => nomatch inside
    rw [ofJson?]
    split <;> exact Option.some_ne_none _
  | .array items => by
    rw [ofJson?, Option.map_eq_none_iff, ofJsons?_eq_none_iff items, holdsObject_array_iff]
  | .object members => iff_of_true rfl (.object members)

theorem ofJsons?_eq_none_iff :
    ∀ items : List Json, ofJsons? items = none ↔ ∃ item ∈ items, HoldsObject item
  | [] => iff_of_false (Option.some_ne_none _) fun ⟨_, among, _⟩ => nomatch among
  | item :: rest => by
    simp only [List.mem_cons, exists_eq_or_imp]
    rw [← ofJson?_eq_none_iff item, ← ofJsons?_eq_none_iff rest, ofJsons?]
    cases ofJson? item <;> cases ofJsons? rest <;> simp

end

end Value

namespace EntryText

variable {α : Type} {settings : Settings} {text : String} {members : List (String × Json)}

structure Fits (settings : Settings) (text : String) (members : List (String × Json)) : Prop where
  small : text.utf8ByteSize ≤ settings.maxBytes
  object : IsObjectText text members
  few : (names members).eraseDups.length ≤ settings.maxFilters

/-- What is answered to a text of entries. `refuses` says which documents are no items, and `gives`
which item a document is. The item of a name is the last one under it. -/
structure Answers (settings : Settings) (text : String) (refuses : Json → Prop)
    (refusal : String → Json → EntryError) (gives : Json → α → Prop)
    (answer : Except FilterError (Table α)) : Prop where
  tooLarge : settings.maxBytes < text.utf8ByteSize →
    answer = .error (.tooManyBytes settings.maxBytes)
  noObject : text.utf8ByteSize ≤ settings.maxBytes → (∀ members, ¬IsObjectText text members) →
    ∃ error, answer = .error (.invalidEntries (.malformed error))
  tooMany : ∀ members, text.utf8ByteSize ≤ settings.maxBytes → IsObjectText text members →
    settings.maxFilters < (names members).eraseDups.length →
      answer = .error (.tooManyFilters settings.maxFilters)
  refused : ∀ members before key found later, Fits settings text members →
    lastWrites members = before ++ (key, found) :: later →
      (∀ entry ∈ before, ¬refuses entry.2) → refuses found →
        answer = .error (.invalidEntries (refusal key found))
  accepted : ∀ members, Fits settings text members →
    (∀ entry ∈ lastWrites members, ¬refuses entry.2) →
      ∃ table, answer = .ok table ∧
        List.Forall₂ (fun entry given => given.1 = entry.1 ∧ gives entry.2 given.2)
          (lastWrites members) table.entries
  bounded : ∀ table, answer = .ok table → table.size ≤ settings.maxFilters

theorem readObject_of_tooLarge (large : settings.maxBytes < text.utf8ByteSize) :
    readObject settings text = .error (.tooManyBytes settings.maxBytes) :=
  if_pos large

theorem readObject_of_noObject (small : text.utf8ByteSize ≤ settings.maxBytes)
    (none : ∀ members, ¬IsObjectText text members) :
    ∃ error, readObject settings text = .error (.invalidEntries (.malformed error)) := by
  rw [readObject, if_neg (Nat.not_lt.2 small)]
  dsimp only
  split
  · next error _ => exact ⟨error, rfl⟩
  · next table read =>
    obtain ⟨members, object, -⟩ := readAll_record_iff.1 read
    exact absurd object (none members)

theorem readObject_of_isObjectText (small : text.utf8ByteSize ≤ settings.maxBytes)
    (object : IsObjectText text members) :
    readObject settings text =
      if settings.maxFilters < (names members).eraseDups.length then
        .error (.tooManyFilters settings.maxFilters)
      else .ok (lastWrites members) := by
  have read : readAll (takeRecord "a map" (plainMember (takeValue (depthLimit - 1))) []) text =
      .ok (lastWrites members) := readAll_record_iff.2 ⟨members, object, rfl⟩
  rw [readObject, if_neg (Nat.not_lt.2 small)]
  dsimp only
  rw [read, ← length_lastWrites]

theorem Fits.readObject_eq (fits : Fits settings text members) :
    readObject settings text = .ok (lastWrites members) := by
  rw [readObject_of_isObjectText fits.small fits.object, if_neg (Nat.not_lt.2 fits.few)]

theorem readObject_eq_ok {table : List (String × Json)} (h : readObject settings text = .ok table) :
    (names table).Nodup ∧ table.length ≤ settings.maxFilters := by
  rcases Nat.lt_or_ge settings.maxBytes text.utf8ByteSize with large | small
  · rw [readObject_of_tooLarge large] at h
    cases h
  by_cases object : ∃ members, IsObjectText text members
  · obtain ⟨members, object⟩ := object
    rw [readObject_of_isObjectText small object] at h
    split at h
    · cases h
    · next few =>
      cases h
      exact ⟨nodup_names_lastWrites members, by rw [length_lastWrites]; exact Nat.not_lt.1 few⟩
  · obtain ⟨error, refused⟩ := readObject_of_noObject small (not_exists.1 object)
    rw [refused] at h
    cases h

section Convert

variable {item : String → Json → Except FilterError α} {refuses : Json → Prop}
  {refusal : String → Json → EntryError} {gives : Json → α → Prop}
  {entries : List (String × Json)}

def Converts (item : String → Json → Except FilterError α) (entry : String × Json)
    (given : String × α) : Prop :=
  given.1 = entry.1 ∧ item entry.1 entry.2 = .ok given.2

theorem convert_append_refused {before later : List (String × Json)} {key : String} {found : Json}
    {error : FilterError} (taken : ∀ entry ∈ before, ∃ a, item entry.1 entry.2 = .ok a)
    (here : item key found = .error error) :
    convert item (before ++ (key, found) :: later) = .error error := by
  induction before with
  | nil =>
    rw [List.nil_append, convert, here]
    rfl
  | cons entry rest ih =>
    obtain ⟨⟨first, took⟩, others⟩ := List.forall_mem_cons.1 taken
    rw [List.cons_append, convert, took, ih others]
    rfl

theorem convert_eq_ok_iff {converted : List (String × α)} :
    convert item entries = .ok converted ↔ List.Forall₂ (Converts item) entries converted := by
  induction entries generalizing converted with
  | nil =>
    rw [List.forall₂_nil_left_iff, convert]
    exact ⟨fun h => (Except.ok.inj h).symm, fun h => congrArg Except.ok h.symm⟩
  | cons entry rest ih =>
    rw [List.forall₂_cons_left_iff, convert, bind_eq_ok]
    constructor
    · rintro ⟨first, took, h⟩
      obtain ⟨more, later, h⟩ := bind_eq_ok.1 h
      cases h
      exact ⟨(entry.1, first), more, ⟨rfl, took⟩, ih.1 later, rfl⟩
    · rintro ⟨⟨_, first⟩, more, ⟨rfl, took⟩, later, rfl⟩
      exact ⟨first, took, bind_eq_ok.2 ⟨more, ih.2 later, rfl⟩⟩

theorem names_of_converts {converted : List (String × α)}
    (each : List.Forall₂ (Converts item) entries converted) : names converted = names entries := by
  induction each with
  | nil => rfl
  | cons here _ ih => rw [names_cons, names_cons, here.1, ih]

theorem entries_ofList_of_converts {converted : List (String × α)} (nodup : (names entries).Nodup)
    (each : List.Forall₂ (Converts item) entries converted) :
    (Table.ofList converted).entries = converted :=
  Table.entries_ofList (by rwa [names_of_converts each])

theorem exists_convert (taken : ∀ entry ∈ entries, ∃ a, item entry.1 entry.2 = .ok a) :
    ∃ converted, convert item entries = .ok converted := by
  induction entries with
  | nil => exact ⟨[], rfl⟩
  | cons entry rest ih =>
    obtain ⟨⟨first, took⟩, others⟩ := List.forall_mem_cons.1 taken
    obtain ⟨more, later⟩ := ih others
    exact ⟨(entry.1, first) :: more, by rw [convert, took, later]; rfl⟩

def readAs (item : String → Json → Except FilterError α) (settings : Settings) (text : String) :
    Except FilterError (Table α) := do
  let members ← readObject settings text
  return Table.ofList (← convert item members)

theorem readFilters_eq : readFilters = readAs valueOf := rfl

theorem readSorting_eq : readSorting = readAs directionOf := rfl

theorem answers_readAs
    (taken : ∀ key document, ¬refuses document → ∃ a, item key document = .ok a)
    (given : ∀ key document a, item key document = .ok a → gives document a)
    (refused : ∀ key document, refuses document →
      item key document = .error (.invalidEntries (refusal key document))) :
    Answers settings text refuses refusal gives (readAs item settings text) where
  tooLarge large := by
    rw [readAs, readObject_of_tooLarge large]
    rfl
  noObject small none := by
    obtain ⟨error, h⟩ := readObject_of_noObject small none
    exact ⟨error, by rw [readAs, h]; rfl⟩
  tooMany members small object many := by
    rw [readAs, readObject_of_isObjectText small object, if_pos many]
    rfl
  refused members before key found later fits split free here := by
    have stops : convert item (before ++ (key, found) :: later) =
        .error (.invalidEntries (refusal key found)) :=
      convert_append_refused (fun entry among => taken entry.1 entry.2 (free entry among))
        (refused key found here)
    rw [readAs, fits.readObject_eq, split]
    simp only [bind, Except.bind, stops]
  accepted members fits free := by
    obtain ⟨converted, done⟩ :=
      exists_convert fun entry among => taken entry.1 entry.2 (free entry among)
    have each := convert_eq_ok_iff.1 done
    refine ⟨Table.ofList converted, ?_, ?_⟩
    · rw [readAs, fits.readObject_eq]
      simp only [bind, Except.bind, done]
      rfl
    · rw [entries_ofList_of_converts (nodup_names_lastWrites members) each]
      exact each.imp fun _ _ same => ⟨same.1, given _ _ _ same.2⟩
  bounded table h := by
    obtain ⟨members, object, h⟩ := bind_eq_ok.1 h
    obtain ⟨converted, done, h⟩ := bind_eq_ok.1 h
    obtain ⟨nodup, few⟩ := readObject_eq_ok object
    have each := convert_eq_ok_iff.1 done
    cases h
    rw [Table.size, entries_ofList_of_converts nodup each, ← each.length_eq]
    exact few

end Convert

theorem answers_readFilters (settings : Settings) (text : String) :
    Answers settings text HoldsObject (fun key _ => .holdsObject key)
      (fun document value => Value.ofJson? document = some value) (readFilters settings text) := by
  rw [readFilters_eq]
  refine answers_readAs (fun key document free => ?_)
    (fun key document value took => ?_) fun key document inside => ?_
  · obtain ⟨value, found⟩ :=
      Option.ne_none_iff_exists'.1 (mt (Value.ofJson?_eq_none_iff document).1 free)
    exact ⟨value, by rw [valueOf, found]⟩
  · rw [valueOf] at took
    split at took
    · next found =>
      cases took
      exact found
    · cases took
  · rw [valueOf, (Value.ofJson?_eq_none_iff document).2 inside]

theorem answers_readSorting (settings : Settings) (text : String) :
    Answers settings text (fun document => ∀ direction, document ≠ .string direction) .notDirection
      (fun document direction => document = .string direction) (readSorting settings text) := by
  rw [readSorting_eq]
  refine answers_readAs (fun key document shown => ?_)
    (fun key document direction took => ?_) fun key document other => ?_
  · obtain ⟨direction, rfl⟩ := not_forall_not.1 shown
    exact ⟨direction, rfl⟩
  · cases document <;> cases took
    rfl
  · cases document with
    | string direction => exact absurd rfl (other direction)
    | _ => rfl

/-- A text is answered with the error of the first check that it fails, in the order of size, form,
number of names and items, and otherwise with the last item under each name, the names in the order
in which they come first. A text has the form of an object, of certain members and no others, if a
reader of any document reads one. -/
theorem answers_of_text (settings : Settings) (text : String) :
    (∀ table, readAll (takeValue depthLimit) text = .ok (.object table) ↔
      ∃ members, IsObjectText text members ∧ lastWrites members = table) ∧
    (∀ members more, IsObjectText text members → IsObjectText text more → members = more) ∧
    Answers settings text HoldsObject (fun key _ => .holdsObject key)
      (fun document value => Value.ofJson? document = some value) (readFilters settings text) ∧
    Answers settings text (fun document => ∀ direction, document ≠ .string direction) .notDirection
      (fun document direction => document = .string direction) (readSorting settings text) :=
  ⟨fun _ => readAll_object_iff, fun _ _ => isObjectText_unique,
    answers_readFilters settings text, answers_readSorting settings text⟩

theorem answers_of_text_overwritten :
    ∃ table,
      readFilters { maxFilters := 2 } "\x7b\"a\":\x7b\x7d,\"b\":[1],\"a\":2\x7d" = .ok table ∧
      table.entries = [("a", .int 2), ("b", .list [.int 1])] := by
  have empty : Takes (takeValue 126) "\x7b\x7d,\"b\":[1],\"a\":2\x7d".toList (.object [])
      ",\"b\":[1],\"a\":2\x7d".toList :=
    takes_nested_object_iff.2 ⟨_, rfl, takes_plainObject_iff.2 ⟨[], .empty rfl, rfl⟩⟩
  have one : Takes (takeValue 126) "[1],\"a\":2\x7d".toList (.array [.int 1])
      ",\"a\":2\x7d".toList :=
    Value.takes_written (.list [.int 1]) rfl (by decide) rfl
  have two : Takes (takeValue 126) "2\x7d".toList (.int 2) "\x7d".toList :=
    Value.takes_written (.int 2) rfl (by decide) rfl
  have body : Members (takeValue 126) "a\":\x7b\x7d,\"b\":[1],\"a\":2\x7d".toList
      [("a", .object []), ("b", .array [.int 1]), ("a", .int 2)] [] :=
    .more ⟨_, _, takes_string "a" _, rfl, empty⟩ rfl rfl
      (.more ⟨_, _, takes_string "b" _, rfl, one⟩ rfl rfl
        (.last ⟨_, _, takes_string "a" _, rfl, two⟩ rfl))
  have fits : Fits { maxFilters := 2 } "\x7b\"a\":\x7b\x7d,\"b\":[1],\"a\":2\x7d"
      [("a", .object []), ("b", .array [.int 1]), ("a", .int 2)] :=
    ⟨by decide, ⟨_, [], rfl, .filled rfl body, rfl⟩, by decide⟩
  have free : ∀ entry ∈ [("a", Json.int 2), ("b", .array [.int 1])], ¬HoldsObject entry.2 := by
    intro entry among
    rw [← Value.ofJson?_eq_none_iff]
    rcases List.mem_pair.1 among with rfl | rfl <;> exact Option.some_ne_none _
  obtain ⟨table, answer, each⟩ := (answers_of_text { maxFilters := 2 } _).2.2.1.accepted _ fits free
  obtain ⟨first, more, ⟨name, given⟩, later, entries⟩ := List.forall₂_cons_left_iff.1 each
  obtain ⟨second, rest, ⟨name', given'⟩, ended, rfl⟩ := List.forall₂_cons_left_iff.1 later
  obtain rfl := List.forall₂_nil_left_iff.1 ended
  have first_eq : first = ("a", .int 2) := Prod.ext name (Option.some.inj given).symm
  have second_eq : second = ("b", .list [.int 1]) := Prod.ext name' (Option.some.inj given').symm
  exact ⟨table, answer, by rw [entries, first_eq, second_eq]⟩

end EntryText

end WhereClause
