import WhereClause.Proofs.Histories
import WhereClause.Proofs.Parameters
import WhereClause.Settings.Load

/-! The names of parameters under settings that were loaded. Loading refuses a stem that cannot begin
a name, and a number of digits that no digest has, be they from the file or from the environment.
Main statement: whatever filters are then applied, every name is an identifier, and as all have one
length, none begins another. Two members may well have the same name. -/
namespace WhereClause

def IsHexDigit (c : Char) : Prop := c.isDigit = true ∨ ('a' ≤ c ∧ c ≤ 'f')

/-- A letter, and behind it letters, digits and underscores, all of them ASCII. -/
def IsIdentifier (name : List Char) : Prop :=
  ∃ first rest, name = first :: rest ∧ first.isAlpha = true ∧
    ∀ c ∈ rest, c.isAlphanum = true ∨ c = '_'

theorem IsHexDigit.isAlphanum {c : Char} (h : IsHexDigit c) : c.isAlphanum = true := by
  rcases h with digit | ⟨low, high⟩
  · exact Bool.or_eq_true_iff.2 (Or.inr digit)
  · have high : c ≤ 'z' := Char.le_trans high (by decide)
    have small : c.isLower = true :=
      Bool.and_eq_true_iff.2 ⟨decide_eq_true low, decide_eq_true high⟩
    exact Bool.or_eq_true_iff.2 (Or.inl (Bool.or_eq_true_iff.2 (Or.inr small)))

namespace Digest

theorem isHexDigit_digitChar {n : Nat} (h : n < 16) : IsHexDigit (Nat.digitChar n) := by
  have all : ∀ n < 16, IsHexDigit (Nat.digitChar n) := by
    unfold IsHexDigit
    decide
  exact all n h

theorem isHexDigit_of_mem_byteDigits {byte : UInt8} {c : Char} (h : c ∈ byteDigits byte) :
    IsHexDigit c := by
  have small := byte.toNat_lt
  simp only [byteDigits, List.mem_cons, List.not_mem_nil, or_false] at h
  rcases h with rfl | rfl
  · exact isHexDigit_digitChar (by omega)
  · exact isHexDigit_digitChar (by omega)

theorem isHexDigit_of_mem_wordDigits {word : UInt32} {c : Char} (h : c ∈ wordDigits word) :
    IsHexDigit c := by
  obtain ⟨byte, -, among⟩ := List.mem_flatMap.1 h
  exact isHexDigit_of_mem_byteDigits among

theorem isHexDigit_of_mem_digits {s : String} {c : Char} (h : c ∈ digits s) : IsHexDigit c := by
  simp only [digits, List.mem_append] at h
  rcases h with ((first | second) | third) | fourth <;>
    exact isHexDigit_of_mem_wordDigits ‹_›

theorem toList_short (s : String) (length : Nat) :
    (short s length).toList = (digits s).take length := String.toList_ofList

theorem length_short (s : String) {length : Nat} (h : length ≤ 32) :
    (short s length).toList.length = length := by
  rw [toList_short, List.length_take, length_digits, Nat.min_eq_left h]

theorem isHexDigit_of_mem_short {s : String} {length : Nat} {c : Char}
    (h : c ∈ (short s length).toList) : IsHexDigit c := by
  rw [toList_short] at h
  exact isHexDigit_of_mem_digits (List.mem_of_mem_take h)

end Digest

namespace Settings

structure Sound (settings : Settings) : Prop where
  startsWithLetter : startsWithLetter settings.stem = true
  isNameChar : settings.stem.toList.all isNameChar = true
  one_le_hashLength : 1 ≤ settings.hashLength
  hashLength_le : settings.hashLength ≤ maxHashLength
  maxFilters_pos : 0 < settings.maxFilters
  maxBytes_pos : 0 < settings.maxBytes

theorem ite_some_eq_none_iff {α : Type} {p : Prop} [Decidable p] {item : α} {rest : Option α} :
    (if p then some item else rest) = none ↔ ¬p ∧ rest = none := by
  by_cases h : p <;> simp [h]

theorem problem?_eq_none_iff {settings : Settings} :
    settings.problem? = none ↔ settings.Sound := by
  rw [problem?, ite_some_eq_none_iff, ite_some_eq_none_iff, ite_some_eq_none_iff,
    ite_some_eq_none_iff, ite_some_eq_none_iff]
  simp only [Bool.not_eq_true', Bool.not_eq_false, not_or, Nat.not_lt, and_true]
  constructor
  · rintro ⟨letter, chars, ⟨some, fits⟩, filters, bytes⟩
    exact ⟨letter, chars, Nat.pos_of_ne_zero some, fits, Nat.pos_of_ne_zero filters,
      Nat.pos_of_ne_zero bytes⟩
  · rintro ⟨letter, chars, some, fits, filters, bytes⟩
    exact ⟨letter, chars, ⟨Nat.ne_of_gt some, fits⟩, Nat.ne_of_gt filters, Nat.ne_of_gt bytes⟩

theorem eq_of_validate {merged settings : Settings} (h : merged.validate = .ok settings) :
    merged = settings ∧ settings.Sound := by
  unfold validate at h
  split at h
  · next fine =>
    obtain rfl := Except.ok.inj h
    exact ⟨rfl, problem?_eq_none_iff.1 fine⟩
  · cases h

theorem sound_of_load {file? : Option File} {environment : Environment} {settings : Settings}
    (h : (load file? environment).result = .ok settings) : settings.Sound := by
  unfold load at h
  split at h
  · cases h
  · next present _ =>
    cases merged : present.override environment with
    | error error =>
      rw [merged] at h
      cases h
    | ok changed =>
      rw [merged] at h
      exact (eq_of_validate h).2

theorem Sound.isIdentifier {settings : Settings} (h : settings.Sound) :
    IsIdentifier settings.stem.toList := by
  have letter := h.startsWithLetter
  unfold Settings.startsWithLetter at letter
  split at letter
  · cases letter
  · next first rest stem =>
    have chars := List.all_eq_true.1 h.isNameChar
    rw [stem, List.forall_mem_cons] at chars
    refine ⟨first, rest, stem, letter, fun c among => ?_⟩
    simpa [Settings.isNameChar] using chars.2 c among

end Settings

namespace Filter

def NamedByMembers (settings : Settings) (query : Query) : Prop :=
  ∀ name ∈ query.parameters.names, ∃ member, name = parameterName settings member

def applyAll (settings : Settings) (calls : List (Connective × Filters)) (query : Query) : Query :=
  calls.foldl (fun query call => (apply settings call.1 call.2 query).query) query

section

variable {settings : Settings} {query : Query}

theorem NamedByMembers.grow (h : NamedByMembers settings query) (base : String)
    (paths : List String) (value : Value) (members : List String) :
    NamedByMembers settings (query.grow base paths (bindings settings value members)) := by
  intro name among
  rcases (Table.mem_names_putAll _ query.parameters).1 among with earlier | added
  · exact h name earlier
  · obtain ⟨bound, inBindings, rfl⟩ := List.mem_map.1 added
    obtain ⟨member, -, binds⟩ := List.mem_filterMap.1 inBindings
    exact ⟨member, binding?_name binds⟩

theorem NamedByMembers.applyEntries (h : NamedByMembers settings query) (mode : Connective)
    (entries : List (String × Value)) :
    NamedByMembers settings (Filter.applyEntries settings mode entries query).query := by
  induction entries generalizing query with
  | nil => exact h
  | cons entry rest ih =>
    have left : NamedByMembers settings (compile settings entry.1 entry.2 query).query :=
      compile_keeps entry.1 entry.2 h fun base paths => h.grow base paths entry.2
    rw [Filter.applyEntries]
    refine Outcome.andThen_keeps left fun predicate query named => ?_
    have restricted : NamedByMembers settings (query.restrict mode predicate) := named
    exact ih restricted

theorem NamedByMembers.applyAll (h : NamedByMembers settings query)
    (calls : List (Connective × Filters)) :
    NamedByMembers settings (Filter.applyAll settings calls query) := by
  induction calls generalizing query with
  | nil => exact h
  | cons call rest ih => exact ih (h.applyEntries call.1 call.2.entries)

theorem toList_parameterName (settings : Settings) (member : String) :
    (parameterName settings member).toList =
      settings.stem.toList ++ (Digest.short member settings.hashLength).toList :=
  String.toList_append

theorem length_parameterName (sound : settings.Sound) (member : String) :
    (parameterName settings member).toList.length =
      settings.stem.toList.length + settings.hashLength := by
  rw [toList_parameterName, List.length_append, Digest.length_short member sound.hashLength_le]

theorem isIdentifier_parameterName (sound : settings.Sound) (member : String) :
    IsIdentifier (parameterName settings member).toList := by
  obtain ⟨first, rest, stem, letter, chars⟩ := sound.isIdentifier
  refine ⟨first, rest ++ (Digest.short member settings.hashLength).toList, ?_, letter, ?_⟩
  · rw [toList_parameterName, stem, List.cons_append]
  · refine List.forall_mem_append.2 ⟨chars, fun c among => ?_⟩
    exact Or.inl (Digest.isHexDigit_of_mem_short among).isAlphanum

end

/-- Under settings that were loaded, and whatever filters are applied to a query without parameters,
failing ones included: every parameter is named by the stem and as many hexadecimal digits as the
settings say, at least one and at most 32; its name is an identifier, and begins no other name. -/
theorem names_of_load (file? : Option Settings.File) (environment : Settings.Environment)
    (settings : Settings) (loaded : (Settings.load file? environment).result = .ok settings)
    (calls : List (Connective × Filters)) (query : Query)
    (fresh : query.parameters.entries = []) :
    let names := (applyAll settings calls query).parameters.names
    (1 ≤ settings.hashLength ∧ settings.hashLength ≤ 32) ∧
    (∀ name ∈ names, IsIdentifier name.toList ∧
      ∃ digits : List Char, name.toList = settings.stem.toList ++ digits ∧
        digits.length = settings.hashLength ∧ ∀ c ∈ digits, IsHexDigit c) ∧
    (∀ name ∈ names, ∀ other ∈ names, name.toList <+: other.toList → name = other) := by
  intro names
  have sound := Settings.sound_of_load loaded
  have start : NamedByMembers settings query := by
    intro name among
    rw [Table.names, fresh] at among
    cases among
  have named : ∀ name ∈ names, ∃ member, name = parameterName settings member :=
    start.applyAll calls
  refine ⟨⟨sound.one_le_hashLength, sound.hashLength_le⟩, fun name among => ?_,
    fun name among other otherAmong begins => ?_⟩
  · obtain ⟨member, rfl⟩ := named name among
    refine ⟨isIdentifier_parameterName sound member, _, toList_parameterName settings member,
      Digest.length_short member sound.hashLength_le, fun c => Digest.isHexDigit_of_mem_short⟩
  · obtain ⟨member, rfl⟩ := named name among
    obtain ⟨otherMember, rfl⟩ := named other otherAmong
    have long := (length_parameterName sound member).trans
      (length_parameterName sound otherMember).symm
    exact String.toList_injective (begins.eq_of_length long)

theorem names_of_load_mended :
    let file : Settings.File :=
      ⟨"f.json", some "\x7b\"parameter_prefix\": \"1\", \"parameter_hash_len\": 2\x7d"⟩
    let loaded := (Settings.load (some file) { stem := some "p_" }).result
    let settings := loaded.toOption.getD default
    let query : Query := { roots := [⟨"test", "t"⟩] }
    let calls : List (Connective × Filters) :=
      [(.and, Table.ofList [("a", .int 1), ("é", .null)]),
        (.or, Table.ofList [("b___or___c__lt", .text "x"), ("d___or___e__between", .int 5)])]
    let names := (applyAll settings calls query).parameters.names
    loaded = .ok settings ∧ names = ["p_0c", "p_66", "p_92", "p_82"] ∧
      (∀ name ∈ names, IsIdentifier name.toList) ∧
      ∀ name ∈ names, ∀ other ∈ names, name.toList <+: other.toList → name = other := by
  intro file loaded settings query calls names
  have isSome : loaded.toOption.isSome = true := by decide +kernel
  have isOk : loaded = .ok settings := by
    simp only [settings]
    generalize loaded = result at isSome ⊢
    cases result with
    | error => cases isSome
    | ok => rfl
  obtain ⟨-, shape, apart⟩ :=
    names_of_load (some file) { stem := some "p_" } settings isOk calls query rfl
  exact ⟨isOk, by decide +kernel, fun name among => (shape name among).1, apart⟩

end Filter

end WhereClause
