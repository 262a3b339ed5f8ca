import WhereClause.Proofs.Drafts
import WhereClause.Proofs.Json.Written
import WhereClause.Proofs.Placeholders

/-! Loading settings, said from what the file and the variables mean. Main statement: settings are
loaded exactly when the file and every variable can be read and what they give together meets all
conditions; a field is then what its variable gives, else what the file gives, else the default, and
the error is that of the first stage that fails. The conditions are those on the merged settings, so
a variable mends what the file has wrong. -/
namespace WhereClause

def Connective.words : Connective → List String
  | and => ["and", "1"]
  | or => ["or", "2"]

namespace Settings

open Json

variable {α : Type}

/-- Whether a text names a connective, whatever capitals it has and blanks around it. -/
def NamesMode (text : String) (mode : Connective) : Prop :=
  Text.lowered (Text.trim text) ∈ mode.words

def NamesFlag (text : String) (flag : Bool) : Prop :=
  Text.lowered (Text.trim text) ∈
    if flag then ["1", "true", "yes", "on"] else ["0", "false", "no", "off"]

def WritesCount (text : String) (count : Nat) : Prop :=
  ∃ digits : List Char, (text.toList = digits ∨ text.toList = '+' :: digits) ∧ digits ≠ [] ∧
    (∀ c ∈ digits, c.isDigit = true) ∧ Nat.ofDigitChars 10 digits 0 = count ∧
    count ≤ Text.maxCount

def Preferred (means : String → α → Prop) (text? : Option String) (otherwise value : α) : Prop :=
  match text? with
  | none => value = otherwise
  | some text => means text value

def Reads (means : String → α → Prop) (text? : Option String) : Prop :=
  ∀ text, text? = some text → ∃ value, means text value

/-- What a file gives; where there is no file, nothing. -/
def FileGives (file? : Option File) (draft : Draft) : Prop :=
  match file? with
  | none => draft = {}
  | some file => ∃ text, file.text? = some text ∧ readDraft text = .ok draft

/-- Whether settings are what the environment says over a draft and the draft over the defaults. -/
structure IsMerged (draft : Draft) (environment : Environment) (settings : Settings) : Prop where
  mode : Preferred NamesMode environment.mode (draft.mode.getD .and) settings.mode
  escapeLike :
    Preferred NamesFlag environment.escapeLike (draft.escapeLike.getD false) settings.escapeLike
  stem : settings.stem = environment.stem.getD (draft.stem.getD "f")
  maxFilters :
    Preferred WritesCount environment.maxFilters (draft.maxFilters.getD 50) settings.maxFilters
  hashLength : settings.hashLength = draft.hashLength.getD 5
  maxBytes : settings.maxBytes = draft.maxBytes.getD 65536
  extra : settings.extra = draft.extra

/-- The error of the first stage that fails: the file, the variables in their order, and last the
conditions on what they give together. -/
inductive FailsFirst (file? : Option File) (environment : Environment) : LoadError → Prop
  | missingFile {path : String} (file : file? = some ⟨path, none⟩) :
      FailsFirst file? environment (.missingFile path)
  | malformedFile {path text : String} {error : Json.Error} (file : file? = some ⟨path, some text⟩)
      (malformed : readDraft text = .error error) :
      FailsFirst file? environment (.malformedFile path error)
  | mode {draft : Draft} {text : String} (file : FileGives file? draft)
      (set : environment.mode = some text) (unread : ∀ mode, ¬NamesMode text mode) :
      FailsFirst file? environment (.invalidMode text ⟨text⟩)
  | escapeLike {draft : Draft} {text : String} (file : FileGives file? draft)
      (mode : Reads NamesMode environment.mode) (set : environment.escapeLike = some text)
      (unread : ∀ flag, ¬NamesFlag text flag) :
      FailsFirst file? environment (.invalidEscapeLike text)
  | maxFilters {draft : Draft} {text : String} {error : Text.CountError}
      (file : FileGives file? draft) (mode : Reads NamesMode environment.mode)
      (escapeLike : Reads NamesFlag environment.escapeLike)
      (set : environment.maxFilters = some text) (unread : Text.readCount text = .error error) :
      FailsFirst file? environment (.invalidMaxFilters text error)
  | invalid {draft : Draft} {settings : Settings} {problem : Problem}
      (file : FileGives file? draft) (merged : IsMerged draft environment settings)
      (first : settings.problem? = some problem) :
      FailsFirst file? environment (.invalid problem)

section Variables

variable {text : String} {mode : Connective} {flag : Bool} {count : Nat} {error : LoadError}

theorem ofText_eq_ok_iff : Connective.ofText text = .ok mode ↔ NamesMode text mode := by
  rw [Connective.ofText, NamesMode]
  cases mode <;> grind [Connective.words]

theorem readMode_eq_ok_iff : readMode text = .ok mode ↔ NamesMode text mode := by
  rw [← ofText_eq_ok_iff, readMode]
  cases Connective.ofText text <;> simp

theorem readMode_eq_error_iff : readMode text = .error error ↔
    (∀ mode, ¬NamesMode text mode) ∧ error = .invalidMode text ⟨text⟩ := by
  have unknown : ∀ unknown, Connective.ofText text = .error unknown → unknown = ⟨text⟩ := by
    intro unknown
    grind [Connective.ofText]
  simp only [← ofText_eq_ok_iff, readMode]
  cases read : Connective.ofText text with
  | ok mode => simp
  | error found => simp [unknown found read, eq_comm]

theorem flagOfText?_eq_some_iff : flagOfText? text = some flag ↔ NamesFlag text flag := by
  rw [flagOfText?, NamesFlag, flagWord]
  cases flag <;> grind

theorem readEscapeLike_eq_ok_iff : readEscapeLike text = .ok flag ↔ NamesFlag text flag := by
  rw [← flagOfText?_eq_some_iff, readEscapeLike]
  cases flagOfText? text <;> simp

theorem readEscapeLike_eq_error_iff : readEscapeLike text = .error error ↔
    (∀ flag, ¬NamesFlag text flag) ∧ error = .invalidEscapeLike text := by
  simp only [← flagOfText?_eq_some_iff, readEscapeLike]
  cases flagOfText? text <;> simp [eq_comm]

theorem countFrom_eq_ok_iff {digits : List Char} {value : Nat} (within : value ≤ Text.maxCount) :
    Text.countFrom value digits = .ok count ↔ (∀ c ∈ digits, c.isDigit = true) ∧
      Nat.ofDigitChars 10 digits value = count ∧ count ≤ Text.maxCount := by
  induction digits generalizing value with
  | nil =>
    simp only [Text.countFrom, Nat.ofDigitChars_nil, Except.ok.injEq]
    constructor
    · rintro rfl
      exact ⟨List.forall_mem_nil _, rfl, within⟩
    · exact fun h => h.2.1
  | cons c rest ih =>
    have next : value * 10 + Text.digitValue c = 10 * value + (c.toNat - '0'.toNat) := by
      rw [Text.digitValue, Nat.mul_comm]
    rw [Text.countFrom, Nat.ofDigitChars_cons, ← next, List.forall_mem_cons]
    cases digit : c.isDigit with
    | false => simp
    | true =>
      by_cases fits : value * 10 + Text.digitValue c ≤ Text.maxCount
      · rw [if_neg (by simp), if_neg (Nat.not_lt.2 fits), ih fits, and_iff_right rfl]
      · rw [if_neg (by simp), if_pos (Nat.lt_of_not_le fits)]
        refine iff_of_false (fun h => by cases h) fun h => fits ?_
        obtain ⟨-, same, small⟩ := h
        exact Nat.le_trans (le_ofDigitChars rest _) (same ▸ small)

theorem readCount_eq_ok_iff : Text.readCount text = .ok count ↔ WritesCount text count := by
  rw [Text.readCount, WritesCount]
  split
  · next empty =>
    refine iff_of_false (fun h => by cases h) fun ⟨digits, chars, nonempty, _⟩ => ?_
    rcases chars with rfl | signed
    · exact nonempty empty
    · cases empty.symm.trans signed
  · next alone =>
    refine iff_of_false (fun h => by cases h) fun ⟨digits, chars, nonempty, all, _⟩ => ?_
    rcases chars with rfl | signed
    · exact absurd (all '+' (alone ▸ List.mem_cons_self)) (by decide)
    · exact nonempty (List.cons.inj (alone.symm.trans signed)).2.symm
  · next digits alone signed =>
    rw [countFrom_eq_ok_iff (Nat.zero_le _)]
    constructor
    · exact fun h => ⟨digits, Or.inr signed, alone, h⟩
    · rintro ⟨others, chars, -, h⟩
      rcases chars with rfl | again
      · exact absurd (h.1 '+' (signed ▸ List.mem_cons_self)) (by decide)
      · obtain rfl := (List.cons.inj (signed.symm.trans again)).2
        exact h
  · next nonempty alone unsigned =>
    rw [countFrom_eq_ok_iff (Nat.zero_le _)]
    constructor
    · exact fun h => ⟨text.toList, Or.inl rfl, nonempty, h⟩
    · rintro ⟨digits, chars, -, h⟩
      rcases chars with rfl | signed
      · exact h
      · exact absurd signed (unsigned digits)

theorem readMaxFilters_eq_ok_iff : readMaxFilters text = .ok count ↔ WritesCount text count := by
  rw [← readCount_eq_ok_iff, readMaxFilters]
  cases Text.readCount text <;> simp

theorem readMaxFilters_eq_error_iff : readMaxFilters text = .error error ↔
    ∃ reason, Text.readCount text = .error reason ∧ error = .invalidMaxFilters text reason := by
  rw [readMaxFilters]
  cases Text.readCount text <;> simp [eq_comm]

end Variables

section Stages

variable {text? : Option String} {read : String → Except LoadError α} {means : String → α → Prop}
  {present value : α} {file? : Option File} {environment : Environment} {draft : Draft}
  {merged settings : Settings} {error : LoadError}

theorem overrideWith_eq_ok_iff (reads : ∀ text value, read text = .ok value ↔ means text value) :
    overrideWith present text? read = .ok value ↔ Preferred means text? present value := by
  cases text? with
  | none => simp [overrideWith, Preferred, eq_comm]
  | some text => exact reads text value

theorem overrideWith_eq_error_iff : overrideWith present text? read = .error error ↔
    ∃ text, text? = some text ∧ read text = .error error := by
  cases text? <;> simp [overrideWith]

theorem exists_overrideWith_iff
    (reads : ∀ text value, read text = .ok value ↔ means text value) :
    (∃ value, overrideWith present text? read = .ok value) ↔ Reads means text? := by
  cases text? <;> simp [overrideWith, Reads, reads]

theorem ofFile_eq_ok_iff :
    ofFile file? = .ok settings ↔ ∃ draft, FileGives file? draft ∧ draft.settings = settings := by
  cases file? with
  | none =>
    have empty : ({} : Draft).settings = default := rfl
    simp [ofFile, FileGives, empty]
  | some file =>
    obtain ⟨path, _ | text⟩ := file
    · simp [ofFile, FileGives]
    · cases read : readDraft text <;> simp [ofFile, FileGives, ofJsonText_eq, read, Except.map]

theorem ofFile_eq_error_iff : ofFile file? = .error error ↔
    (∃ path, file? = some ⟨path, none⟩ ∧ error = .missingFile path) ∨
      ∃ path text fault, file? = some ⟨path, some text⟩ ∧ readDraft text = .error fault ∧
        error = .malformedFile path fault := by
  cases file? with
  | none => simp [ofFile]
  | some file =>
    obtain ⟨path, _ | text⟩ := file
    · simp [ofFile, eq_comm]
    · cases read : readDraft text <;> simp [ofFile, ofJsonText_eq, read, Except.map, eq_comm]

theorem override_eq_ok_iff :
    draft.settings.override environment = .ok settings ↔ IsMerged draft environment settings := by
  simp only [override, bind_eq_ok, overrideWith_eq_ok_iff fun _ _ => readMode_eq_ok_iff,
    overrideWith_eq_ok_iff fun _ _ => readEscapeLike_eq_ok_iff,
    overrideWith_eq_ok_iff fun _ _ => readMaxFilters_eq_ok_iff]
  constructor
  · rintro ⟨mode, isMode, escapeLike, isFlag, maxFilters, isCount, same⟩
    cases same
    exact ⟨isMode, isFlag, rfl, isCount, rfl, rfl, rfl⟩
  · cases settings
    rintro ⟨isMode, isFlag, rfl, isCount, rfl, rfl, rfl⟩
    exact ⟨_, isMode, _, isFlag, _, isCount, rfl⟩

theorem override_eq_error_iff : draft.settings.override environment = .error error ↔
    (∃ text, environment.mode = some text ∧ readMode text = .error error) ∨
    (Reads NamesMode environment.mode ∧
      ∃ text, environment.escapeLike = some text ∧ readEscapeLike text = .error error) ∨
    (Reads NamesMode environment.mode ∧ Reads NamesFlag environment.escapeLike ∧
      ∃ text, environment.maxFilters = some text ∧ readMaxFilters text = .error error) := by
  have modes : (∃ mode, overrideWith draft.settings.mode environment.mode readMode = .ok mode) ↔
      Reads NamesMode environment.mode := exists_overrideWith_iff fun _ _ => readMode_eq_ok_iff
  have flags : (∃ flag, overrideWith draft.settings.escapeLike environment.escapeLike
      readEscapeLike = .ok flag) ↔ Reads NamesFlag environment.escapeLike :=
    exists_overrideWith_iff fun _ _ => readEscapeLike_eq_ok_iff
  rw [← modes, ← flags]
  simp only [override, bind_eq_error_iff, overrideWith_eq_error_iff]
  constructor
  · rintro (mode | ⟨mode, isMode, flag | ⟨flag, isFlag, count | ⟨_, _, done⟩⟩⟩)
    · exact Or.inl mode
    · exact Or.inr (Or.inl ⟨⟨mode, isMode⟩, flag⟩)
    · exact Or.inr (Or.inr ⟨⟨mode, isMode⟩, ⟨flag, isFlag⟩, count⟩)
    · cases done
  · rintro (mode | ⟨⟨mode, isMode⟩, flag⟩ | ⟨⟨mode, isMode⟩, ⟨flag, isFlag⟩, count⟩)
    · exact Or.inl mode
    · exact Or.inr ⟨mode, isMode, Or.inl flag⟩
    · exact Or.inr ⟨mode, isMode, Or.inr ⟨flag, isFlag, Or.inl count⟩⟩

theorem validate_eq_ok_iff :
    merged.validate = .ok settings ↔ merged = settings ∧ settings.Sound := by
  refine ⟨eq_of_validate, ?_⟩
  rintro ⟨rfl, sound⟩
  rw [validate, problem?_eq_none_iff.2 sound]

theorem validate_eq_error_iff : merged.validate = .error error ↔
    ∃ problem, merged.problem? = some problem ∧ error = .invalid problem := by
  rw [validate]
  cases merged.problem? <;> simp [eq_comm]

theorem result_load : (load file? environment).result =
    ofFile file? >>= fun settings => settings.override environment >>= validate := by
  rw [load]
  cases ofFile file? <;> rfl

theorem sound_iff : settings.Sound ↔ IsIdentifier settings.stem.toList ∧
    1 ≤ settings.hashLength ∧ settings.hashLength ≤ 32 ∧ 0 < settings.maxFilters ∧
      0 < settings.maxBytes := by
  constructor
  · exact fun sound => ⟨sound.isIdentifier, sound.one_le_hashLength, sound.hashLength_le,
      sound.maxFilters_pos, sound.maxBytes_pos⟩
  · rintro ⟨⟨first, rest, stem, letter, chars⟩, some, fits, filters, bytes⟩
    refine ⟨?_, ?_, some, fits, filters, bytes⟩
    · rw [startsWithLetter, stem]
      exact letter
    · rw [stem, List.all_cons, List.all_eq_true.2 fun c among => ?_, Bool.and_true]
      · simp [isNameChar, Char.isAlphanum, letter]
      · simpa [isNameChar] using chars c among

theorem result_load_eq_error_iff : (load file? environment).result = .error error ↔
    FailsFirst file? environment error := by
  rw [result_load, bind_eq_error_iff, ofFile_eq_error_iff]
  constructor
  · rintro ((⟨path, rfl, rfl⟩ | ⟨path, text, fault, rfl, malformed, rfl⟩) | ⟨present, given, fails⟩)
    · exact .missingFile rfl
    · exact .malformedFile rfl malformed
    · obtain ⟨draft, file, rfl⟩ := ofFile_eq_ok_iff.1 given
      rcases bind_eq_error_iff.1 fails with fails | ⟨settings, merged, fails⟩
      · rcases override_eq_error_iff.1 fails with ⟨text, set, read⟩ | ⟨mode, text, set, read⟩ |
          ⟨mode, escapeLike, text, set, read⟩
        · obtain ⟨unread, rfl⟩ := readMode_eq_error_iff.1 read
          exact .mode file set unread
        · obtain ⟨unread, rfl⟩ := readEscapeLike_eq_error_iff.1 read
          exact .escapeLike file mode set unread
        · obtain ⟨reason, unread, rfl⟩ := readMaxFilters_eq_error_iff.1 read
          exact .maxFilters file mode escapeLike set unread
      · obtain ⟨problem, first, rfl⟩ := validate_eq_error_iff.1 fails
        exact .invalid file (override_eq_ok_iff.1 merged) first
  · intro fails
    have stages : ∀ draft, FileGives file? draft →
        (draft.settings.override environment >>= validate) = .error error →
        ∃ settings, ofFile file? = .ok settings ∧
          (settings.override environment >>= validate) = .error error :=
      fun draft file later => ⟨draft.settings, ofFile_eq_ok_iff.2 ⟨draft, file, rfl⟩, later⟩
    cases fails with
    | missingFile file => exact Or.inl (Or.inl ⟨_, file, rfl⟩)
    | malformedFile file malformed => exact Or.inl (Or.inr ⟨_, _, _, file, malformed, rfl⟩)
    | mode file set unread =>
      refine Or.inr (stages _ file (bind_eq_error_iff.2 (Or.inl ?_)))
      have read := readMode_eq_error_iff.2 ⟨unread, rfl⟩
      exact override_eq_error_iff.2 (Or.inl ⟨_, set, read⟩)
    | escapeLike file mode set unread =>
      refine Or.inr (stages _ file (bind_eq_error_iff.2 (Or.inl ?_)))
      have read := readEscapeLike_eq_error_iff.2 ⟨unread, rfl⟩
      exact override_eq_error_iff.2 (Or.inr (Or.inl ⟨mode, _, set, read⟩))
    | maxFilters file mode escapeLike set unread =>
      refine Or.inr (stages _ file (bind_eq_error_iff.2 (Or.inl ?_)))
      have read := readMaxFilters_eq_error_iff.2 ⟨_, unread, rfl⟩
      exact override_eq_error_iff.2 (Or.inr (Or.inr ⟨mode, escapeLike, _, set, read⟩))
    | @invalid draft settings problem file merged first =>
      refine Or.inr (stages _ file (bind_eq_error_iff.2 (Or.inr ⟨settings, ?_⟩)))
      exact ⟨override_eq_ok_iff.2 merged, validate_eq_error_iff.2 ⟨_, first, rfl⟩⟩

theorem result_load_eq_ok_iff : (load file? environment).result = .ok settings ↔
    ∃ draft, FileGives file? draft ∧ IsMerged draft environment settings ∧ settings.Sound := by
  rw [result_load, bind_eq_ok]
  constructor
  · rintro ⟨present, given, later⟩
    obtain ⟨draft, file, rfl⟩ := ofFile_eq_ok_iff.1 given
    obtain ⟨merged, changed, valid⟩ := bind_eq_ok.1 later
    obtain ⟨rfl, sound⟩ := validate_eq_ok_iff.1 valid
    exact ⟨draft, file, override_eq_ok_iff.1 changed, sound⟩
  · rintro ⟨draft, file, merged, sound⟩
    refine ⟨draft.settings, ofFile_eq_ok_iff.2 ⟨draft, file, rfl⟩, bind_eq_ok.2 ⟨settings, ?_⟩⟩
    exact ⟨override_eq_ok_iff.2 merged, validate_eq_ok_iff.2 ⟨rfl, sound⟩⟩

end Stages

/-- Settings are loaded exactly when the file and the variables that are set can be read and what
they give together meets all conditions; otherwise the first stage that fails gives the error. What
a file gives is what the members of its object say, and whatever they say is given, save for a mode
in the form of an object. -/
theorem load_exact (file? : Option File) (environment : Environment) :
    (∀ settings, (load file? environment).result = .ok settings ↔
      ∃ draft, FileGives file? draft ∧ IsMerged draft environment settings ∧
        IsIdentifier settings.stem.toList ∧
        1 ≤ settings.hashLength ∧ settings.hashLength ≤ 32 ∧
        0 < settings.maxFilters ∧ 0 < settings.maxBytes) ∧
    (∀ error, (load file? environment).result = .error error ↔
      FailsFirst file? environment error) ∧
    (∀ text draft, readDraft text = .ok draft →
      ∃ members, IsObjectText text members ∧ Describes members draft) ∧
    (∀ text members draft, IsObjectText text members → Describes members draft →
      (∀ document ∈ documents members Known.mode.name, document.isNested = false) →
      readDraft text = .ok draft) := by
  refine ⟨fun settings => ?_, fun error => result_load_eq_error_iff,
    fun text draft => describes_of_readDraft, fun text members draft => readDraft_of_describes⟩
  simp only [result_load_eq_ok_iff, sound_iff]

theorem load_exact_mended :
    let text := "\x7b\"parameter_prefix\": \"1f\", \"max_filters\": 0, \"x\": 1, \"x\": [2]\x7d"
    let file : File := ⟨"f.json", some text⟩
    let draft := (readDraft text).toOption.getD {}
    let mending : Environment :=
      { mode := some " OR", escapeLike := some "Yes ", stem := some "q_1"
        maxFilters := some "+07" }
    let settings : Settings :=
      { mode := .or, stem := "q_1", escapeLike := true, maxFilters := 7, extra := draft.extra }
    readDraft text = .ok draft ∧ draft.extra.names = ["x"] ∧
      (∃ members, IsObjectText text members ∧ Describes members draft) ∧
      (load (some file) mending).result = .ok settings ∧
      (load (some file) { stem := some "q" }).result = .error (.invalid .noFilters) ∧
      (load (some file) { mode := some "xor", escapeLike := some "?" }).result =
        .error (.invalidMode "xor" ⟨"xor"⟩) := by
  intro text file draft mending settings
  have read : readDraft text = .ok draft := by
    have isSome : (readDraft text).toOption.isSome = true := by decide +kernel
    simp only [draft]
    generalize readDraft text = result at isSome ⊢
    cases result with
    | error => cases isSome
    | ok => rfl
  have kept : draft.mode = none ∧ draft.hashLength = none ∧ draft.maxBytes = none ∧
      draft.extra.names = ["x"] := by decide +kernel
  obtain ⟨mode, hashLength, maxBytes, extra⟩ := kept
  have given : FileGives (some file) draft := ⟨text, rfl, read⟩
  have merged : IsMerged draft mending settings := by
    have namesOr : NamesMode " OR" .or := by
      unfold NamesMode
      decide +kernel
    have namesTrue : NamesFlag "Yes " true := by
      unfold NamesFlag
      decide +kernel
    have seven : WritesCount "+07" 7 :=
      ⟨['0', '7'], Or.inr (by decide +kernel), List.cons_ne_nil _ _, by simp, rfl,
        by decide +kernel⟩
    exact ⟨namesOr, namesTrue, rfl, seven, by rw [hashLength]; rfl, by rw [maxBytes]; rfl, rfl⟩
  have unmended : IsMerged draft { stem := some "q" } { draft.settings with stem := "q" } :=
    ⟨rfl, rfl, rfl, rfl, rfl, rfl, rfl⟩
  have noMode : ∀ mode, ¬NamesMode "xor" mode := by
    unfold NamesMode
    intro mode
    cases mode <;> decide +kernel
  obtain ⟨loads, -, describes, reads⟩ := load_exact (some file) mending
  obtain ⟨members, object, described⟩ := describes text draft read
  have unnamed : documents members Known.mode.name = [] := by
    have none : Gives .mode (documents members Known.mode.name) draft.mode := described.known .mode
    rwa [mode] at none
  have plain : ∀ document ∈ documents members Known.mode.name, document.isNested = false := by
    rw [unnamed]
    exact List.forall_mem_nil _
  have again := reads text members draft object described plain
  refine ⟨again, extra, ⟨members, object, described⟩, ?_, ?_, ?_⟩
  · have identifier : IsIdentifier settings.stem.toList :=
      ⟨'q', ['_', '1'], by decide +kernel, rfl, by simp⟩
    exact (loads settings).2 ⟨draft, given, merged, identifier, by decide +kernel⟩
  · exact ((load_exact (some file) _).2.1 _).2 (.invalid given unmended (by decide +kernel))
  · exact ((load_exact (some file) _).2.1 _).2 (.mode given rfl noMode)

end Settings

end WhereClause
