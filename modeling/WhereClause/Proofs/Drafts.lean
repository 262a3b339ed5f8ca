import WhereClause.Proofs.Json.Kinds
import WhereClause.Settings.File

/-! What the text of a settings file says, member by member. A known field has at most one member,
and its document is of the field's kind; unknown fields are kept as the last members of their names.
Main statements: a text is read as no draft but the one that its members describe, and is read as
that one where the mode is a text. A mode in the form of an object is read only where nothing stands
twice in the object, which its document does not tell. -/
namespace WhereClause.Settings

open Json

variable {α : Type}

inductive Known where
  | mode
  | stem
  | hashLength
  | escapeLike
  | maxFilters
  | maxBytes

namespace Known

def all : List Known := [mode, stem, hashLength, escapeLike, maxFilters, maxBytes]

def name : Known → String
  | mode => "mode"
  | stem => "parameter_prefix"
  | hashLength => "parameter_hash_len"
  | escapeLike => "escape_like"
  | maxFilters => "max_filters"
  | maxBytes => "max_filter_json_bytes"

def Kind : Known → Type
  | mode => Connective
  | stem => String
  | escapeLike => Bool
  | hashLength | maxFilters | maxBytes => Nat

/-- Whether a document gives a field a value. A mode is a text or the only key of an object. -/
def Means : (field : Known) → Json → field.Kind → Prop
  | mode, document, connective => document = .string (Connective.name connective) ∨
    document = .object [(Connective.name connective, .null)]
  | stem, document, text => document = .string text
  | escapeLike, document, flag => document = .bool flag
  | hashLength, document, count | maxFilters, document, count | maxBytes, document, count =>
    document = .int (Int.ofNat count)

end Known

namespace Draft

def field : (field : Known) → Draft → Option field.Kind
  | .mode, draft => draft.mode
  | .stem, draft => draft.stem
  | .hashLength, draft => draft.hashLength
  | .escapeLike, draft => draft.escapeLike
  | .maxFilters, draft => draft.maxFilters
  | .maxBytes, draft => draft.maxBytes

def setField : (field : Known) → Option field.Kind → Draft → Draft
  | .mode, value?, draft => { draft with mode := value? }
  | .stem, value?, draft => { draft with stem := value? }
  | .hashLength, value?, draft => { draft with hashLength := value? }
  | .escapeLike, value?, draft => { draft with escapeLike := value? }
  | .maxFilters, value?, draft => { draft with maxFilters := value? }
  | .maxBytes, value?, draft => { draft with maxBytes := value? }

end Draft

def documents (members : List (String × Json)) (name : String) : List Json :=
  (members.filter fun member => member.1 = name).map Prod.snd

/-- The value that documents give a field: a single one gives one, none gives none. -/
def Gives (field : Known) (documents : List Json) : Option field.Kind → Prop
  | none => documents = []
  | some value => ∃ document, documents = [document] ∧ field.Means document value

def unknownMembers (members : List (String × Json)) : List (String × Json) :=
  members.filter fun member => member.1 ∉ Known.all.map Known.name

/-- Whether a draft is what the members of an object make of it. -/
structure Describes (members : List (String × Json)) (draft : Draft) : Prop where
  known : ∀ field, Gives field (documents members field.name) (draft.field field)
  extra : draft.extra.entries = Entries.lastWrites (unknownMembers members)

inductive Draft.Adds (draft : Draft) : String × Json → Draft → Prop
  | known (field : Known) {document : Json} {value : field.Kind} (new : draft.field field = none)
      (means : field.Means document value) :
      Adds draft (field.name, document) (draft.setField field (some value))
  | extra {name : String} {document : Json} (unknown : ∀ field : Known, field.name ≠ name) :
      Adds draft (name, document) { draft with extra := draft.extra.put name document }

def readDraft (text : String) : Except Json.Error Draft :=
  readAll (takeRecord "struct FiltersConfig" takeNamed {}) text

theorem ofJsonText_eq (text : String) :
    ofJsonText text = (readDraft text).map Draft.settings := rfl

section Modes

variable {s rest : List Char} {connective : Connective} {word : String}

theorem ofName?_eq_some_iff :
    Connective.ofName? word = some connective ↔ word = connective.name := by
  cases connective <;> grind [Connective.ofName?, Connective.name]

theorem takes_name_iff :
    Takes Connective.takeName s connective rest ↔ Takes takeString s connective.name rest := by
  constructor
  · rintro ⟨taken, took, rfl, rfl⟩
    obtain ⟨word, took_string, took⟩ := bind_eq_ok.1 took
    split at took
    · next known =>
      cases took
      exact ⟨word, took_string, ofName?_eq_some_iff.1 known, rfl⟩
    · cases took
  · rintro ⟨word, took, value, rfl⟩
    have known := ofName?_eq_some_iff.2 value
    refine ⟨word.map fun _ => connective, bind_eq_ok.2 ⟨word, took, ?_⟩, rfl, rfl⟩
    rw [known]

theorem takes_nothing (h : Takes Connective.takeNothing s () rest) :
    ∃ behindColon left, skipBlanks s = ':' :: behindColon ∧ Takes takeNull behindColon () left ∧
      skipBlanks left = '\x7d' :: rest := by
  obtain ⟨taken, took, -, rfl⟩ := h
  obtain ⟨colon, took_colon, took⟩ := bind_eq_ok.1 took
  obtain ⟨nothing, took_null, took⟩ := bind_eq_ok.1 took
  refine ⟨colon.rest, nothing.rest, takes_colon_iff.1 ⟨colon, took_colon, rfl, rfl⟩,
    ⟨nothing, took_null, rfl, rfl⟩, ?_⟩
  split at took
  · cases took
  next start =>
  split at took
  · next close =>
    cases took
    subst close
    exact start
  · cases took

theorem takes_member (depth : Nat) (h : Takes Connective.takeMember s connective rest) :
    Body (takeValue depth) s [(connective.name, .null)] rest := by
  obtain ⟨taken, took, rfl, rfl⟩ := h
  rw [Connective.takeMember] at took
  split at took
  · cases took
  next start =>
  split at took
  · next quote =>
    subst quote
    obtain ⟨key, took_key, took⟩ := bind_eq_ok.1 took
    obtain ⟨nothing, took_nothing, took⟩ := bind_eq_ok.1 took
    cases took
    obtain ⟨behindColon, left, colon, null, close⟩ :=
      takes_nothing ⟨nothing, took_nothing, rfl, rfl⟩
    have named := takes_name_iff.1 ⟨key, took_key, rfl, rfl⟩
    exact .filled start (.last ⟨_, behindColon, named, colon, (takes_null_iff depth).1 null⟩ close)
  · split at took <;> cases took

theorem means_of_takes_mode (depth : Nat) (h : Takes Connective.takeDocument s connective rest) :
    ∃ document, Known.mode.Means document connective ∧
      Takes (takeValue (depth + 1)) s document rest := by
  obtain ⟨taken, took, rfl, rfl⟩ := h
  rw [Connective.takeDocument] at took
  split at took
  · cases took
  next start =>
  split at took
  · next brace =>
    subst brace
    obtain ⟨member, took_member, rfl⟩ := map_eq_ok.1 took
    have body := takes_member depth ⟨member, took_member, rfl, rfl⟩
    refine ⟨_, Or.inr rfl, takes_nested_object_iff.2 ⟨_, start, ?_⟩⟩
    exact takes_plainObject_iff.2 ⟨_, body, (Entries.lastWrites_concat [] _ _).symm⟩
  split at took
  · next quote =>
    subst quote
    obtain ⟨name, took_name, rfl⟩ := map_eq_ok.1 took
    have named := takes_name_iff.1 ⟨name, took_name, rfl, rfl⟩
    exact ⟨_, Or.inl rfl, (takes_value_string_iff (depth + 1)).2 ⟨_, start, named⟩⟩
  · cases took

theorem takes_mode_of_text (depth : Nat)
    (h : Takes (takeValue depth) s (.string connective.name) rest) :
    Takes Connective.takeDocument s connective rest := by
  obtain ⟨next, start, text⟩ := (takes_value_string_iff depth).1 h
  obtain ⟨name, took, rfl, rfl⟩ := takes_name_iff.2 text
  rw [Takes, Connective.takeDocument]
  split
  · next ended => cases start.symm.trans ended
  · next started =>
    cases start.symm.trans started
    rw [if_neg (by decide), if_pos rfl, took]
    exact ⟨_, rfl, rfl, rfl⟩

end Modes

section Fields

variable {s rest : List Char} {name : String} {earlier : Option α} {reader : Reader α}
  {set : α → Draft} {draft reached : Draft} {document : Json}

theorem takes_field_iff : Takes (takeField name earlier reader set) s reached rest ↔
    earlier = none ∧ ∃ behindColon value, skipBlanks s = ':' :: behindColon ∧
      Takes reader behindColon value rest ∧ reached = set value := by
  cases earlier with
  | some value =>
    refine iff_of_false (fun ⟨taken, took, _⟩ => ?_) fun h => Option.some_ne_none _ h.1
    cases took
  | none =>
    rw [and_iff_right rfl]
    constructor
    · rintro ⟨taken, took, rfl, rfl⟩
      obtain ⟨colon, took_colon, took⟩ := bind_eq_ok.1 took
      obtain ⟨item, took_item, took⟩ := bind_eq_ok.1 took
      cases took
      exact ⟨colon.rest, item.value, takes_colon_iff.1 ⟨colon, took_colon, rfl, rfl⟩,
        ⟨item, took_item, rfl, rfl⟩, rfl⟩
    · rintro ⟨behindColon, value, start, ⟨item, took, rfl, rfl⟩, rfl⟩
      obtain ⟨colon, took_colon, -, rfl⟩ := takes_colon_iff.2 start
      exact ⟨_, bind_eq_ok.2 ⟨colon, took_colon, bind_eq_ok.2 ⟨item, took, rfl⟩⟩, rfl, rfl⟩

theorem takes_extra_iff : Takes (takeExtra draft name) s reached rest ↔
    ∃ behindColon document, skipBlanks s = ':' :: behindColon ∧
      Takes (takeValue (depthLimit - 1)) behindColon document rest ∧
        reached = { draft with extra := draft.extra.put name document } := by
  have same : takeExtra draft name =
      takeField name (none : Option Json) (takeValue (depthLimit - 1)) fun value =>
        { draft with extra := draft.extra.put name value } := rfl
  rw [same, takes_field_iff, and_iff_right rfl]

theorem adds_of_takes_named (h : Takes (takeNamed draft name) s reached rest) :
    ∃ behindColon document, skipBlanks s = ':' :: behindColon ∧
      Takes (takeValue (depthLimit - 1)) behindColon document rest ∧
        draft.Adds (name, document) reached := by
  unfold takeNamed at h
  split at h
  · obtain ⟨new, behindColon, value, colon, took, rfl⟩ := takes_field_iff.1 h
    obtain ⟨document, means, took⟩ := means_of_takes_mode 125 took
    exact ⟨behindColon, document, colon, took, .known .mode new means⟩
  · obtain ⟨new, behindColon, value, colon, took, rfl⟩ := takes_field_iff.1 h
    exact ⟨behindColon, _, colon, (takes_text_iff _).1 took, .known .stem new rfl⟩
  · obtain ⟨new, behindColon, value, colon, took, rfl⟩ := takes_field_iff.1 h
    exact ⟨behindColon, _, colon, (takes_count_iff _).1 took, .known .hashLength new rfl⟩
  · obtain ⟨new, behindColon, value, colon, took, rfl⟩ := takes_field_iff.1 h
    exact ⟨behindColon, _, colon, (takes_flag_iff _).1 took, .known .escapeLike new rfl⟩
  · obtain ⟨new, behindColon, value, colon, took, rfl⟩ := takes_field_iff.1 h
    exact ⟨behindColon, _, colon, (takes_count_iff _).1 took, .known .maxFilters new rfl⟩
  · obtain ⟨new, behindColon, value, colon, took, rfl⟩ := takes_field_iff.1 h
    exact ⟨behindColon, _, colon, (takes_count_iff _).1 took, .known .maxBytes new rfl⟩
  · next mode stem hashLength escapeLike maxFilters maxBytes =>
    obtain ⟨behindColon, document, colon, took, rfl⟩ := takes_extra_iff.1 h
    refine ⟨behindColon, document, colon, took, .extra fun field same => ?_⟩
    cases field with
    | mode => exact mode same.symm
    | stem => exact stem same.symm
    | hashLength => exact hashLength same.symm
    | escapeLike => exact escapeLike same.symm
    | maxFilters => exact maxFilters same.symm
    | maxBytes => exact maxBytes same.symm

theorem takes_named_of_adds {behindColon : List Char} (colon : skipBlanks s = ':' :: behindColon)
    (item : Takes (takeValue (depthLimit - 1)) behindColon document rest)
    (h : draft.Adds (name, document) reached)
    (plain : name = Known.mode.name → document.isNested = false) :
    Takes (takeNamed draft name) s reached rest := by
  cases h with
  | @known field document value new means =>
    cases field with
    | mode =>
      rcases means with rfl | rfl
      · exact takes_field_iff.2 ⟨new, behindColon, value, colon, takes_mode_of_text _ item, rfl⟩
      · cases plain rfl
    | stem =>
      obtain rfl := means
      exact takes_field_iff.2 ⟨new, behindColon, value, colon, (takes_text_iff _).2 item, rfl⟩
    | escapeLike =>
      obtain rfl := means
      exact takes_field_iff.2 ⟨new, behindColon, value, colon, (takes_flag_iff _).2 item, rfl⟩
    | _ =>
      obtain rfl := means
      exact takes_field_iff.2 ⟨new, behindColon, value, colon, (takes_count_iff _).2 item, rfl⟩
  | extra unknown =>
    have same : takeNamed draft name = takeExtra draft name := by
      unfold takeNamed
      split
      · exact absurd rfl (unknown .mode)
      · exact absurd rfl (unknown .stem)
      · exact absurd rfl (unknown .hashLength)
      · exact absurd rfl (unknown .escapeLike)
      · exact absurd rfl (unknown .maxFilters)
      · exact absurd rfl (unknown .maxBytes)
      · rfl
    rw [same]
    exact takes_extra_iff.2 ⟨behindColon, document, colon, item, rfl⟩

end Fields

section Descriptions

variable {members : List (String × Json)} {draft final : Draft} {field other : Known}
  {name : String} {document : Json}

theorem name_inj (h : field.name = other.name) : field = other := by
  cases field <;> cases other <;> first | rfl | exact absurd h (by decide)

theorem mem_names_iff : name ∈ Known.all.map Known.name ↔ ∃ field : Known, field.name = name := by
  have all : ∀ field, field ∈ Known.all := by
    intro field
    cases field <;> simp [Known.all]
  simp [all]

theorem field_setField (field : Known) (value? : Option field.Kind) (draft : Draft) :
    (draft.setField field value?).field field = value? := by
  cases field <;> rfl

theorem field_setField_of_ne (apart : other ≠ field) (value? : Option field.Kind) (draft : Draft) :
    (draft.setField field value?).field other = draft.field other := by
  cases field <;> cases other <;> first | rfl | exact absurd rfl apart

theorem setField_setField (first second : Option field.Kind) (draft : Draft) :
    (draft.setField field first).setField field second = draft.setField field second := by
  cases field <;> rfl

theorem setField_field (field : Known) (draft : Draft) :
    draft.setField field (draft.field field) = draft := by
  cases field <;> rfl

theorem extra_setField (field : Known) (value? : Option field.Kind) (draft : Draft) :
    (draft.setField field value?).extra = draft.extra := by
  cases field <;> rfl

theorem field_extra (field : Known) (draft : Draft) (extra : Table Json) :
    { draft with extra := extra }.field field = draft.field field := by
  cases field <;> rfl

theorem draft_ext (fields : ∀ field, draft.field field = final.field field)
    (extra : draft.extra = final.extra) : draft = final := by
  cases draft
  cases final
  obtain rfl := extra
  obtain rfl := fields .mode
  obtain rfl := fields .stem
  obtain rfl := fields .hashLength
  obtain rfl := fields .escapeLike
  obtain rfl := fields .maxFilters
  obtain rfl := fields .maxBytes
  rfl

theorem documents_concat_of_eq (members : List (String × Json)) (name : String) (document : Json) :
    documents (members ++ [(name, document)]) name = documents members name ++ [document] := by
  simp [documents]

theorem documents_concat_of_ne (apart : name ≠ field.name) (document : Json) :
    documents (members ++ [(name, document)]) field.name = documents members field.name := by
  simp [documents, apart]

theorem gives_concat_iff {earlier : List Json} {value? : Option field.Kind} :
    Gives field (earlier ++ [document]) value? ↔
      Gives field earlier none ∧ ∃ value, value? = some value ∧ field.Means document value := by
  cases value? with
  | none => simp [Gives]
  | some value => cases earlier <;> simp [Gives]

theorem unknownMembers_concat_of_known (members : List (String × Json)) (field : Known)
    (document : Json) :
    unknownMembers (members ++ [(field.name, document)]) = unknownMembers members := by
  have known := mem_names_iff.2 ⟨field, rfl⟩
  simp [unknownMembers, -List.mem_map, known]

theorem unknownMembers_concat_of_unknown (members : List (String × Json))
    (unknown : ∀ field : Known, field.name ≠ name) (document : Json) :
    unknownMembers (members ++ [(name, document)]) =
      unknownMembers members ++ [(name, document)] := by
  have absent : name ∉ Known.all.map Known.name :=
    fun among => (mem_names_iff.1 among).elim unknown
  simp [unknownMembers, -List.mem_map, absent]

theorem describes_concat_iff {member : String × Json} : Describes (members ++ [member]) final ↔
    ∃ draft, Describes members draft ∧ draft.Adds member final := by
  obtain ⟨name, document⟩ := member
  constructor
  · intro h
    by_cases known : ∃ field : Known, field.name = name
    · obtain ⟨field, rfl⟩ := known
      have gives := h.known field
      rw [documents_concat_of_eq] at gives
      obtain ⟨none, value, given, means⟩ := gives_concat_iff.1 gives
      refine ⟨final.setField field .none, ⟨fun other => ?_, ?_⟩, ?_⟩
      · by_cases same : other = field
        · subst same
          rwa [field_setField]
        · have kept := h.known other
          rw [documents_concat_of_ne (fun h => same (name_inj h).symm)] at kept
          rwa [field_setField_of_ne same]
      · rw [extra_setField, h.extra, unknownMembers_concat_of_known]
      · have adds := Draft.Adds.known field (field_setField field .none final) means
        rwa [setField_setField, ← given, setField_field] at adds
    · have unknown : ∀ field : Known, field.name ≠ name := fun field same => known ⟨field, same⟩
      let earlier : Table Json :=
        ⟨Entries.lastWrites (unknownMembers members), Entries.nodup_names_lastWrites _⟩
      refine ⟨{ final with extra := earlier }, ⟨fun field => ?_, rfl⟩, ?_⟩
      · have kept := h.known field
        rw [documents_concat_of_ne (unknown field).symm] at kept
        rwa [field_extra]
      · have written : earlier.put name document = final.extra := by
          refine Table.eq_of_entries ?_
          rw [h.extra, unknownMembers_concat_of_unknown members unknown, Entries.lastWrites_concat]
          rfl
        have adds : { final with extra := earlier }.Adds (name, document)
            { final with extra := earlier.put name document } := .extra unknown
        rwa [written] at adds
  · rintro ⟨draft, h, adds⟩
    cases adds with
    | @known field document value new means =>
      refine ⟨fun other => ?_, ?_⟩
      · by_cases same : other = field
        · subst same
          rw [documents_concat_of_eq, field_setField]
          exact gives_concat_iff.2 ⟨new ▸ h.known other, value, rfl, means⟩
        · rw [documents_concat_of_ne (fun h => same (name_inj h).symm), field_setField_of_ne same]
          exact h.known other
      · rw [extra_setField, h.extra, unknownMembers_concat_of_known]
    | extra unknown =>
      refine ⟨fun field => ?_, ?_⟩
      · rw [documents_concat_of_ne (unknown field).symm, field_extra]
        exact h.known field
      · rw [unknownMembers_concat_of_unknown members unknown, Entries.lastWrites_concat, ← h.extra]
        rfl

theorem run_adds_iff : Run Draft.Adds {} members draft ↔ Describes members draft := by
  induction members using List.reverseRecOn generalizing draft with
  | nil =>
    constructor
    · rintro ⟨⟩
      exact ⟨fun field => (by cases field <;> rfl), rfl⟩
    · intro h
      have empty : draft = {} := by
        refine draft_ext (fun field => ?_) (Table.eq_of_entries h.extra)
        have given := h.known field
        have absent : ({} : Draft).field field = none := by cases field <;> rfl
        rw [absent]
        cases value : draft.field field with
        | none => rfl
        | some value =>
          rw [value] at given
          obtain ⟨document, nothing, -⟩ := given
          cases nothing
      rw [empty]
      exact .nil
  | append_singleton members member ih =>
    rw [run_concat_iff, describes_concat_iff]
    exact exists_congr fun _ => and_congr_left fun _ => ih

end Descriptions

section Texts

variable {text : String} {members : List (String × Json)} {draft : Draft}

theorem describes_of_readDraft (h : readDraft text = .ok draft) :
    ∃ members, IsObjectText text members ∧ Describes members draft := by
  obtain ⟨rest, taken, ended⟩ := readAll_eq_ok_iff.1 h
  obtain ⟨next, start, taken⟩ := takes_record_iff.1 taken
  rcases takes_object_iff.1 taken with ⟨close, rfl⟩ | ⟨later, quote, taken⟩
  · exact ⟨[], ⟨next, rest, start, .empty close, ended⟩, run_adds_iff.1 .nil⟩
  · obtain ⟨members, within, run⟩ := run_of_takes taken fun _ _ _ _ _ => adds_of_takes_named
    exact ⟨members, ⟨next, rest, start, .filled quote within, ended⟩, run_adds_iff.1 run⟩

theorem readDraft_of_describes (object : IsObjectText text members) (h : Describes members draft)
    (plain : ∀ document ∈ documents members Known.mode.name, document.isNested = false) :
    readDraft text = .ok draft := by
  obtain ⟨next, rest, start, body, ended⟩ := object
  have run := run_adds_iff.2 h
  refine readAll_eq_ok_iff.2 ⟨rest, takes_record_iff.2 ⟨next, start, takes_object_iff.2 ?_⟩, ended⟩
  cases body with
  | empty close =>
    cases run
    exact Or.inl ⟨close, rfl⟩
  | filled quote within =>
    let adds (draft : Draft) (member : String × Json) (reached : Draft) : Prop :=
      draft.Adds member reached ∧ (member.1 = Known.mode.name → member.2.isNested = false)
    have plainly : Run adds {} members draft := by
      refine run.imp fun member among _ _ step => ⟨step, fun mode => plain _ ?_⟩
      exact List.mem_map.2 ⟨member, List.mem_filter.2 ⟨among, decide_eq_true mode⟩, rfl⟩
    refine Or.inr ⟨_, quote, takes_of_run within plainly fun _ _ _ _ _ _ _ colon item step => ?_⟩
    exact takes_named_of_adds colon item step.1 step.2

end Texts

end WhereClause.Settings
