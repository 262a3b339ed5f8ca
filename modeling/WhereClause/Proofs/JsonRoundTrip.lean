import WhereClause.Proofs.Json.Written
import WhereClause.Value.Document

/-! Values that are written as JSON and read again. Nothing is said about finite doubles: a reader
may give back a neighbour of the double that was written. -/
namespace WhereClause

namespace Value

mutual

def nesting : Value → Nat
  | list items => nestings items + 1
  | _ => 0

def nestings : List Value → Nat
  | [] => 0
  | item :: rest => max item.nesting (nestings rest)

end

mutual

def hasFinite : Value → Bool
  | float value => value.isFinite
  | list items => anyHasFinite items
  | _ => false

def anyHasFinite : List Value → Bool
  | [] => false
  | item :: rest => item.hasFinite || anyHasFinite rest

end

mutual

/-- A value without what its JSON text does not tell: dates and moments are texts, and doubles that
are not finite are null. -/
def asRead : Value → Value
  | float value => if value.isFinite then float value else null
  | date value => text value.text
  | moment value => text value.isoText
  | list items => list (asReads items)
  | value => value

def asReads : List Value → List Value
  | [] => []
  | item :: rest => item.asRead :: asReads rest

end

theorem toJsons_eq_map (items : List Value) : toJsons items = items.map toJson := by
  induction items with
  | nil => rfl
  | cons item rest ih => rw [toJsons, ih, List.map_cons]

theorem asReads_eq_map (items : List Value) : asReads items = items.map asRead := by
  induction items with
  | nil => rfl
  | cons item rest ih => rw [asReads, ih, List.map_cons]

theorem nestings_le_iff {items : List Value} {depth : Nat} :
    nestings items ≤ depth ↔ ∀ item ∈ items, item.nesting ≤ depth := by
  induction items with
  | nil => exact ⟨fun _ => List.forall_mem_nil _, fun _ => Nat.zero_le depth⟩
  | cons item rest ih => rw [nestings, Nat.max_le, ih, List.forall_mem_cons]

theorem anyHasFinite_eq_false_iff {items : List Value} :
    anyHasFinite items = false ↔ ∀ item ∈ items, item.hasFinite = false := by
  induction items with
  | nil => exact ⟨fun _ => List.forall_mem_nil _, fun _ => rfl⟩
  | cons item rest ih => rw [anyHasFinite, Bool.or_eq_false_iff, ih, List.forall_mem_cons]

theorem of_items {motive : Value → Prop} (leaf : ∀ value, value.isList = false → motive value)
    (list : ∀ items, (∀ item ∈ items, motive item) → motive (.list items)) (value : Value) :
    motive value :=
  Value.rec (motive_1 := motive) (motive_2 := fun items => ∀ item ∈ items, motive item)
    (leaf _ rfl) (fun _ => leaf _ rfl) (fun _ => leaf _ rfl) (fun _ => leaf _ rfl)
    (fun _ => leaf _ rfl) (fun _ => leaf _ rfl) (fun _ => leaf _ rfl) list
    (List.forall_mem_nil _) (fun _ _ first others => List.forall_mem_cons.2 ⟨first, others⟩) value

section

open Json

variable {value : Value} {items : List Value} {rest : List Char}

theorem takes_leaf (leaf : value.isList = false) (finite : value.hasFinite = false)
    (stop : endsNumber rest = true) :
    Takes takeScalar (written value.toJson ++ rest) value.asRead.toJson rest := by
  cases value with
  | null => exact takes_scalar_null rest
  | bool value => exact takes_scalar_bool value rest
  | int value =>
    have low := value.le_toInt
    have high := value.toInt_lt
    exact takes_scalar_int (by unfold negativeLimit; omega) (by unfold wordLimit; omega) stop
  | float value =>
    rw [hasFinite] at finite
    rw [toJson, written, asRead, finite]
    exact takes_scalar_null rest
  | text value => exact takes_scalar_string value rest
  | date value => exact takes_scalar_string value.text rest
  | moment value => exact takes_scalar_string value.isoText rest
  | list items => cases leaf

theorem opens_written (finite : value.hasFinite = false) : opens (written value.toJson) = true := by
  cases leaf : value.isList with
  | true =>
    cases value with
    | list items => rfl
    | _ => cases leaf
  | false =>
    have taken : Takes takeScalar (written value.toJson ++ []) value.asRead.toJson [] :=
      takes_leaf leaf finite rfl
    rw [List.append_nil] at taken
    obtain ⟨c, next, same, blank, -, -, close⟩ := start_of_takes_scalar taken
    rw [same, opens, blank, decide_eq_true close]
    rfl

theorem takes_written (value : Value) : ∀ {depth : Nat} {rest : List Char},
    value.hasFinite = false → value.nesting ≤ depth → endsNumber rest = true →
      Takes (takeValue depth) (written value.toJson ++ rest) value.asRead.toJson rest := by
  induction value using of_items with
  | leaf value leaf =>
    intro depth rest finite _ stop
    exact takes_value_of_scalar depth (takes_leaf leaf finite stop)
  | list items ih =>
    intro depth rest finite deep _
    cases depth with
    | zero => exact absurd deep (Nat.not_succ_le_zero _)
    | succ depth =>
      have finites := anyHasFinite_eq_false_iff.1 finite
      have depths := nestings_le_iff.1 (Nat.le_of_succ_le_succ deep)
      have taken : Takes (takeArray (takeValue depth))
          (separated (items.map fun value => written value.toJson) ++ ']' :: rest)
          (items.map fun value => value.asRead.toJson) rest :=
        takes_array_separated (fun value among => opens_written (finites value among))
          (fun value among _ stop =>
            ih value among (finites value among) (depths value among) stop) rest
      have shape : written (toJson (.list items)) ++ rest =
          '[' :: (separated (items.map fun value => written value.toJson) ++ ']' :: rest) := by
        rw [toJson, written, writtenItems_eq_map, toJsons_eq_map, List.map_map, List.cons_append,
          List.cons_append, List.append_assoc, List.singleton_append]
        rfl
      rw [shape, asRead, toJson, toJsons_eq_map, asReads_eq_map, List.map_map]
      exact takes_nested_array (skipBlanks_cons rfl _) taken

theorem ofJsons?_map {document : Value → Json} {read : Value → Value}
    (h : ∀ value ∈ items, ofJson? (document value) = some (read value)) :
    ofJsons? (items.map document) = some (items.map read) := by
  induction items with
  | nil => rfl
  | cons value items ih =>
    obtain ⟨first, others⟩ := List.forall_mem_cons.1 h
    rw [List.map_cons, ofJsons?, first, ih others, List.map_cons]

theorem ofJson?_asRead (value : Value) : ofJson? value.asRead.toJson = some value.asRead := by
  induction value using of_items with
  | leaf value leaf =>
    cases value with
    | int value =>
      have within := And.intro value.minValue_le_toInt value.toInt_le
      have same : ofJson? (.int value.toInt) = some (int (Int64.ofInt value.toInt)) := if_pos within
      rwa [Int64.ofInt_toInt] at same
    | float value =>
      rw [asRead]
      split <;> rfl
    | list items => cases leaf
    | _ => rfl
  | list items ih =>
    have read : ofJsons? (items.map (toJson ∘ asRead)) = some (items.map asRead) :=
      ofJsons?_map ih
    rw [asRead, toJson, asReads_eq_map, toJsons_eq_map, List.map_map, ofJson?, read]
    rfl

/-- Reading the JSON text of a value gives the value back, but for what the text does not tell. -/
theorem ofJsonText_jsonText (finite : value.hasFinite = false) (deep : value.nesting ≤ depthLimit) :
    ofJsonText value.jsonText = .ok value.asRead := by
  have chars : value.jsonText.toList = written value.toJson := String.toList_ofList
  have whole : Takes (takeValue depthLimit) (written value.toJson ++ []) value.asRead.toJson [] :=
    takes_written value finite deep rfl
  rw [List.append_nil, ← chars] at whole
  obtain ⟨taken, took, document, left⟩ := whole
  rw [ofJsonText, took]
  simp only [document, left, ofJson?_asRead]
  rfl

theorem ofJsonText_jsonText_mixed :
    let value := list [int Int64.minValue, int Int64.maxValue, text "\"\\\n\x01é",
      list [list [], float (0 / 0)], date ⟨2024, 3, 9⟩,
      moment ⟨⟨10000, 1, 2⟩, 3, 4, 59, 1500000000⟩]
    value.hasFinite = false ∧ value.nesting ≤ depthLimit ∧
      ofJsonText value.jsonText =
        .ok (list [int Int64.minValue, int Int64.maxValue, text "\"\\\n\x01é",
          list [list [], null], text "2024-03-09", text "+10000-01-02T03:04:60.500"]) := by
  intro value
  have finite : value.hasFinite = false := by decide +kernel
  have deep : value.nesting ≤ depthLimit := by decide +kernel
  exact ⟨finite, deep, ofJsonText_jsonText finite deep⟩

end

end Value

end WhereClause
