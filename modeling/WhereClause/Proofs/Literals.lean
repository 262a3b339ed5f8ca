import WhereClause.Proofs.Numerals
import WhereClause.Proofs.Words

/-! The literals of values as a reader of words meets them. Truth values and numbers stand without
quotes, infinity and the text for no number included; their texts are never empty and have letters,
digits, points and minus signs only, which mean nothing to the reader. All other values stand in
single quotes, and a quote in their text is written twice, so that it closes the quote and opens it
again. -/
namespace WhereClause.Value

def isUnquoted : Value → Bool
  | bool _ => true
  | int _ => true
  | float _ => true
  | _ => false

def isUnquotedChar (c : Char) : Bool := c.isAlphanum || c = '.' || c = '-'

def IsUnquotedText (text : List Char) : Prop := text ≠ [] ∧ ∀ c ∈ text, isUnquotedChar c = true

theorem isUnquotedChar_of_isDigit {c : Char} (h : c.isDigit = true) : isUnquotedChar c = true := by
  rw [isUnquotedChar, Char.isAlphanum, h, Bool.or_true]
  rfl

theorem IsUnquotedText.append {front text : List Char}
    (chars : ∀ c ∈ front, isUnquotedChar c = true) (h : IsUnquotedText text) :
    IsUnquotedText (front ++ text) :=
  ⟨List.append_ne_nil_of_right_ne_nil front h.1, List.forall_mem_append.2 ⟨chars, h.2⟩⟩

theorem isUnquotedText_of_isMantissa {s : List Char} (h : Numeral.IsMantissa s) :
    IsUnquotedText s := by
  cases h with
  | whole nonempty digits =>
    exact ⟨nonempty, fun c among => isUnquotedChar_of_isDigit (digits c among)⟩
  | point _ digits places =>
    refine ⟨List.append_ne_nil_of_right_ne_nil _ (List.cons_ne_nil _ _), ?_⟩
    refine List.forall_mem_append.2 ⟨fun c among => isUnquotedChar_of_isDigit (digits c among), ?_⟩
    refine List.forall_mem_cons.2 ⟨by decide, ?_⟩
    exact fun c among => isUnquotedChar_of_isDigit (places c among)

theorem isUnquotedText_display_float (x : Float) :
    IsUnquotedText (Decimal.render .text x).toList := by
  have sign : ∀ c ∈ Decimal.sign x, isUnquotedChar c = true := by
    unfold Decimal.sign
    split <;> exact List.all_eq_true.1 (by decide)
  have magnitude : ∀ d : Decimal.Scaled, IsUnquotedText (d.positional []) := fun d =>
    isUnquotedText_of_isMantissa (Numeral.isMantissa_positional d)
  unfold Decimal.render
  split
  · exact ⟨by decide, List.all_eq_true.1 (by decide)⟩
  · split
    · rw [String.toList_ofList]
      exact IsUnquotedText.append sign ⟨by decide, List.all_eq_true.1 (by decide)⟩
    · rw [String.toList_ofList]
      exact IsUnquotedText.append sign (magnitude _)

theorem isUnquotedText_display_int (n : Int) : IsUnquotedText (toString n).toList := by
  have digits : ∀ n, IsUnquotedText (Nat.toDigits 10 n) := fun n =>
    isUnquotedText_of_isMantissa (Numeral.isMantissa_toDigits n)
  rw [Int.toString_eq_repr, Int.repr_eq_if]
  split
  · rw [Nat.toList_repr]
    exact digits _
  · rw [String.toList_append, Nat.toList_repr]
    exact IsUnquotedText.append (List.all_eq_true.1 (by decide)) (digits _)

theorem isUnquotedText_display {value : Value} (h : value.isUnquoted = true) :
    IsUnquotedText value.display.toList := by
  cases value with
  | bool value => cases value <;> exact ⟨by decide, List.all_eq_true.1 (by decide)⟩
  | int value => exact isUnquotedText_display_int value.toInt
  | float value => exact isUnquotedText_display_float value
  | _ => cases h

theorem literal_of_isUnquoted {value : Value} (h : value.isUnquoted = true) :
    value.literal = value.display := by
  cases value with
  | bool | int | float => rfl
  | _ => cases h

theorem literal_of_not_isUnquoted {value : Value} (h : value.isUnquoted = false) :
    value.literal = quotedLiteral value.display := by
  cases value with
  | bool | int | float => cases h
  | _ => rfl

end WhereClause.Value

namespace WhereClause.Words

theorem isPlain_of_isUnquotedChar {c : Char} (h : Value.isUnquotedChar c = true) :
    isPlain c = true := by
  unfold isPlain
  simp only [Bool.and_eq_true, decide_eq_true_eq, ne_eq]
  refine ⟨⟨⟨⟨?_, ?_⟩, ?_⟩, ?_⟩, ?_⟩ <;>
    · rintro rfl
      cases h

theorem balanced_quotedLiteral (text : String) :
    Balanced 0 (Value.quotedLiteral text).toList := by
  rw [Value.quotedLiteral, String.toList_ofList,
    Text.replaceAll_singleton Value.quote (c := '\'') rfl]
  refine balanced_quoted (Or.inl rfl) fun depth => passes_flatMap fun c _ => ?_
  by_cases same : c = '\''
  · rw [if_pos same]
    have closes : Passes ⟨depth, some '\''⟩ ⟨depth, none⟩ ['\''] :=
      passes_char _ fun blank => by cases blank
    have opens : Passes ⟨depth, none⟩ ⟨depth, some '\''⟩ ['\''] :=
      passes_char _ fun blank => by cases blank
    exact closes.append opens
  · rw [if_neg same]
    exact passes_in_quote same

theorem balanced_literal (value : Value) : Balanced 0 value.literal.toList := by
  cases unquoted : value.isUnquoted with
  | true =>
    rw [Value.literal_of_isUnquoted unquoted]
    have chars := (Value.isUnquotedText_display unquoted).2
    exact balanced_plain fun c among => isPlain_of_isUnquotedChar (chars c among)
  | false =>
    rw [Value.literal_of_not_isUnquoted unquoted]
    exact balanced_quotedLiteral value.display

end WhereClause.Words
