import WhereClause.Proofs.Members

/-! Splitting a text that was joined from pieces. Occurrences are found from left to right, so one
that begins in the end of a piece is found before the delimiter that stands behind the piece, and
moves the cut. Main statement: splitting a key and joining its members are inverse to each other,
the second way exactly where no member but the last ends in such a beginning. -/
namespace WhereClause

namespace Text

variable {needle : Needle} {text rest : List Char}

/-- Whether an occurrence begins in a text once the needle itself stands behind it. -/
def Spills (needle : Needle) (text : List Char) : Prop :=
  ∃ left, left <:+ text ∧ left ≠ [] ∧ needle.chars <+: left ++ needle.chars

/-- What of the needle can stand before another needle and begin an occurrence with it. -/
def overhangs (needle : Needle) : List (List Char) :=
  ((List.range needle.chars.length).filter fun count =>
    0 < count ∧ needle.chars.drop count <+: needle.chars).map fun count =>
      needle.chars.take count

theorem cut?_append {before after : List Char} (h : cut? needle text = some (before, after)) :
    cut? needle (text ++ rest) = some (before, after ++ rest) := by
  induction text generalizing before with
  | nil => cases h
  | cons c text ih =>
    rw [cut?] at h
    rw [List.cons_append, cut?]
    split at h
    · next found =>
      obtain ⟨tail, whole⟩ := List.isPrefixOf_iff_prefix.1 found
      obtain ⟨rfl, rfl⟩ := Prod.mk.inj (Option.some.inj h)
      have longer : needle.chars.isPrefixOf (c :: (text ++ rest)) = true := by
        rw [List.isPrefixOf_iff_prefix, ← List.cons_append, ← whole, List.append_assoc]
        exact List.prefix_append _ _
      rw [if_pos longer, ← List.cons_append, ← whole, List.append_assoc, List.drop_left,
        List.drop_left]
    · next missing =>
      obtain ⟨⟨b, a⟩, later, same⟩ := Option.map_eq_some_iff.1 h
      obtain ⟨rfl, rfl⟩ := Prod.mk.inj same
      have still : ¬needle.chars.isPrefixOf (c :: (text ++ rest)) = true := by
        rw [List.isPrefixOf_iff_prefix] at missing ⊢
        refine fun begins => missing ?_
        refine List.prefix_of_prefix_length_le begins (List.prefix_append (c :: text) rest) ?_
        rw [eq_of_cut? later]
        simp only [List.length_cons, List.length_append]
        omega
      rw [if_neg still, ih later]
      rfl

theorem exists_splitAll_append (needle : Needle) (text : List Char) :
    ∃ front last, splitAll needle text = front ++ [last] ∧
      ∀ rest, splitAll needle (text ++ rest) = front ++ splitAll needle (last ++ rest) := by
  fun_induction splitAll needle text with
  | case1 text missing => exact ⟨[], text, rfl, fun rest => rfl⟩
  | case2 text before after found ih =>
    obtain ⟨front, last, split, append⟩ := ih
    refine ⟨before :: front, last, by rw [split, List.cons_append], fun rest => ?_⟩
    rw [splitAll_of_cut? (cut?_append found), append, List.cons_append]

theorem prefix_append_needle_iff {left : List Char} :
    needle.chars <+: left ++ (needle.chars ++ rest) ↔ needle.chars <+: left ++ needle.chars := by
  have long : left ++ needle.chars <+: left ++ (needle.chars ++ rest) :=
    (List.prefix_append_right_inj left).2 (List.prefix_append _ _)
  refine ⟨fun begins => List.prefix_of_prefix_length_le begins long ?_, fun begins =>
    begins.trans long⟩
  simp

theorem splitAll_append_needle (h : ¬Spills needle text) :
    splitAll needle (text ++ (needle.chars ++ rest)) = text :: splitAll needle rest := by
  have none : ∀ left, left <:+ text → left ≠ [] →
      ¬needle.chars <+: left ++ (needle.chars ++ rest) := fun left within nonempty begins =>
    h ⟨left, within, nonempty, prefix_append_needle_iff.1 begins⟩
  rw [splitAll_append none, splitAll_of_isPrefix, List.modifyHead_cons, List.append_nil]

theorem not_spills_of_splitAll {pieces : List (List Char)}
    (h : splitAll needle (text ++ (needle.chars ++ rest)) = text :: pieces) :
    ¬Spills needle text := by
  induction text with
  | nil =>
    rintro ⟨left, within, nonempty, -⟩
    exact nonempty (List.suffix_nil.1 within)
  | cons c text ih =>
    rintro ⟨left, within, nonempty, begins⟩
    by_cases here : needle.chars <+: c :: (text ++ (needle.chars ++ rest))
    · obtain ⟨more, same⟩ := here
      rw [List.cons_append, ← same, splitAll_of_isPrefix] at h
      cases h
    · rw [List.cons_append, splitAll_cons here] at h
      obtain ⟨first, others, split⟩ := List.exists_cons_of_ne_nil
        (splitAll_ne_nil needle (text ++ (needle.chars ++ rest)))
      rw [split, List.modifyHead_cons, List.cons.injEq, List.cons.injEq] at h
      obtain ⟨⟨-, rfl⟩, rfl⟩ := h
      rcases List.suffix_cons_iff.1 within with rfl | later
      · exact here (prefix_append_needle_iff.2 begins)
      · exact ih split ⟨left, later, nonempty, begins⟩

theorem splitAll_intercalate_iff {pieces : List (List Char)} (nonempty : pieces ≠ [])
    (clean : ∀ piece ∈ pieces, occurs needle piece = false) :
    splitAll needle (needle.chars.intercalate pieces) = pieces ↔
      ∀ piece ∈ pieces.dropLast, ¬Spills needle piece := by
  induction pieces with
  | nil => exact absurd rfl nonempty
  | cons piece others ih =>
    obtain ⟨here, later⟩ := List.forall_mem_cons.1 clean
    cases others with
    | nil =>
      rw [List.intercalate_singleton, splitAll_of_not_occurs here]
      simp
    | cons second more =>
      rw [List.intercalate_cons_cons, List.append_assoc, List.dropLast_cons_cons,
        List.forall_mem_cons, ← ih (List.cons_ne_nil _ _) later]
      constructor
      · intro same
        have apart := not_spills_of_splitAll same
        rw [splitAll_append_needle apart] at same
        exact ⟨apart, (List.cons.inj same).2⟩
      · rintro ⟨apart, same⟩
        rw [splitAll_append_needle apart, same]

theorem spills_iff (clean : occurs needle text = false) :
    Spills needle text ↔ ∃ overhang ∈ overhangs needle, overhang <:+ text := by
  simp only [Spills, overhangs, List.mem_map, List.mem_filter, List.mem_range, decide_eq_true_eq]
  constructor
  · rintro ⟨left, within, nonempty, begins⟩
    have short : left.length < needle.chars.length := by
      refine Nat.lt_of_not_le fun long => ?_
      have inside : needle.chars <+: left :=
        List.prefix_of_prefix_length_le begins (List.prefix_append _ _) long
      have found := (occurs_iff needle text).2 (inside.isInfix.trans within.isInfix)
      rw [clean] at found
      cases found
    obtain ⟨tail, whole⟩ : left <+: needle.chars :=
      List.prefix_of_prefix_length_le (List.prefix_append _ _) begins (Nat.le_of_lt short)
    rw [← whole, List.prefix_append_right_inj] at begins
    refine ⟨left, ⟨left.length, ⟨short, List.length_pos_iff.2 nonempty, ?_⟩, ?_⟩, within⟩
    · rw [← whole, List.drop_left]
      exact begins
    · rw [← whole, List.take_left]
  · rintro ⟨_, ⟨count, ⟨short, positive, again⟩, rfl⟩, within⟩
    refine ⟨_, within, ?_, ?_⟩
    · rw [← List.length_pos_iff, List.length_take]
      omega
    · have both := (List.prefix_append_right_inj (needle.chars.take count)).2 again
      rwa [List.take_append_drop] at both

end Text

namespace Key

theorem toList_members (key : String) :
    (members key).map String.toList = Text.splitAll orDelimiter key.toList := by
  have same : String.toList ∘ String.ofList = id := funext fun _ => String.toList_ofList
  rw [members, List.map_map, same, List.map_id]

theorem overhangs_orDelimiter :
    Text.overhangs orDelimiter = ["___or", "___or_", "___or__"].map String.toList := by
  decide

/-- Joining the members of a key gives the key back; a key has a member, and no member has the
delimiter in it. Members without the delimiter are those of the key that joins them if and only if
none but the last ends in a beginning of the delimiter that the delimiter behind it makes whole. -/
theorem members_intercalate :
    (∀ key : String, "___or___".intercalate (members key) = key ∧ members key ≠ [] ∧
      ∀ member ∈ members key, ¬"___or___".toList <:+: member.toList) ∧
    (∀ listed : List String, listed ≠ [] →
      (∀ member ∈ listed, ¬"___or___".toList <:+: member.toList) →
      (members ("___or___".intercalate listed) = listed ↔
        ∀ member ∈ listed.dropLast, ∀ ending ∈ ["___or", "___or_", "___or__"],
          ¬ending.toList <:+ member.toList)) := by
  have delimiter : "___or___".toList = orDelimiter.chars := by decide
  rw [delimiter]
  refine ⟨fun key => ⟨?_, members_ne_nil key, fun member among occurs => ?_⟩,
    fun listed nonempty clean => ?_⟩
  · apply String.toList_injective
    rw [String.toList_intercalate, toList_members, delimiter, Text.intercalate_splitAll]
  · have piece : member.toList ∈ Text.splitAll orDelimiter key.toList := by
      rw [← toList_members]
      exact List.mem_map_of_mem among
    have absent := Text.not_occurs_of_mem_splitAll piece
    rw [(Text.occurs_iff _ _).2 occurs] at absent
    cases absent
  · have pieces : ∀ member ∈ listed, Text.occurs orDelimiter member.toList = false :=
      fun member among => Bool.eq_false_iff.2 (mt (Text.occurs_iff _ _).1 (clean member among))
    have inverse := Text.splitAll_intercalate_iff (mt List.map_eq_nil_iff.1 nonempty)
      (List.forall_mem_map.2 pieces)
    rw [← List.map_inj_right fun _ _ same => String.toList_injective same, toList_members,
      String.toList_intercalate, delimiter, inverse, ← List.map_dropLast, List.forall_mem_map]
    refine forall₂_congr fun member among => ?_
    rw [Text.spills_iff (pieces member (List.dropLast_subset _ among)), overhangs_orDelimiter]
    simp only [not_exists, not_and, List.forall_mem_map]

theorem members_intercalate_shifted :
    members ("___or___".intercalate ["a__like", "b__", "é___or"]) = ["a__like", "b__", "é___or"] ∧
      members ("___or___".intercalate ["a___or_", "b"]) ≠ ["a___or_", "b"] ∧
      members ("___or___".intercalate ["a___or_", "b"]) = ["a", "_or___b"] := by
  have kept := (members_intercalate.2 ["a__like", "b__", "é___or"] (by decide)
    (by decide +kernel)).2 (by decide +kernel)
  have moved := mt (members_intercalate.2 ["a___or_", "b"] (by decide) (by decide +kernel)).1
    (by decide +kernel)
  exact ⟨kept, moved, by decide +kernel⟩

end Key

end WhereClause
