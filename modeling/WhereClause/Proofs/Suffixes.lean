import Mathlib.Algebra.Group.Nat.Even
import Mathlib.Data.List.DropRight
import WhereClause.Proofs.Splitting

/-! The operator's suffix of a member. A run of underscores is taken two by two from its left end,
so what stands in front of a suffix decides whether its two underscores are a delimiter or the last
one belongs to the suffix. Main statement: a path and a suffix are always what the member was put
together from, and an operator is found behind a path exactly where the path ends in an even number
of underscores. -/
namespace WhereClause

theorem Operator.underscore_not_mem_suffix (operator : Operator) :
    '_' ∉ operator.suffix.toList := by
  have all : ∀ operator ∈ Operator.all, '_' ∉ operator.suffix.toList := by decide +kernel
  exact all operator operator.mem_all

namespace Text

theorem intercalate_concat (separator : List Char) {pieces : List (List Char)}
    (h : pieces ≠ []) (last : List Char) :
    separator.intercalate (pieces ++ [last]) =
      separator.intercalate pieces ++ separator ++ last := by
  induction pieces with
  | nil => exact absurd rfl h
  | cons piece others ih =>
    cases others with
    | nil =>
      rw [List.singleton_append, List.intercalate_cons_cons, List.intercalate_singleton,
        List.intercalate_singleton]
    | cons second more =>
      rw [List.cons_append, List.cons_append, List.intercalate_cons_cons, ← List.cons_append,
        ih (List.cons_ne_nil _ _), List.intercalate_cons_cons]
      simp only [List.append_assoc]

end Text

namespace Key

variable {text last : List Char}

theorem overhangs_suffixDelimiter : Text.overhangs suffixDelimiter = [['_']] := by
  decide

theorem not_occurs_of_underscore_not_mem (h : '_' ∉ text) :
    Text.occurs suffixDelimiter text = false := by
  rw [← Bool.not_eq_true, Text.occurs_iff]
  exact fun within => h (within.subset List.mem_cons_self)

theorem not_occurs_concat {c : Char} (clean : Text.occurs suffixDelimiter text = false)
    (h : ¬(c = '_' ∧ ['_'] <:+ text)) : Text.occurs suffixDelimiter (text ++ [c]) = false := by
  rw [← Bool.not_eq_true, Text.occurs_iff] at clean ⊢
  rw [List.infix_concat_iff, List.suffix_concat_iff]
  rintro ((none | ⟨front, chars, within⟩) | inside)
  · exact suffixDelimiter.chars_ne_nil none
  · have both : ['_'] ++ ['_'] = front ++ [c] := chars
    obtain ⟨rfl, same⟩ := List.append_singleton_inj.1 both
    exact h ⟨same.symm, within⟩
  · exact clean inside

theorem suffix_concat_iff_eq {a c : Char} : [a] <:+ text ++ [c] ↔ a = c := by
  constructor
  · rintro ⟨front, same⟩
    exact (List.append_singleton_inj.1 same).2
  · rintro rfl
    exact List.suffix_append text [a]

theorem splitAll_piece (clean : Text.occurs suffixDelimiter text = false) (h : ¬['_'] <:+ text)
    (rest : List Char) :
    Text.splitAll suffixDelimiter (text ++ (suffixDelimiter.chars ++ rest)) =
      text :: Text.splitAll suffixDelimiter rest := by
  refine Text.splitAll_append_needle ?_
  rw [Text.spills_iff clean, overhangs_suffixDelimiter]
  rintro ⟨overhang, among, within⟩
  rw [List.mem_singleton.1 among] at within
  exact h within

theorem splitAll_loose_piece (clean : Text.occurs suffixDelimiter (text ++ ['_']) = false)
    (rest : List Char) :
    Text.splitAll suffixDelimiter (text ++ ['_'] ++ '_' :: rest) =
      text :: Text.splitAll suffixDelimiter rest := by
  rw [← Bool.not_eq_true, Text.occurs_iff] at clean
  have cleanFront : Text.occurs suffixDelimiter text = false := by
    rw [← Bool.not_eq_true, Text.occurs_iff]
    exact fun within => clean (within.trans (List.prefix_append _ _).isInfix)
  have apart : ¬['_'] <:+ text := by
    rintro ⟨front, rfl⟩
    exact clean ⟨front, [], by simp [suffixDelimiter]⟩
  rw [List.append_assoc]
  exact splitAll_piece cleanFront apart rest

theorem suffix_last_iff {front : List (List Char)}
    (split : Text.splitAll suffixDelimiter text = front ++ [last]) :
    ['_'] <:+ last ↔ ¬Even (text.rtakeWhile (· = '_')).length := by
  -- One character more, and only the last piece before it decides what is the last piece now.
  induction text using List.reverseRecOn generalizing front last with
  | nil =>
    have none : Text.splitAll suffixDelimiter [] = [] ++ [[]] := Text.splitAll_of_cut?_none rfl
    obtain ⟨-, rfl⟩ := List.append_singleton_inj.1 (none.symm.trans split)
    simp
  | append_singleton text c ih =>
    obtain ⟨front', last', split', append⟩ := Text.exists_splitAll_append suffixDelimiter text
    have clean : Text.occurs suffixDelimiter last' = false :=
      Text.not_occurs_of_mem_splitAll (split' ▸ List.mem_append_right front' List.mem_cons_self)
    rw [append] at split
    by_cases pairs : c = '_' ∧ ['_'] <:+ last'
    · obtain ⟨rfl, more, rfl⟩ := pairs
      rw [splitAll_loose_piece clean, Text.splitAll_of_cut?_none rfl, List.append_cons] at split
      obtain ⟨-, rfl⟩ := List.append_singleton_inj.1 split
      have odd := (ih split').1 (List.suffix_append more _)
      rw [List.rtakeWhile_concat_pos _ _ _ (by decide), List.length_append, List.length_singleton,
        Nat.even_add_one]
      simpa using odd
    · rw [Text.splitAll_of_not_occurs (not_occurs_concat clean pairs)] at split
      obtain ⟨-, rfl⟩ := List.append_singleton_inj.1 split
      by_cases underscore : c = '_'
      · subst underscore
        rw [List.rtakeWhile_concat_pos _ _ _ (by decide), List.length_append,
          List.length_singleton, Nat.even_add_one, ← ih split']
        simpa using pairs
      · rw [List.rtakeWhile_concat_neg _ _ _ (by simpa using underscore)]
        rw [suffix_concat_iff_eq]
        simpa using Ne.symm underscore

end Key

namespace Field

theorem ofMember_of_single {member : String} {piece : List Char}
    (h : Text.splitAll Key.suffixDelimiter member.toList = [piece]) :
    ofMember member = ⟨member, none⟩ := by
  rw [ofMember, h]
  rfl

theorem ofMember_of_splitAll {member : String} {front : List (List Char)} {piece last : List Char}
    (h : Text.splitAll Key.suffixDelimiter member.toList = front ++ [piece] ++ [last]) :
    ofMember member =
      if front = [] ∨ (Operator.ofSuffix? (String.ofList last)).isSome then
        ⟨String.ofList (Key.suffixDelimiter.chars.intercalate (front ++ [piece])),
          some (String.ofList last)⟩
      else ⟨member, none⟩ := by
  rw [ofMember, h]
  split
  · next path suffix two =>
    rcases front with _ | ⟨first, front⟩
    · cases two
      rw [if_pos (Or.inl rfl), List.nil_append, List.intercalate_singleton]
    · have lengths := congrArg List.length two
      simp only [List.length_append, List.length_cons, List.length_nil] at lengths
      omega
  · next several =>
    have nonempty : front ≠ [] := by
      rintro rfl
      exact several piece last rfl
    simp [nonempty, List.length_pos_iff]

theorem exists_of_suffix? {member suffix : String} (h : (ofMember member).suffix? = some suffix) :
    ∃ front piece,
      Text.splitAll Key.suffixDelimiter member.toList = front ++ [piece] ++ [suffix.toList] ∧
      (front = [] ∨ (Operator.ofSuffix? suffix).isSome = true) ∧
      (ofMember member).path =
        String.ofList (Key.suffixDelimiter.chars.intercalate (front ++ [piece])) := by
  rcases List.eq_nil_or_concat (Text.splitAll Key.suffixDelimiter member.toList) with
    none | ⟨pieces, last, split⟩
  · exact absurd none (Text.splitAll_ne_nil _ _)
  rw [List.concat_eq_append] at split
  rcases List.eq_nil_or_concat pieces with rfl | ⟨front, piece, rfl⟩
  · rw [ofMember_of_single split] at h
    cases h
  · rw [List.concat_eq_append] at split
    rw [ofMember_of_splitAll split] at h ⊢
    split at h
    · next found =>
      obtain rfl := Option.some.inj h
      rw [String.toList_ofList, if_pos found]
      exact ⟨front, piece, split, found, rfl⟩
    · cases h

theorem path_of_suffix?_none {member : String} (h : (ofMember member).suffix? = none) :
    (ofMember member).path = member := by
  unfold ofMember at h ⊢
  split at h
  · cases h
  · dsimp only at h ⊢
    split at h
    · cases h
    · next other => rw [if_neg other]

theorem path_append_suffix {member suffix : String}
    (h : (ofMember member).suffix? = some suffix) :
    (ofMember member).path ++ "__" ++ suffix = member := by
  obtain ⟨front, piece, split, -, path⟩ := exists_of_suffix? h
  have delimiter : "__".toList = Key.suffixDelimiter.chars := by decide
  have whole := Text.intercalate_splitAll Key.suffixDelimiter member.toList
  rw [split, Text.intercalate_concat _ (by simp)] at whole
  apply String.toList_injective
  rw [path, String.toList_append, String.toList_append, String.toList_ofList, delimiter, whole]

theorem ofMember_append_iff (path : String) (operator : Operator) :
    ofMember (path ++ "__" ++ operator.suffix) = ⟨path, some operator.suffix⟩ ↔
      Even (path.toList.rtakeWhile (· = '_')).length := by
  obtain ⟨front, last, split, append⟩ :=
    Text.exists_splitAll_append Key.suffixDelimiter path.toList
  have clean : Text.occurs Key.suffixDelimiter last = false :=
    Text.not_occurs_of_mem_splitAll (split ▸ List.mem_append_right front List.mem_cons_self)
  have member : (path ++ "__" ++ operator.suffix).toList =
      path.toList ++ (Key.suffixDelimiter.chars ++ operator.suffix.toList) := by
    rw [String.toList_append, String.toList_append, List.append_assoc]
    rfl
  have word := operator.underscore_not_mem_suffix
  rw [← not_iff_comm.1 (Key.suffix_last_iff split).symm]
  by_cases loose : ['_'] <:+ last
  · obtain ⟨more, rfl⟩ := loose
    have pieces : Text.splitAll Key.suffixDelimiter (path ++ "__" ++ operator.suffix).toList =
        front ++ [more] ++ ['_' :: operator.suffix.toList] := by
      have shifted : Text.splitAll Key.suffixDelimiter ('_' :: operator.suffix.toList) =
          ['_' :: operator.suffix.toList] := by
        refine Text.splitAll_of_not_occurs ?_
        rw [← Bool.not_eq_true, Text.occurs_iff, List.infix_cons_iff]
        rintro (begins | within)
        · exact word ((List.cons_prefix_cons.1 begins).2.subset List.mem_cons_self)
        · exact word (within.subset List.mem_cons_self)
      have cut : Text.splitAll Key.suffixDelimiter
          (more ++ ['_'] ++ (Key.suffixDelimiter.chars ++ operator.suffix.toList)) =
            more :: Text.splitAll Key.suffixDelimiter ('_' :: operator.suffix.toList) :=
        Key.splitAll_loose_piece clean _
      rw [member, append, cut, shifted, List.append_cons]
    refine iff_of_false (fun same => ?_) (not_not.2 (List.suffix_append more _))
    obtain ⟨front', piece, split', -, -⟩ := exists_of_suffix? (congrArg Field.suffix? same)
    have last := (List.append_singleton_inj.1 (pieces.symm.trans split')).2
    exact word (last ▸ List.mem_cons_self)
  · have pieces : Text.splitAll Key.suffixDelimiter (path ++ "__" ++ operator.suffix).toList =
        front ++ [last] ++ [operator.suffix.toList] := by
      rw [member, append, Key.splitAll_piece clean loose,
        Text.splitAll_of_not_occurs (Key.not_occurs_of_underscore_not_mem word), List.append_cons]
    have known : (Operator.ofSuffix? operator.suffix).isSome = true := by
      rw [operator.ofSuffix?_suffix, Option.isSome_some]
    rw [ofMember_of_splitAll pieces, String.ofList_toList, if_pos (Or.inr known), ← split,
      Text.intercalate_splitAll, String.ofList_toList]
    exact iff_of_true rfl loose

/-- A member without a suffix is its own path, and a suffix with two underscores before it ends the
member behind its path and has no two underscores in it. If it is no operator, it and the path are
the only pieces. An operator is found behind a path if and only if the path ends in an even number
of underscores. -/
theorem ofMember_exact :
    (∀ member : String,
      ((ofMember member).suffix? = none → (ofMember member).path = member) ∧
      ∀ suffix, (ofMember member).suffix? = some suffix →
        (ofMember member).path ++ "__" ++ suffix = member ∧ ¬"__".toList <:+: suffix.toList ∧
        ((∀ operator : Operator, operator.suffix ≠ suffix) →
          Text.splitAll Key.suffixDelimiter member.toList =
            [(ofMember member).path.toList, suffix.toList])) ∧
    (∀ (path : String) (operator : Operator),
      ofMember (path ++ "__" ++ operator.suffix) = ⟨path, some operator.suffix⟩ ↔
        Even (path.toList.rtakeWhile (· = '_')).length) := by
  refine ⟨fun member => ⟨path_of_suffix?_none, fun suffix found => ?_⟩, ofMember_append_iff⟩
  obtain ⟨front, piece, split, lone, path⟩ := exists_of_suffix? found
  refine ⟨path_append_suffix found, fun within => ?_, fun unknown => ?_⟩
  · have last : suffix.toList ∈ Text.splitAll Key.suffixDelimiter member.toList :=
      split ▸ List.mem_append_right _ List.mem_cons_self
    have absent := Text.not_occurs_of_mem_splitAll last
    rw [(Text.occurs_iff _ _).2 within] at absent
    cases absent
  · have front_eq : front = [] := by
      refine lone.resolve_right fun isSome => ?_
      rw [Operator.ofSuffix?_eq_none_iff.2 unknown] at isSome
      cases isSome
    subst front_eq
    rw [split, path, List.nil_append, List.intercalate_singleton, String.toList_ofList]
    rfl

theorem ofMember_exact_runs :
    ofMember "é__b____like" = ⟨"é__b__", some "like"⟩ ∧
      ofMember "b___like" ≠ ⟨"b_", some "like"⟩ ∧
      Text.splitAll Key.suffixDelimiter "b___like".toList = ["b".toList, "_like".toList] := by
  have even := (ofMember_exact.2 "é__b__" .like).2 (by decide +kernel)
  have odd := mt (ofMember_exact.2 "b_" .like).1 (by decide +kernel)
  have unknown : ∀ operator : Operator, operator.suffix ≠ "_like" :=
    Operator.ofSuffix?_eq_none_iff.1 (by decide)
  have pieces := ((ofMember_exact.1 "b___like").2 "_like" (by decide +kernel)).2.2 unknown
  have path : (ofMember "b___like").path = "b" := by decide +kernel
  rw [path] at pieces
  exact ⟨even, odd, pieces⟩

end Field

end WhereClause
