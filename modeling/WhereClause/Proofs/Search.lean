import WhereClause.Text.Basic

/-! What a search finds and what it leaves: a needle occurs exactly where it is an infix, a cut is
made at the first occurrence, and replacing goes through a text from left to right, passing over
what no occurrence starts in. A run of characters of a class ends where the class does. -/
namespace WhereClause.Text

section

variable {inClass : Char → Bool} {run rest : List Char}

theorem takeWhile_run (inside : ∀ c ∈ run, inClass c = true)
    (stops : ∀ c ∈ rest.head?, inClass c = false) : (run ++ rest).takeWhile inClass = run := by
  rw [List.takeWhile_append_of_pos inside]
  cases rest with
  | nil => exact List.append_nil run
  | cons c more =>
    rw [List.takeWhile_cons_of_neg (Bool.eq_false_iff.1 (stops c rfl)), List.append_nil]

theorem dropWhile_run (inside : ∀ c ∈ run, inClass c = true)
    (stops : ∀ c ∈ rest.head?, inClass c = false) : (run ++ rest).dropWhile inClass = rest := by
  rw [List.dropWhile_append_of_pos inside]
  cases rest with
  | nil => rfl
  | cons c more => exact List.dropWhile_cons_of_neg (Bool.eq_false_iff.1 (stops c rfl))

end

theorem occurs_iff (needle : Needle) (s : List Char) :
    occurs needle s = true ↔ needle.chars <:+: s := by
  induction s with
  | nil => simp [occurs, cut?, needle.chars_ne_nil]
  | cons c rest ih =>
    rw [occurs] at ih
    rw [occurs, cut?, List.infix_cons_iff, ← ih]
    split
    · next found => simp [List.isPrefixOf_iff_prefix.1 found]
    · next missing => simp [mt List.isPrefixOf_iff_prefix.2 missing]

theorem not_occurs_of_cut? {needle : Needle} {s before after : List Char}
    (h : cut? needle s = some (before, after)) : occurs needle before = false := by
  induction s generalizing before with
  | nil => simp [cut?] at h
  | cons c rest ih =>
    rw [cut?] at h
    split at h
    · obtain ⟨rfl, -⟩ := Prod.mk.inj (Option.some.inj h)
      rfl
    · next missing =>
      obtain ⟨⟨b, a⟩, later, same⟩ := Option.map_eq_some_iff.1 h
      obtain ⟨rfl, rfl⟩ := Prod.mk.inj same
      rw [← Bool.not_eq_true, occurs_iff, List.infix_cons_iff, ← occurs_iff, ih later]
      rintro (here | never)
      · refine missing (List.isPrefixOf_iff_prefix.2 ?_)
        rw [eq_of_cut? later, List.append_assoc]
        exact here.trans (List.prefix_append (c :: b) _)
      · cases never

theorem splitAll_of_not_occurs {needle : Needle} {s : List Char} (h : occurs needle s = false) :
    splitAll needle s = [s] :=
  splitAll_of_cut?_none (Option.not_isSome_iff_eq_none.1 (Bool.eq_false_iff.1 h))

theorem not_occurs_of_mem_splitAll {needle : Needle} {s piece : List Char}
    (h : piece ∈ splitAll needle s) : occurs needle piece = false := by
  fun_induction splitAll needle s with
  | case1 s missing =>
    rw [List.mem_singleton.1 h, occurs, missing, Option.isSome_none]
  | case2 s before after found ih =>
    rcases List.mem_cons.1 h with rfl | later
    · exact not_occurs_of_cut? found
    · exact ih later

theorem splitAll_of_isPrefix (needle : Needle) (rest : List Char) :
    splitAll needle (needle.chars ++ rest) = [] :: splitAll needle rest := by
  have found : cut? needle (needle.chars ++ rest) = some ([], rest) := by
    obtain ⟨c, more, chars⟩ := List.exists_cons_of_ne_nil needle.chars_ne_nil
    have here : needle.chars.isPrefixOf (c :: (more ++ rest)) = true := by
      rw [List.isPrefixOf_iff_prefix, chars]
      exact List.prefix_append (c :: more) rest
    rw [chars, List.cons_append, cut?, if_pos here, ← List.cons_append, ← chars, List.drop_left]
  rw [splitAll_of_cut? found]

theorem splitAll_cons {needle : Needle} {c : Char} {rest : List Char}
    (h : ¬needle.chars <+: c :: rest) :
    splitAll needle (c :: rest) = (splitAll needle rest).modifyHead (c :: ·) := by
  have missing := mt List.isPrefixOf_iff_prefix.1 h
  cases later : cut? needle rest with
  | none =>
    have none : cut? needle (c :: rest) = none := by rw [cut?, if_neg missing, later]; rfl
    rw [splitAll_of_cut?_none none, splitAll_of_cut?_none later]
    rfl
  | some parts =>
    obtain ⟨before, after⟩ := parts
    have found : cut? needle (c :: rest) = some (c :: before, after) := by
      rw [cut?, if_neg missing, later]
      rfl
    rw [splitAll_of_cut? found, splitAll_of_cut? later]
    rfl

theorem splitAll_append {needle : Needle} {text rest : List Char}
    (h : ∀ left, left <:+ text → left ≠ [] → ¬needle.chars <+: left ++ rest) :
    splitAll needle (text ++ rest) = (splitAll needle rest).modifyHead (text ++ ·) := by
  induction text with
  | nil => exact (congrFun List.modifyHead_id _).symm
  | cons c text ih =>
    have here : ¬needle.chars <+: c :: (text ++ rest) :=
      h (c :: text) (List.suffix_refl _) (List.cons_ne_nil _ _)
    have later := fun left (within : left <:+ text) =>
      h left (within.trans (List.suffix_cons c text))
    rw [List.cons_append, splitAll_cons here, ih later, List.modifyHead_modifyHead]
    rfl

section

variable {needle : Needle} (new : List Char) {rest : List Char}

theorem replaceAll_nil : replaceAll needle new [] = [] := by
  have none : cut? needle [] = none := rfl
  rw [replaceAll, splitAll_of_cut?_none none, List.intercalate_singleton]

theorem replaceAll_of_isPrefix :
    replaceAll needle new (needle.chars ++ rest) = new ++ replaceAll needle new rest := by
  obtain ⟨piece, pieces, split⟩ := List.exists_cons_of_ne_nil (splitAll_ne_nil needle rest)
  rw [replaceAll, replaceAll, splitAll_of_isPrefix, split, List.intercalate_cons_cons,
    List.nil_append]

theorem replaceAll_append {text : List Char}
    (h : ∀ left, left <:+ text → left ≠ [] → ¬needle.chars <+: left ++ rest) :
    replaceAll needle new (text ++ rest) = text ++ replaceAll needle new rest := by
  obtain ⟨piece, pieces, split⟩ := List.exists_cons_of_ne_nil (splitAll_ne_nil needle rest)
  rw [replaceAll, replaceAll, splitAll_append h, split, List.modifyHead_cons]
  cases pieces with
  | nil => rw [List.intercalate_singleton, List.intercalate_singleton]
  | cons second more =>
    rw [List.intercalate_cons_cons, List.intercalate_cons_cons, List.append_assoc,
      List.append_assoc, List.append_assoc]

theorem replaceAll_cons {c : Char} (h : ¬needle.chars <+: c :: rest) :
    replaceAll needle new (c :: rest) = c :: replaceAll needle new rest := by
  have alone : ∀ left, left <:+ [c] → left ≠ [] → ¬needle.chars <+: left ++ rest := by
    intro left within nonempty
    rcases List.suffix_cons_iff.1 within with rfl | later
    · exact h
    · exact absurd (List.suffix_nil.1 later) nonempty
  exact replaceAll_append new alone

end

theorem replaceAll_singleton (needle : Needle) {c : Char} (h : needle.chars = [c])
    (new s : List Char) :
    replaceAll needle new s = s.flatMap fun d => if d = c then new else [d] := by
  induction s with
  | nil => exact replaceAll_nil new
  | cons d rest ih =>
    rw [List.flatMap_cons, ← ih]
    by_cases same : d = c
    · rw [if_pos same, same, ← List.singleton_append, ← h, replaceAll_of_isPrefix]
    · have missing : ¬needle.chars <+: d :: rest := by
        rw [h, List.cons_prefix_cons]
        exact fun begins => same begins.1.symm
      rw [if_neg same, replaceAll_cons new missing, List.singleton_append]

end WhereClause.Text
