import WhereClause.Proofs.Reading

/-! Phrases: texts that a reader takes as one part of a group. Phrases with a connective between them
are cut into just these phrases, and what they read as are the parts of the group. -/
namespace WhereClause.Reading

open Words

/-- Whether words make up a whole part: no connective stands among them, and one that follows them
ends the part. -/
structure IsPart (words : List (List Char)) : Prop where
  uncut : ∀ rest, cutFrom [] (words ++ rest) = cutFrom words rest
  ends : ∀ connective : Connective, connective? words connective.word = some connective

def IsOrdinary (word : List Char) : Prop :=
  ∀ connective : Connective, word ≠ connective.word

theorem connective?_of_isOrdinary {part : List (List Char)} {word : List Char}
    (h : IsOrdinary word) : connective? part word = none := by
  rw [connective?, if_neg (h .or), if_neg fun isAnd => h .and isAnd.1]

theorem cutFrom_of_isOrdinary {words : List (List Char)} (part rest : List (List Char))
    (h : ∀ word ∈ words, IsOrdinary word) :
    cutFrom part (words ++ rest) = cutFrom (part ++ words) rest := by
  induction words generalizing part with
  | nil => rw [List.nil_append, List.append_nil]
  | cons word more ih =>
    obtain ⟨first, later⟩ := List.forall_mem_cons.1 h
    rw [List.cons_append, cutFrom, connective?_of_isOrdinary first, ih _ later,
      List.append_assoc, List.singleton_append]

theorem connective?_word {part : List (List Char)} (h : awaitsBound part = false)
    (connective : Connective) : connective? part connective.word = some connective := by
  cases connective with
  | and => rw [connective?, if_neg (by decide), if_pos ⟨rfl, h⟩]
  | or => rw [connective?, if_pos rfl]

theorem isPart_of_isOrdinary {words : List (List Char)} (h : ∀ word ∈ words, IsOrdinary word)
    (complete : awaitsBound words = false) : IsPart words where
  uncut := fun rest => cutFrom_of_isOrdinary [] rest h
  ends := connective?_word complete

theorem isPart_between {column low high : List Char} (first : IsOrdinary column)
    (lower : IsOrdinary low) (upper : IsOrdinary high) :
    IsPart [column, "BETWEEN".toList, low, Connective.and.word, high] where
  uncut := by
    intro rest
    have between : IsOrdinary "BETWEEN".toList := by
      intro connective
      cases connective <;> decide
    have beginning : ∀ word ∈ [column, "BETWEEN".toList, low], IsOrdinary word := by
      simp only [List.forall_mem_cons]
      exact ⟨first, between, lower, List.forall_mem_nil _⟩
    have own : connective? [column, "BETWEEN".toList, low] Connective.and.word = none := by
      rw [connective?, if_neg (by decide), if_neg]
      rintro ⟨-, complete⟩
      simp [awaitsBound] at complete
    have parted := cutFrom_of_isOrdinary [] (Connective.and.word :: high :: rest) beginning
    rw [List.nil_append, List.cons_append, List.cons_append, List.cons_append,
      List.nil_append] at parted
    simp only [List.cons_append, List.nil_append]
    rw [parted, cutFrom, own]
    simp only [List.cons_append, List.nil_append]
    rw [cutFrom, connective?_of_isOrdinary upper]
    rfl
  ends := connective?_word rfl

theorem cutFrom_intercalate (connective : Connective) {parts : List (List (List Char))}
    (nonempty : parts ≠ []) (h : ∀ part ∈ parts, IsPart part) :
    cutFrom [] ([connective.word].intercalate parts) =
      (List.replicate (parts.length - 1) connective, parts) := by
  induction parts with
  | nil => exact absurd rfl nonempty
  | cons part rest ih =>
    obtain ⟨first, later⟩ := List.forall_mem_cons.1 h
    cases rest with
    | nil =>
      have alone := first.uncut []
      rw [List.append_nil] at alone
      rw [List.intercalate_singleton, alone]
      rfl
    | cons second more =>
      rw [List.intercalate_cons_cons, List.append_assoc, first.uncut, List.singleton_append,
        cutFrom, first.ends connective]
      simp only [ih (List.cons_ne_nil _ _) later]
      rfl

structure IsPhrase (text : List Char) : Prop where
  balanced : ∀ word ∈ ofText text, Balanced 0 word
  isPart : IsPart (ofText text)

theorem isPhrase_join {words : List (List Char)} (nonempty : words ≠ [])
    (balanced : ∀ word ∈ words, Balanced 0 word) (isPart : IsPart words) :
    IsPhrase (join words) := by
  have same := ofText_join nonempty balanced
  exact ⟨by rwa [same], by rwa [same]⟩

theorem IsPhrase.cutFrom {text : List Char} (h : IsPhrase text) :
    Reading.cutFrom [] (ofText text) = ([], [ofText text]) := by
  have whole := h.isPart.uncut []
  rw [List.append_nil] at whole
  rw [whole]
  rfl

theorem IsPhrase.readFrom {text : List Char} (h : IsPhrase text)
    (several : 1 < (ofText text).length) :
    Reading.readFrom text = some (.leaf (String.ofList text)) := by
  refine readFrom_leaf h.cutFrom ?_
  unfold inside?
  split
  · next one =>
    rw [one] at several
    simp at several
  · rfl

theorem isOrdinary_cons {c : Char} (rest : List Char) (notA : c ≠ 'A') (notO : c ≠ 'O') :
    IsOrdinary (c :: rest) := by
  intro connective same
  cases connective with
  | and => exact notA (List.head_eq_of_cons_eq same)
  | or => exact notO (List.head_eq_of_cons_eq same)

theorem isPhrase_parenthesised {text : List Char} (h : Balanced 1 text) :
    IsPhrase ('(' :: (text ++ [')'])) ∧ readFrom ('(' :: (text ++ [')'])) = readFrom text := by
  have balanced := balanced_parenthesised h
  have word := ofText_of_balanced balanced
  have isPart : IsPart ['(' :: (text ++ [')'])] := by
    refine isPart_of_isOrdinary ?_ rfl
    rw [List.forall_mem_singleton]
    exact isOrdinary_cons _ (by decide) (by decide)
  have phrase : IsPhrase ('(' :: (text ++ [')'])) := by
    refine ⟨?_, ?_⟩
    · rw [word, List.forall_mem_singleton]
      exact balanced
    · rw [word]
      exact isPart
  refine ⟨phrase, readFrom_of_inside? phrase.cutFrom ?_⟩
  unfold inside?
  rw [word]
  simp

section

variable {connective : Connective} {phrases : List (List Char)}

theorem balanced_word (connective : Connective) : Balanced 0 connective.word := by
  cases connective <;> exact balanced_plain (List.all_eq_true.1 (by decide))

theorem toList_separator (connective : Connective) :
    connective.separator.toList = ' ' :: (connective.word ++ [' ']) := by
  cases connective <;> decide

theorem forall_mem_intercalate {α : Type} {p : α → Prop} {separator : List α}
    {parts : List (List α)} (between : ∀ x ∈ separator, p x)
    (h : ∀ part ∈ parts, ∀ x ∈ part, p x) : ∀ x ∈ separator.intercalate parts, p x := by
  induction parts with
  | nil => exact List.forall_mem_nil _
  | cons part rest ih =>
    obtain ⟨first, later⟩ := List.forall_mem_cons.1 h
    cases rest with
    | nil => rwa [List.intercalate_singleton]
    | cons second more =>
      rw [List.intercalate_cons_cons]
      exact List.forall_mem_append.2 ⟨List.forall_mem_append.2 ⟨first, between⟩, ih later⟩

theorem intercalate_ne_nil {α : Type} {separator : List α} {parts : List (List α)}
    (nonempty : parts ≠ []) (h : ∀ part ∈ parts, part ≠ []) :
    separator.intercalate parts ≠ [] := by
  obtain ⟨part, rest, rfl⟩ := List.exists_cons_of_ne_nil nonempty
  have first := h part List.mem_cons_self
  cases rest with
  | nil => rwa [List.intercalate_singleton]
  | cons second more =>
    rw [List.intercalate_cons_cons, List.append_assoc]
    exact List.append_ne_nil_of_left_ne_nil first _

theorem join_intercalate (connective : Connective) {parts : List (List (List Char))}
    (h : ∀ part ∈ parts, part ≠ []) :
    join ([connective.word].intercalate parts) =
      connective.separator.toList.intercalate (parts.map join) := by
  induction parts with
  | nil => rfl
  | cons part rest ih =>
    obtain ⟨first, later⟩ := List.forall_mem_cons.1 h
    cases rest with
    | nil => rw [List.intercalate_singleton, List.map_singleton, List.intercalate_singleton]
    | cons second more =>
      have more_ne_nil : [connective.word].intercalate (second :: more) ≠ [] :=
        intercalate_ne_nil (List.cons_ne_nil _ _) later
      rw [List.intercalate_cons_cons, List.append_assoc, List.singleton_append,
        join_append first (List.cons_ne_nil _ _), join_cons _ more_ne_nil, ih later,
        List.map_cons, List.map_cons, List.map_cons, List.intercalate_cons_cons, toList_separator]
      simp only [List.append_assoc, List.cons_append, List.nil_append]

theorem balanced_words (h : ∀ phrase ∈ phrases, IsPhrase phrase) :
    ∀ word ∈ [connective.word].intercalate (phrases.map ofText), Balanced 0 word := by
  refine forall_mem_intercalate ?_ fun part among => ?_
  · rw [List.forall_mem_singleton]
    exact balanced_word connective
  · obtain ⟨phrase, inPhrases, rfl⟩ := List.mem_map.1 among
    exact (h phrase inPhrases).balanced

theorem ofText_intercalate (nonempty : phrases ≠ []) (h : ∀ phrase ∈ phrases, IsPhrase phrase) :
    ofText (connective.separator.toList.intercalate phrases) =
      [connective.word].intercalate (phrases.map ofText) := by
  have words_ne_nil : ∀ part ∈ phrases.map ofText, part ≠ [] := by
    intro part among
    obtain ⟨phrase, -, rfl⟩ := List.mem_map.1 among
    exact wordsFrom_ne_nil _ _
  have texts : (phrases.map ofText).map join = phrases := by
    rw [List.map_map]
    exact (List.map_congr_left fun phrase _ => join_ofText phrase).trans (List.map_id phrases)
  have joined := join_intercalate connective words_ne_nil
  rw [texts] at joined
  rw [← joined]
  exact ofText_join (intercalate_ne_nil (mt List.map_eq_nil_iff.1 nonempty) words_ne_nil)
    (balanced_words h)

theorem balanced_of_phrases (nonempty : phrases ≠ []) (h : ∀ phrase ∈ phrases, IsPhrase phrase) :
    ∀ word ∈ ofText (connective.separator.toList.intercalate phrases), Balanced 0 word := by
  rw [ofText_intercalate nonempty h]
  exact balanced_words h

theorem readFrom_intercalate (several : 1 < phrases.length)
    (h : ∀ phrase ∈ phrases, IsPhrase phrase) :
    readFrom (connective.separator.toList.intercalate phrases) =
      (phrases.mapM readFrom).map (.group connective) := by
  have nonempty : phrases ≠ [] := List.length_pos_iff.1 (by omega)
  have areParts : ∀ part ∈ phrases.map ofText, IsPart part := by
    intro part among
    obtain ⟨phrase, inPhrases, rfl⟩ := List.mem_map.1 among
    exact (h phrase inPhrases).isPart
  have cut := cutFrom_intercalate connective (mt List.map_eq_nil_iff.1 nonempty) areParts
  obtain ⟨others, count⟩ : ∃ others, phrases.length - 1 = others + 1 :=
    ⟨phrases.length - 2, by omega⟩
  rw [← ofText_intercalate nonempty h, List.length_map, count, List.replicate_succ] at cut
  have parts := readFrom_group cut fun other among => List.eq_of_mem_replicate among
  rw [parts, List.mapM_map]
  have reads : (fun part => readFrom (join part)) ∘ ofText = readFrom := by
    funext phrase
    rw [Function.comp_apply, join_ofText]
  rw [reads]

end

end WhereClause.Reading
