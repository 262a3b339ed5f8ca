import WhereClause.Predicate
import WhereClause.Proofs.Words

/-! Reading the text of a condition. A text is cut at the connectives that stand as words of their
own, the one inside a BETWEEN excepted, and the parts are read in turn. A text of one part is read
inside its parentheses, or it is a leaf. Different connectives side by side have no reading. -/
namespace WhereClause

inductive Reading where
  | leaf (text : String)
  | group (connective : Connective) (parts : List Reading)

def Connective.word : Connective → List Char
  | and => "AND".toList
  | or => "OR".toList

namespace Reading

/-- Whether words are those of a BETWEEN up to its lower bound, so that an AND is its own. -/
def awaitsBound : List (List Char) → Bool
  | [_, word, _] => word = "BETWEEN".toList
  | _ => false

def connective? (part : List (List Char)) (word : List Char) : Option Connective :=
  if word = Connective.or.word then some .or
  else if word = Connective.and.word ∧ awaitsBound part = false then some .and
  else none

/-- The connectives among words and the parts between them, the first of which has begun. -/
def cutFrom (part : List (List Char)) :
    List (List Char) → List Connective × List (List (List Char))
  | [] => ([], [part])
  | word :: rest =>
    match connective? part word with
    | none => cutFrom (part ++ [word]) rest
    | some connective =>
      let (connectives, parts) := cutFrom [] rest
      (connective :: connectives, part :: parts)

def inside? (text : List Char) : Option (List Char) :=
  match Words.ofText text with
  | [_] =>
    match text with
    | '(' :: rest => if rest.getLast? = some ')' then some rest.dropLast else none
    | _ => none
  | _ => none

theorem length_lt_of_inside? {text inner : List Char} (h : inside? text = some inner) :
    inner.length < text.length := by
  unfold inside? at h
  split at h
  · split at h
    · next rest =>
      split at h
      · cases h
        simp only [List.length_dropLast, List.length_cons]
        omega
      · cases h
    · cases h
  · cases h

/-- The room that words take with a blank behind each. -/
def room : List (List Char) → Nat
  | [] => 0
  | word :: rest => word.length + 1 + room rest

theorem room_append (words more : List (List Char)) :
    room (words ++ more) = room words + room more := by
  induction words with
  | nil => simp [room]
  | cons word rest ih =>
    rw [List.cons_append, room, room, ih]
    omega

theorem room_wordsFrom (place : Place) (text : List Char) :
    room (Words.wordsFrom place text) = text.length + 1 := by
  induction text generalizing place with
  | nil => rfl
  | cons c rest ih =>
    rw [Words.wordsFrom]
    split
    · rw [room, ih]
      simp only [List.length_nil, List.length_cons]
      omega
    · have size := ih (place.next c)
      obtain ⟨word, words, split⟩ :=
        List.exists_cons_of_ne_nil (Words.wordsFrom_ne_nil (place.next c) rest)
      rw [split, room] at size
      rw [split, List.modifyHead_cons, room, List.length_cons, List.length_cons]
      omega

theorem length_join_le_room (words : List (List Char)) :
    (Words.join words).length ≤ room words := by
  induction words with
  | nil => exact Nat.le_refl 0
  | cons word rest ih =>
    by_cases last : rest = []
    · rw [last, room]
      simp only [Words.join, List.intercalate_singleton]
      omega
    · rw [Words.join_cons word last, room, List.length_append, List.length_cons]
      omega

theorem length_of_connective? {part : List (List Char)} {word : List Char}
    {connective : Connective} (h : connective? part word = some connective) :
    2 ≤ word.length := by
  unfold connective? at h
  split at h
  · next isOr =>
    rw [isOr]
    decide
  · split at h
    · next isAnd =>
      rw [isAnd.1]
      decide
    · cases h

theorem room_le_of_mem_cutFrom {part words other : List (List Char)}
    (h : other ∈ (cutFrom part words).2) : room other ≤ room part + room words := by
  induction words generalizing part with
  | nil =>
    rw [List.mem_singleton.1 h]
    exact Nat.le_add_right _ _
  | cons word rest ih =>
    rw [cutFrom] at h
    rw [room]
    split at h
    · have smaller := ih h
      rw [room_append, room] at smaller
      simp only [room] at smaller ⊢
      omega
    · rcases List.mem_cons.1 h with rfl | later
      · omega
      · have smaller := ih later
        simp only [room] at smaller ⊢
        omega

theorem room_lt_of_mem_cutFrom {part words other : List (List Char)}
    (cut : (cutFrom part words).1 ≠ []) (h : other ∈ (cutFrom part words).2) :
    room other + 2 ≤ room part + room words := by
  induction words generalizing part with
  | nil => exact absurd rfl cut
  | cons word rest ih =>
    rw [cutFrom] at h cut
    rw [room]
    split at h
    · next none =>
      rw [none] at cut
      have smaller := ih cut h
      rw [room_append, room] at smaller
      simp only [room] at smaller ⊢
      omega
    · next connective found =>
      have long := length_of_connective? found
      rcases List.mem_cons.1 h with rfl | later
      · omega
      · have smaller := room_le_of_mem_cutFrom later
        simp only [room] at smaller ⊢
        omega

theorem length_join_lt {text : List Char} {part : List (List Char)}
    (cut : (cutFrom [] (Words.ofText text)).1 ≠ [])
    (among : part ∈ (cutFrom [] (Words.ofText text)).2) :
    (Words.join part).length < text.length := by
  have smaller := room_lt_of_mem_cutFrom cut among
  have whole := room_wordsFrom .outside text
  have fits := length_join_le_room part
  have nothing : room [] = 0 := rfl
  rw [Words.ofText, whole, nothing] at smaller
  omega

def readFrom (text : List Char) : Option Reading :=
  match _cut : cutFrom [] (Words.ofText text) with
  | ([], _) =>
    match _inside : inside? text with
    | some inner => readFrom inner
    | none => some (.leaf (String.ofList text))
  | (connective :: others, parts) =>
    if others.all (· = connective) then
      (parts.attach.mapM fun part => readFrom (Words.join part.1)).map (.group connective)
    else none
termination_by text.length
decreasing_by
  · exact length_lt_of_inside? _inside
  · refine length_join_lt ?_ ?_
    · rw [_cut]
      exact List.cons_ne_nil _ _
    · rw [_cut]
      exact part.2

def read (text : String) : Option Reading := readFrom text.toList

section

variable {text inner : List Char} {parts : List (List (List Char))}

theorem readFrom_of_inside? (cut : cutFrom [] (Words.ofText text) = ([], parts))
    (h : inside? text = some inner) : readFrom text = readFrom inner := by
  rw [readFrom]
  split
  · split
    · next found =>
      rw [h] at found
      rw [Option.some.inj found]
    · next missing =>
      rw [h] at missing
      cases missing
  · next several =>
    rw [cut] at several
    cases several

theorem readFrom_leaf (cut : cutFrom [] (Words.ofText text) = ([], parts))
    (h : inside? text = none) : readFrom text = some (.leaf (String.ofList text)) := by
  rw [readFrom]
  split
  · split
    · next found =>
      rw [h] at found
      cases found
    · rfl
  · next several =>
    rw [cut] at several
    cases several

theorem mapM_attach {α β : Type} (items : List α) (f : α → Option β) :
    (items.attach.mapM fun item => f item.1) = items.mapM f := by
  have composed : (items.attach.mapM fun item => f item.1) =
      items.attach.mapM (f ∘ Subtype.val) := rfl
  rw [composed, ← List.mapM_map, List.attach_map_subtype_val]

theorem readFrom_group {connective : Connective} {others : List Connective}
    (cut : cutFrom [] (Words.ofText text) = (connective :: others, parts))
    (same : ∀ other ∈ others, other = connective) :
    readFrom text =
      (parts.mapM fun part => readFrom (Words.join part)).map (.group connective) := by
  rw [readFrom]
  split
  · next one =>
    rw [cut] at one
    cases one
  · next several =>
    rw [cut] at several
    cases several
    rw [if_pos (by simpa using same)]
    rw [mapM_attach parts fun part => readFrom (Words.join part)]

end

end Reading

end WhereClause
