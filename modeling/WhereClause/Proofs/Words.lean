import WhereClause.Proofs.Search
import WhereClause.Value

/-! The words of a text: what stands between blanks outside parentheses and quotes. A pass through a
text from one place to another says that all of it belongs to one word, whatever follows; passes are
put one behind the other, and with them the words of a composed text are read off its pieces. -/
namespace WhereClause

structure Place where
  depth : Nat
  quote? : Option Char

namespace Place

def outside : Place := ⟨0, none⟩

def isOutside (place : Place) : Bool := place.depth = 0 && place.quote? = none

def next (place : Place) (c : Char) : Place :=
  match place.quote? with
  | some quote => if c = quote then ⟨place.depth, none⟩ else place
  | none =>
    if c = '\'' ∨ c = '"' then ⟨place.depth, some c⟩
    else if c = '(' then ⟨place.depth + 1, none⟩
    else if c = ')' then ⟨place.depth - 1, none⟩
    else place

end Place

namespace Words

def isPlain (c : Char) : Bool :=
  c ≠ ' ' && c ≠ '\'' && c ≠ '"' && c ≠ '(' && c ≠ ')'

def wordsFrom (place : Place) : List Char → List (List Char)
  | [] => [[]]
  | c :: rest =>
    if c = ' ' ∧ place.isOutside then [] :: wordsFrom place rest
    else (wordsFrom (place.next c) rest).modifyHead (c :: ·)

def ofText (text : List Char) : List (List Char) := wordsFrom .outside text

def join (words : List (List Char)) : List Char := [' '].intercalate words

/-- Whether a text belongs to one word and leads from a place to another. -/
def Passes (place after : Place) (text : List Char) : Prop :=
  ∀ rest, wordsFrom place (text ++ rest) = (wordsFrom after rest).modifyHead (text ++ ·)

/-- Whether a text belongs to one word and leaves as many parentheses open as there were, if at
least so many were. -/
def Balanced (least : Nat) (text : List Char) : Prop :=
  ∀ depth, least ≤ depth → Passes ⟨depth, none⟩ ⟨depth, none⟩ text

section

variable {place middle after : Place} {text more : List Char} {least : Nat}

theorem Passes.nil : Passes place place [] := by
  intro rest
  rw [List.nil_append]
  cases wordsFrom place rest <;> rfl

theorem Passes.append (first : Passes place middle text) (second : Passes middle after more) :
    Passes place after (text ++ more) := by
  intro rest
  rw [List.append_assoc, first, second, List.modifyHead_modifyHead]
  congr 1
  funext word
  exact (List.append_assoc text more word).symm

theorem Passes.cons {c : Char} (first : Passes place middle [c])
    (second : Passes middle after text) : Passes place after (c :: text) :=
  first.append second

theorem passes_char (place : Place) {c : Char} (h : c = ' ' → place.isOutside = false) :
    Passes place (place.next c) [c] := by
  intro rest
  have inWord : ¬(c = ' ' ∧ place.isOutside = true) := by
    rintro ⟨blank, outside⟩
    rw [h blank] at outside
    cases outside
  rw [List.singleton_append, wordsFrom, if_neg inWord]
  rfl

theorem passes_flatMap {piece : Char → List Char}
    (h : ∀ c ∈ text, Passes place place (piece c)) : Passes place place (text.flatMap piece) := by
  induction text with
  | nil => exact Passes.nil
  | cons c rest ih =>
    obtain ⟨first, later⟩ := List.forall_mem_cons.1 h
    rw [List.flatMap_cons]
    exact first.append (ih later)

theorem Balanced.mono {other : Nat} (h : Balanced least text) (le : least ≤ other) :
    Balanced other text :=
  fun depth atLeast => h depth (Nat.le_trans le atLeast)

theorem Balanced.append (first : Balanced least text) (second : Balanced least more) :
    Balanced least (text ++ more) :=
  fun depth atLeast => (first depth atLeast).append (second depth atLeast)

theorem balanced_intercalate {separator : List Char} {pieces : List (List Char)}
    (between : Balanced least separator) (h : ∀ piece ∈ pieces, Balanced least piece) :
    Balanced least (separator.intercalate pieces) := by
  induction pieces with
  | nil => exact fun _ _ => Passes.nil
  | cons piece rest ih =>
    obtain ⟨first, later⟩ := List.forall_mem_cons.1 h
    cases rest with
    | nil => rwa [List.intercalate_singleton]
    | cons second more =>
      rw [List.intercalate_cons_cons]
      exact (first.append between).append (ih later)

theorem next_plain {c : Char} {depth : Nat} (h : isPlain c = true) :
    Place.next ⟨depth, none⟩ c = ⟨depth, none⟩ := by
  simp only [isPlain, Bool.and_eq_true, decide_eq_true_eq, ne_eq] at h
  simp [Place.next, h]

theorem balanced_plain (h : ∀ c ∈ text, isPlain c = true) : Balanced 0 text := by
  intro depth _
  induction text with
  | nil => exact Passes.nil
  | cons c rest ih =>
    obtain ⟨first, later⟩ := List.forall_mem_cons.1 h
    have notBlank : c ≠ ' ' := by
      rintro rfl
      cases first
    have here := passes_char ⟨depth, none⟩ fun blank => absurd blank notBlank
    rw [next_plain first] at here
    exact here.cons (ih later)

theorem balanced_blank : Balanced 1 [' '] := by
  intro depth atLeast
  refine passes_char _ fun _ => ?_
  simp only [Place.isOutside, Bool.and_eq_false_iff, decide_eq_false_iff_not]
  exact Or.inl (by omega)

theorem balanced_parenthesised (h : Balanced 1 text) : Balanced 0 ('(' :: (text ++ [')'])) := by
  intro depth _
  have opens : Passes ⟨depth, none⟩ ⟨depth + 1, none⟩ ['('] :=
    passes_char _ fun blank => by cases blank
  have closes : Passes ⟨depth + 1, none⟩ ⟨depth, none⟩ [')'] :=
    passes_char _ fun blank => by cases blank
  exact opens.cons ((h (depth + 1) (by omega)).append closes)

theorem balanced_quoted {quote : Char} (isQuote : quote = '\'' ∨ quote = '"')
    (inside : ∀ depth, Passes ⟨depth, some quote⟩ ⟨depth, some quote⟩ text) :
    Balanced 0 (quote :: (text ++ [quote])) := by
  intro depth _
  have notBlank : quote ≠ ' ' := by
    rcases isQuote with rfl | rfl <;> decide
  have opens : Passes ⟨depth, none⟩ ⟨depth, some quote⟩ [quote] := by
    have here := passes_char ⟨depth, none⟩ fun blank => absurd blank notBlank
    simpa [Place.next, isQuote] using here
  have closes : Passes ⟨depth, some quote⟩ ⟨depth, none⟩ [quote] := by
    have here := passes_char ⟨depth, some quote⟩ fun blank => absurd blank notBlank
    simpa [Place.next] using here
  exact opens.cons ((inside depth).append closes)

theorem passes_in_quote {quote c : Char} {depth : Nat} (h : c ≠ quote) :
    Passes ⟨depth, some quote⟩ ⟨depth, some quote⟩ [c] := by
  have inQuote : Place.isOutside ⟨depth, some quote⟩ = false := by simp [Place.isOutside]
  have here : Passes ⟨depth, some quote⟩ (Place.next ⟨depth, some quote⟩ c) [c] :=
    passes_char _ fun _ => inQuote
  simpa [Place.next, h] using here

theorem wordsFrom_ne_nil (place : Place) (text : List Char) : wordsFrom place text ≠ [] := by
  induction text generalizing place with
  | nil => exact List.cons_ne_nil _ _
  | cons c rest ih =>
    rw [wordsFrom]
    split
    · exact List.cons_ne_nil _ _
    · exact mt List.modifyHead_eq_nil_iff.1 (ih _)

theorem join_cons (word : List Char) {words : List (List Char)} (h : words ≠ []) :
    join (word :: words) = word ++ ' ' :: join words := by
  obtain ⟨second, rest, rfl⟩ := List.exists_cons_of_ne_nil h
  rw [join, join, List.intercalate_cons_cons, List.append_assoc]
  rfl

theorem join_append {words others : List (List Char)} (nonempty : words ≠ [])
    (h : others ≠ []) : join (words ++ others) = join words ++ ' ' :: join others := by
  induction words with
  | nil => exact absurd rfl nonempty
  | cons word rest ih =>
    by_cases last : rest = []
    · rw [last, List.singleton_append, join_cons word h]
      simp [join]
    · rw [List.cons_append, join_cons word (List.append_ne_nil_of_left_ne_nil last _),
        join_cons word last, ih last, List.append_assoc, List.cons_append]

theorem join_modifyHead (c : Char) {words : List (List Char)} (h : words ≠ []) :
    join (words.modifyHead (c :: ·)) = c :: join words := by
  obtain ⟨word, rest, rfl⟩ := List.exists_cons_of_ne_nil h
  rw [List.modifyHead_cons]
  cases rest with
  | nil => simp [join]
  | cons second more =>
    rw [join_cons _ (List.cons_ne_nil _ _), join_cons _ (List.cons_ne_nil _ _), List.cons_append]

theorem join_wordsFrom (place : Place) (text : List Char) :
    join (wordsFrom place text) = text := by
  induction text generalizing place with
  | nil => rfl
  | cons c rest ih =>
    rw [wordsFrom]
    split
    · next ends =>
      rw [join_cons _ (wordsFrom_ne_nil _ _), ih, ends.1]
      rfl
    · rw [join_modifyHead _ (wordsFrom_ne_nil _ _), ih]

theorem join_ofText (text : List Char) : join (ofText text) = text :=
  join_wordsFrom .outside text

theorem ofText_of_balanced (h : Balanced 0 text) : ofText text = [text] := by
  have whole := h 0 (Nat.le_refl 0) []
  rw [List.append_nil] at whole
  rw [ofText, Place.outside, whole, wordsFrom, List.modifyHead_cons, List.append_nil]

theorem ofText_append_blank (h : Balanced 0 text) (rest : List Char) :
    ofText (text ++ ' ' :: rest) = text :: ofText rest := by
  have ends : wordsFrom ⟨0, none⟩ (' ' :: rest) = [] :: wordsFrom ⟨0, none⟩ rest := by
    rw [wordsFrom, if_pos (by simp [Place.isOutside])]
  rw [ofText, Place.outside, h 0 (Nat.le_refl 0), ends, List.modifyHead_cons, List.append_nil]
  rfl

theorem ofText_join {words : List (List Char)} (nonempty : words ≠ [])
    (h : ∀ word ∈ words, Balanced 0 word) : ofText (join words) = words := by
  induction words with
  | nil => exact absurd rfl nonempty
  | cons word rest ih =>
    obtain ⟨first, later⟩ := List.forall_mem_cons.1 h
    by_cases last : rest = []
    · rw [last, join, List.intercalate_singleton, ofText_of_balanced first]
    · rw [join_cons word last, ofText_append_blank first, ih last later]

theorem balanced_of_words (h : ∀ word ∈ ofText text, Balanced 0 word) : Balanced 1 text := by
  rw [← join_ofText text]
  exact balanced_intercalate balanced_blank fun word among => (h word among).mono (by omega)

end

end Words

end WhereClause
