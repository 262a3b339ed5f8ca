import Mathlib.Data.List.Infix
import Mathlib.Data.List.TakeWhile
import WhereClause.Proofs.LastWrites
import WhereClause.Query.Text
import WhereClause.Settings

/-! The values of parameters put into a text one after the other, against all of them at once. A
token is a colon and the longest name behind it. Main statement: longer names first, each round
replaces just the tokens of its own name, provided that no bound name begins a token that is not
bound and that no value brings a placeholder with it. A text of which this is not so is not spoken
of. -/
namespace WhereClause

open Settings (isNameChar)

namespace Query

/-- What stands for a token: the value of its name between double quotes, or the token itself where
the name is not bound. -/
def tokenText (bound : List (String × Value)) (name : List Char) : List Char :=
  match Entries.find? (String.ofList name) bound with
  | some value => '"' :: value.display.toList ++ ['"']
  | none => ':' :: name

/-- A text with all its tokens substituted at once. -/
def substituted (bound : List (String × Value)) : List Char → List Char
  | [] => []
  | c :: rest =>
    if c = ':' then
      tokenText bound (rest.takeWhile isNameChar) ++ substituted bound (rest.dropWhile isNameChar)
    else c :: substituted bound rest
termination_by text => text.length
decreasing_by
  · exact Nat.lt_succ_of_le (List.dropWhile_sublist _).length_le
  · exact Nat.lt_succ_self _

def IsName (name : String) : Prop := name ≠ "" ∧ ∀ c ∈ name.toList, isNameChar c = true

/-- Whether names stand in a text only where a token of one of them starts. -/
def TokensKnown (names : List String) (text : List Char) : Prop :=
  ∀ after, ':' :: after <:+ text → ∀ name ∈ names, name.toList <+: after →
    String.ofList (after.takeWhile isNameChar) ∈ names

/-- Whether parameters can be put into a text one after the other: their names are names, each of
them stands behind a colon only where a token of a parameter starts, and no value has one of them
behind a colon. -/
structure Substitutable (parameters : List (String × Value)) (text : List Char) : Prop where
  isName : ∀ name ∈ Entries.names parameters, IsName name
  tokens : TokensKnown (Entries.names parameters) text
  values : ∀ entry ∈ parameters, ∀ name ∈ Entries.names parameters,
    ¬(placeholder name).chars <:+: entry.2.display.toList

instance (name : String) : Decidable (IsName name) :=
  decidable_of_iff (name ≠ "" ∧ name.toList.all isNameChar = true) (by rw [List.all_eq_true, IsName])

instance (names : List String) (text : List Char) : Decidable (TokensKnown names text) :=
  decidable_of_iff
    (∀ left ∈ text.tails, left.head? = some ':' → ∀ name ∈ names, name.toList <+: left.tail →
      String.ofList (left.tail.takeWhile isNameChar) ∈ names)
    ⟨fun h after within => h (':' :: after) ((List.mem_tails _ _).2 within) rfl,
      fun h left within starts => by
        obtain ⟨after, rfl⟩ := List.head?_eq_some_iff.1 starts
        exact h after ((List.mem_tails _ _).1 within)⟩

instance (parameters : List (String × Value)) (text : List Char) :
    Decidable (Substitutable parameters text) :=
  decidable_of_iff
    ((∀ name ∈ Entries.names parameters, IsName name) ∧
      TokensKnown (Entries.names parameters) text ∧
      ∀ entry ∈ parameters, ∀ name ∈ Entries.names parameters,
        ¬(placeholder name).chars <:+: entry.2.display.toList)
    ⟨fun ⟨isName, tokens, values⟩ => ⟨isName, tokens, values⟩,
      fun h => ⟨h.isName, h.tokens, h.values⟩⟩

section

variable {bound : List (String × Value)} {text : List Char}

theorem tokenText_of_not_mem {name : List Char} (h : String.ofList name ∉ Entries.names bound) :
    tokenText bound name = ':' :: name := by
  rw [tokenText, Entries.find?_eq_none_iff.2 h]

theorem tokenText_cons_of_eq {name : String} {token : List Char} (h : name = String.ofList token)
    (value : Value) :
    tokenText ((name, value) :: bound) token = '"' :: value.display.toList ++ ['"'] := by
  rw [tokenText, Entries.find?, if_pos h]

theorem tokenText_cons_of_ne {name : String} {token : List Char} (h : name ≠ String.ofList token)
    (value : Value) : tokenText ((name, value) :: bound) token = tokenText bound token := by
  rw [tokenText, Entries.find?, if_neg h, tokenText]

theorem substituted_colon (rest : List Char) :
    substituted bound (':' :: rest) =
      tokenText bound (rest.takeWhile isNameChar) ++
        substituted bound (rest.dropWhile isNameChar) := by
  rw [substituted, if_pos rfl]

theorem substituted_cons {c : Char} (h : c ≠ ':') (rest : List Char) :
    substituted bound (c :: rest) = c :: substituted bound rest := by
  rw [substituted, if_neg h]

theorem substituted_nil (text : List Char) : substituted [] text = text := by
  fun_induction substituted [] text with
  | case1 => rfl
  | case2 rest ih =>
    rw [ih, tokenText_of_not_mem List.not_mem_nil, List.cons_append, List.takeWhile_append_dropWhile]
  | case3 c rest apart ih => rw [ih]

theorem takeWhile_substituted (bound : List (String × Value)) (text : List Char) :
    (substituted bound text).takeWhile isNameChar = text.takeWhile isNameChar := by
  fun_induction substituted bound text with
  | case1 => rfl
  | case2 rest ih =>
    have starts : ∀ name, (tokenText bound name ++ substituted bound
        (rest.dropWhile isNameChar)).takeWhile isNameChar = [] := by
      intro name
      unfold tokenText
      split <;> rfl
    rw [starts]
    rfl
  | case3 c rest apart ih => rw [List.takeWhile_cons, List.takeWhile_cons, ih]

theorem prefix_takeWhile {name : List Char} (chars : ∀ c ∈ name, isNameChar c = true)
    (h : name <+: text) : name <+: text.takeWhile isNameChar := by
  obtain ⟨more, rfl⟩ := h
  rw [List.takeWhile_append_of_pos chars]
  exact List.prefix_append _ _

theorem prefix_of_prefix_append {sought rest : List Char} {c : Char} (absent : c ∉ sought)
    (h : sought <+: text ++ c :: rest) : sought <+: text := by
  obtain ⟨more, same⟩ := h
  rcases List.append_eq_append_iff.1 same with ⟨left, rfl, -⟩ | ⟨left, rfl, behind⟩
  · exact List.prefix_append sought left
  · cases left with
    | nil => rw [List.append_nil]
    | cons d left =>
      obtain ⟨rfl, -⟩ := List.cons.inj behind
      exact absurd (List.mem_append_right text List.mem_cons_self) absent

variable {name : String} {value : Value}

theorem placeholder_chars (name : String) : (placeholder name).chars = ':' :: name.toList := rfl

theorem placeholder_prefix_cons {c : Char} {rest : List Char} :
    (placeholder name).chars <+: c :: rest ↔ c = ':' ∧ name.toList <+: rest := by
  rw [placeholder_chars, List.cons_prefix_cons, eq_comm]

theorem inline_cons {c : Char} (h : c ≠ ':') (rest : List Char) :
    inline (c :: rest) (name, value) = c :: inline rest (name, value) :=
  Text.replaceAll_cons _ fun begins => h (placeholder_prefix_cons.1 begins).1

theorem inline_append_value {other : Value} (chars : ∀ c ∈ name.toList, isNameChar c = true)
    (clean : ¬(placeholder name).chars <:+: other.display.toList) (rest : List Char) :
    inline ('"' :: other.display.toList ++ ['"'] ++ rest) (name, value) =
      '"' :: other.display.toList ++ ['"'] ++ inline rest (name, value) := by
  refine Text.replaceAll_append _ fun left within nonempty begins => ?_
  obtain rfl | ⟨front, rfl, inFront⟩ := List.suffix_concat_iff.1 within
  · exact nonempty rfl
  have noQuote : '"' ∉ (placeholder name).chars := by
    intro among
    rcases List.mem_cons.1 among with colon | inName
    · cases colon
    · cases chars _ inName
  rw [List.append_assoc, List.singleton_append] at begins
  have found := (prefix_of_prefix_append noQuote begins).isInfix.trans inFront.isInfix
  rcases List.infix_cons_iff.1 found with atQuote | inValue
  · cases (placeholder_prefix_cons.1 atQuote).1
  · exact clean inValue

theorem inline_append_token {token rest : List Char}
    (chars : ∀ c ∈ name.toList, isNameChar c = true)
    (tokenChars : ∀ c ∈ token, isNameChar c = true) (ends : rest.takeWhile isNameChar = [])
    (apart : ¬name.toList <+: token) :
    inline (':' :: token ++ rest) (name, value) = ':' :: token ++ inline rest (name, value) := by
  refine Text.replaceAll_append _ fun left within nonempty begins => ?_
  rcases List.suffix_cons_iff.1 within with rfl | inToken
  · have behind : name.toList <+: (token ++ rest).takeWhile isNameChar :=
      prefix_takeWhile chars (placeholder_prefix_cons.1 begins).2
    rw [List.takeWhile_append_of_pos tokenChars, ends, List.append_nil] at behind
    exact apart behind
  · cases left with
    | nil => exact nonempty rfl
    | cons c left =>
      have isColon := (placeholder_prefix_cons.1 begins).1
      cases isColon ▸ tokenChars c (inToken.mem List.mem_cons_self)

theorem inline_token {token rest : List Char} (isName : IsName name)
    (new : name ∉ Entries.names bound)
    (clean : ∀ entry ∈ bound, ¬(placeholder name).chars <:+: entry.2.display.toList)
    (tokenChars : ∀ c ∈ token, isNameChar c = true) (ends : rest.takeWhile isNameChar = [])
    (known : name.toList <+: token →
      String.ofList token = name ∨ String.ofList token ∈ Entries.names bound) :
    inline (tokenText bound token ++ rest) (name, value) =
      tokenText ((name, value) :: bound) token ++ inline rest (name, value) := by
  cases found : Entries.find? (String.ofList token) bound with
  | some other =>
    have apart : name ≠ String.ofList token := by
      rintro rfl
      rw [Entries.find?_eq_none_iff.2 new] at found
      cases found
    rw [tokenText_cons_of_ne apart, tokenText, found]
    exact inline_append_value isName.2 (clean _ (Entries.mem_of_find? found)) rest
  | none =>
    have notBefore := Entries.find?_eq_none_iff.1 found
    have unbound := tokenText_of_not_mem notBefore
    by_cases own : name = String.ofList token
    · have sought : ':' :: token = (placeholder name).chars := by
        rw [placeholder_chars, own, String.toList_ofList]
      rw [unbound, tokenText_cons_of_eq own, sought]
      exact Text.replaceAll_of_isPrefix _
    · rw [unbound, tokenText_cons_of_ne own, unbound]
      refine inline_append_token isName.2 tokenChars ends fun begins => ?_
      exact (known begins).elim (fun same => own same.symm) notBefore

theorem inline_substituted (isName : IsName name) (new : name ∉ Entries.names bound)
    (clean : ∀ entry ∈ bound, ¬(placeholder name).chars <:+: entry.2.display.toList)
    (known : ∀ after, ':' :: after <:+ text → name.toList <+: after →
      String.ofList (after.takeWhile isNameChar) = name ∨
        String.ofList (after.takeWhile isNameChar) ∈ Entries.names bound) :
    inline (substituted bound text) (name, value) = substituted ((name, value) :: bound) text := by
  fun_induction substituted bound text with
  | case1 =>
    rw [substituted]
    exact Text.replaceAll_nil _
  | case2 rest ih =>
    have later := ih fun after within =>
      known after ((within.trans (List.dropWhile_suffix _)).trans (List.suffix_cons _ _))
    have ends : (substituted bound (rest.dropWhile isNameChar)).takeWhile isNameChar = [] := by
      rw [takeWhile_substituted, List.takeWhile_eq_nil_iff]
      exact List.dropWhile_get_zero_not isNameChar rest
    rw [substituted_colon, ← later]
    refine inline_token isName new clean (fun c => List.mem_takeWhile_imp) ends fun begins => ?_
    exact known rest (List.suffix_refl _) (begins.trans (List.takeWhile_prefix _))
  | case3 c rest apart ih =>
    have later := ih fun after within => known after (within.trans (List.suffix_cons c rest))
    rw [substituted_cons apart, inline_cons apart, later]

end

def IsLongestFirst (parameters : List (String × Value)) : Prop :=
  parameters.Pairwise fun left right => right.1.utf8ByteSize ≤ left.1.utf8ByteSize

theorem eq_of_prefix_of_size_le {name other : String} (begins : name.toList <+: other.toList)
    (h : other.utf8ByteSize ≤ name.utf8ByteSize) : other = name := by
  obtain ⟨more, same⟩ := begins
  have whole : other = name ++ String.ofList more := by
    apply String.toList_injective
    rw [String.toList_append, String.toList_ofList, same]
  rw [whole, String.utf8ByteSize_append] at h
  have empty : String.ofList more = "" := String.utf8ByteSize_eq_zero_iff.1 (by omega)
  rw [whole, empty, String.append_empty]

section

variable {parameters : List (String × Value)} {text : List Char}

theorem substituted_congr {bound other : List (String × Value)}
    (same : ∀ name, Entries.find? name bound = Entries.find? name other) (text : List Char) :
    substituted bound text = substituted other text := by
  fun_induction substituted bound text with
  | case1 => rw [substituted]
  | case2 rest ih => rw [substituted_colon, ← ih, tokenText, tokenText, same]
  | case3 c rest apart ih => rw [substituted_cons apart, ← ih]

theorem Substitutable.perm {other : List (String × Value)} (h : Substitutable parameters text)
    (perm : other.Perm parameters) : Substitutable other text := by
  have names : ∀ name, name ∈ Entries.names other ↔ name ∈ Entries.names parameters :=
    fun name => (perm.map Prod.fst).mem_iff
  refine ⟨fun name among => h.isName name ((names name).1 among), ?_, ?_⟩
  · intro after within name among begins
    exact (names _).2 (h.tokens after within name ((names name).1 among) begins)
  · intro entry among name nameAmong
    exact h.values entry (perm.mem_iff.1 among) name ((names name).1 nameAmong)

theorem not_mem_names_before (distinct : (Entries.names parameters).Nodup)
    {before after : List (String × Value)} {name : String} {value : Value}
    (split : parameters = before ++ (name, value) :: after) : name ∉ Entries.names before := by
  rw [split, Entries.names, List.map_append, List.nodup_append] at distinct
  exact fun known => distinct.2.2 name known name List.mem_cons_self rfl

theorem mem_names_before (sorted : IsLongestFirst parameters)
    {before after : List (String × Value)} {name other : String} {value : Value}
    (split : parameters = before ++ (name, value) :: after)
    (among : other ∈ Entries.names parameters) (begins : name.toList <+: other.toList) :
    other = name ∨ other ∈ Entries.names before := by
  obtain ⟨entry, inAll, rfl⟩ := List.mem_map.1 among
  rw [split, List.mem_append, List.mem_cons] at inAll
  rw [IsLongestFirst, split, List.pairwise_append, List.pairwise_cons] at sorted
  rcases inAll with earlier | rfl | later
  · exact Or.inr (List.mem_map_of_mem earlier)
  · exact Or.inl rfl
  · exact Or.inl (eq_of_prefix_of_size_le begins (sorted.2.1.1 entry later))

theorem foldl_inline (h : Substitutable parameters text)
    (distinct : (Entries.names parameters).Nodup) (sorted : IsLongestFirst parameters)
    {before after : List (String × Value)} (split : parameters = before ++ after) :
    after.foldl inline (substituted before.reverse text) =
      substituted parameters.reverse text := by
  induction after generalizing before with
  | nil => rw [split, List.append_nil, List.foldl_nil]
  | cons entry after ih =>
    obtain ⟨name, value⟩ := entry
    have here : name ∈ Entries.names parameters := by
      rw [split, Entries.names, List.map_append]
      exact List.mem_append_right _ List.mem_cons_self
    have names_before : ∀ other,
        other ∈ Entries.names before.reverse ↔ other ∈ Entries.names before := by
      intro other
      rw [Entries.names_reverse, List.mem_reverse]
    have round : inline (substituted before.reverse text) (name, value) =
        substituted ((name, value) :: before.reverse) text := by
      refine inline_substituted (h.isName name here) ?_ ?_ ?_
      · exact mt (names_before name).1 (not_mem_names_before distinct split)
      · intro entry among
        refine h.values entry ?_ name here
        rw [split]
        exact List.mem_append_left _ (List.mem_reverse.1 among)
      · intro after within begins
        have token := h.tokens after within name here begins
        rw [names_before]
        refine mem_names_before sorted split token ?_
        rw [String.toList_ofList]
        exact prefix_takeWhile (h.isName name here).2 begins
    have next : after.foldl inline (substituted (before ++ [(name, value)]).reverse text) =
        substituted parameters.reverse text :=
      ih (by rw [split, List.append_assoc, List.singleton_append])
    rw [List.foldl_cons, round, ← next, List.reverse_concat]

theorem isLongestFirst_longestFirst (parameters : List (String × Value)) :
    IsLongestFirst (longestFirst parameters) := by
  have sorted : (longestFirst parameters).Pairwise fun left right =>
      decide (right.1.utf8ByteSize ≤ left.1.utf8ByteSize) = true := by
    refine List.pairwise_mergeSort (fun a b c ab bc => ?_) (fun a b => ?_) parameters
    · exact decide_eq_true (Nat.le_trans (of_decide_eq_true bc) (of_decide_eq_true ab))
    · rw [Bool.or_eq_true, decide_eq_true_iff, decide_eq_true_iff]
      exact Nat.le_total _ _
  exact sorted.imp of_decide_eq_true

/-- Putting the values of the parameters into the text of a query one after the other, longer names
first, is substituting all its tokens at once: each token whose name is bound gives way to the value
between double quotes, and nothing else changes. -/
theorem inlinedText_eq_substituted (query : Query)
    (h : Substitutable query.parameters.entries query.text.toList) :
    query.inlinedText =
      String.ofList (substituted query.parameters.entries query.text.toList) := by
  have perm : (longestFirst query.parameters.entries).Perm query.parameters.entries :=
    List.mergeSort_perm _ _
  have distinct : (Entries.names (longestFirst query.parameters.entries)).Nodup :=
    (perm.map Prod.fst).nodup_iff.2 query.parameters.nodup_names
  have rounds := foldl_inline (h.perm perm) distinct (isLongestFirst_longestFirst _)
    (List.nil_append _).symm
  rw [List.reverse_nil, substituted_nil] at rounds
  have inOrder := Entries.find?_perm ((List.reverse_perm _).trans perm).symm
    query.parameters.nodup_names
  rw [inlinedText, rounds, ← substituted_congr inOrder]

end

theorem inlinedText_eq_substituted_prefix :
    let query : Query :=
      { roots := [⟨"test", "t"⟩]
        condition := some (.group .and [.comparison "t.a" "=" ":f1", .comparison "t.b" "=" ":f12",
          .comparison "t.c" "=" "::g"])
        parameters := Table.ofList [("f1", .text "2:\""), ("f12", .text "f1:")] }
    Substitutable query.parameters.entries query.text.toList ∧
      query.inlinedText =
        "SELECT t FROM test t WHERE t.a = \"2:\"\" AND t.b = \"f1:\" AND t.c = ::g" := by
  intro query
  have text : query.text.toList =
      "SELECT t FROM test t WHERE t.a = :f1 AND t.b = :f12 AND t.c = ::g".toList := by decide +kernel
  have ready : Substitutable query.parameters.entries query.text.toList := by
    rw [text]
    decide +kernel
  exact ⟨ready, (query.inlinedText_eq_substituted ready).trans (by decide +kernel)⟩

end Query

end WhereClause
