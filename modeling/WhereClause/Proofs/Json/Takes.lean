import WhereClause.Json.Reader

/-! What readers take, apart from the proofs that a text gets no longer: the value taken and the
rest that is left. For the readers of arrays and of documents there is one lemma for each way in
which they go on; readers of scalars take no arrays and no objects, and readers of numbers nothing
but numbers. Faults are not described here. -/
namespace WhereClause.Json

variable {α β : Type}

/-- Whether a reader takes a value off the front of a text and leaves a rest. -/
def Takes (reader : Reader α) (s : List Char) (value : α) (rest : List Char) : Prop :=
  ∃ taken, reader s = .ok taken ∧ taken.value = value ∧ taken.rest = rest

theorem takes_unique {reader : Reader α} {s rest left : List Char} {value other : α}
    (h : Takes reader s value rest) (h' : Takes reader s other left) :
    value = other ∧ rest = left := by
  obtain ⟨taken, took, rfl, rfl⟩ := h
  obtain ⟨again, took', rfl, rfl⟩ := h'
  obtain rfl := Except.ok.inj (took.symm.trans took')
  exact ⟨rfl, rfl⟩

theorem bind_eq_ok {ε : Type} {x : Except ε α} {f : α → Except ε β} {b : β} :
    x >>= f = .ok b ↔ ∃ a, x = .ok a ∧ f a = .ok b := by
  cases x with
  | error => exact ⟨fun h => (by cases h), fun ⟨_, h, _⟩ => (by cases h)⟩
  | ok a => exact ⟨fun h => ⟨a, rfl, h⟩, fun ⟨_, same, h⟩ => Except.ok.inj same ▸ h⟩

theorem bind_eq_error_iff {ε : Type} {x : Except ε α} {f : α → Except ε β} {error : ε} :
    x >>= f = .error error ↔ x = .error error ∨ ∃ a, x = .ok a ∧ f a = .error error := by
  cases x <;> simp [bind, Except.bind]

theorem map_eq_ok {ε : Type} {x : Except ε α} {f : α → β} {b : β} :
    x.map f = .ok b ↔ ∃ a, x = .ok a ∧ f a = b := by
  cases x with
  | error => exact ⟨fun h => (by cases h), fun ⟨_, h, _⟩ => (by cases h)⟩
  | ok a =>
    exact ⟨fun h => ⟨a, rfl, Except.ok.inj h⟩,
      fun ⟨_, same, h⟩ => Except.ok.inj same ▸ congrArg Except.ok h⟩

theorem Takes.length_le {reader : Reader α} {s rest : List Char} {value : α}
    (h : Takes reader s value rest) : rest.length ≤ s.length := by
  obtain ⟨taken, -, -, rfl⟩ := h
  exact taken.length_le

theorem takes_of_map {reader : Reader α} {wider : Reader β} {s r rest : List Char} {value : α}
    {change : Taken α r → Taken β s} {f : α → β} (same : wider s = (reader r).map change)
    (values : ∀ taken, (change taken).value = f taken.value)
    (rests : ∀ taken, (change taken).rest = taken.rest) (h : Takes reader r value rest) :
    Takes wider s (f value) rest := by
  obtain ⟨taken, took, rfl, rfl⟩ := h
  exact ⟨change taken, by rw [same, took]; rfl, values taken, rests taken⟩

theorem skipBlanks_cons {c : Char} (h : isBlank c = false) (rest : List Char) :
    skipBlanks (c :: rest) = c :: rest :=
  List.dropWhile_cons_of_neg (Bool.eq_false_iff.1 h)

section Arrays

variable {item : Reader α} {s left after next rest : List Char} {first : α} {items : List α}
  {c : Char}

theorem takes_items_last (h : Takes item s first left) (close : skipBlanks left = ']' :: rest) :
    Takes (takeItems item) s [first] rest := by
  obtain ⟨taken, took, rfl, rfl⟩ := h
  rw [Takes, takeItems, took]
  simp only [bind, Except.bind]
  split
  · next ended => cases close.symm.trans ended
  · next started =>
    cases close.symm.trans started
    exact ⟨_, if_pos rfl, rfl, rfl⟩

theorem takes_items_more (h : Takes item s first left) (comma : skipBlanks left = ',' :: after)
    (start : skipBlanks after = c :: next) (goesOn : c ≠ ']')
    (later : Takes (takeItems item) (c :: next) items rest) :
    Takes (takeItems item) s (first :: items) rest := by
  obtain ⟨taken, took, rfl, rfl⟩ := h
  obtain ⟨more, took', rfl, rfl⟩ := later
  rw [Takes, takeItems, took]
  simp only [bind, Except.bind]
  split
  · next ended => cases comma.symm.trans ended
  · next started =>
    cases comma.symm.trans started
    rw [if_neg (by decide), if_pos rfl]
    split
    · next ended => cases start.symm.trans ended
    · next started =>
      cases start.symm.trans started
      rw [if_neg goesOn, took']
      exact ⟨_, rfl, rfl, rfl⟩

theorem takes_array_empty (close : skipBlanks s = ']' :: rest) :
    Takes (takeArray item) s [] rest := by
  rw [Takes, takeArray]
  split
  · next ended => cases close.symm.trans ended
  · next started =>
    cases close.symm.trans started
    exact ⟨_, if_pos rfl, rfl, rfl⟩

theorem takes_array (start : skipBlanks s = c :: next) (goesOn : c ≠ ']')
    (h : Takes (takeItems item) (c :: next) items rest) : Takes (takeArray item) s items rest := by
  have same : takeArray item s = (takeItems item (c :: next)).map (.afterBlanks start) := by
    rw [takeArray]
    split
    · next ended => cases start.symm.trans ended
    · next started =>
      cases start.symm.trans started
      exact if_neg goesOn
  exact takes_of_map (f := id) same (fun _ => rfl) (fun _ => rfl) h

end Arrays

section Nested

variable {s next rest : List Char} {document : Json} {inner : Option (Reader Json)} {c : Char}

theorem takes_nested_array {item : Reader Json} {items : List Json}
    (start : skipBlanks s = '[' :: next) (h : Takes (takeArray item) next items rest) :
    Takes (takeNested (some item)) s (.array items) rest := by
  have same : takeNested (some item) s =
      (takeArray item next).map fun t => ((t.map array).behind '[').afterBlanks start := by
    rw [takeNested]
    split
    · next ended => cases start.symm.trans ended
    · next started =>
      cases start.symm.trans started
      exact if_pos rfl
  exact takes_of_map same (fun _ => rfl) (fun _ => rfl) h

theorem takes_nested_scalar (start : skipBlanks s = c :: next) (array : c ≠ '[')
    (object : c ≠ '\x7b') (h : Takes takeScalar (c :: next) document rest) :
    Takes (takeNested inner) s document rest := by
  have same : takeNested inner s = (takeScalar (c :: next)).map (.afterBlanks start) := by
    rw [takeNested]
    split
    · next ended => cases start.symm.trans ended
    · next started =>
      cases start.symm.trans started
      rw [if_neg array, if_neg object]
  exact takes_of_map (f := id) same (fun _ => rfl) (fun _ => rfl) h

end Nested

section Scalars

def isNested : Json → Bool
  | array _ | object _ => true
  | _ => false

def isNumber : Json → Bool
  | int _ | float _ => true
  | _ => false

def TakesScalars (reader : Reader Json) : Prop :=
  ∀ s taken, reader s = .ok taken → taken.value.isNested = false

def TakesNumbers (reader : Reader Json) : Prop :=
  ∀ s taken, reader s = .ok taken → taken.value.isNumber = true

theorem isNested_of_isNumber {document : Json} (h : document.isNumber = true) :
    document.isNested = false := by
  cases document <;> first | rfl | cases h

theorem TakesNumbers.of_map {reader : Reader Json} (h : TakesNumbers reader) {s r : List Char}
    {change : Taken Json r → Taken Json s} {taken : Taken Json s}
    (took : (reader r).map change = .ok taken)
    (values : ∀ inner, (change inner).value = inner.value) : taken.value.isNumber = true := by
  obtain ⟨inner, read, rfl⟩ := map_eq_ok.1 took
  rw [values]
  exact h r inner read

variable {negative down : Bool} {word dropped : Nat} {exponent : Int}

theorem takesNumbers_takeFloat : TakesNumbers (takeFloat negative word exponent) := by
  intro s taken took
  rw [takeFloat] at took
  split at took <;> cases took
  rfl

theorem takesNumbers_takeExponentDigits :
    TakesNumbers (takeExponentDigits negative word exponent down) := by
  have finish : ∀ {s taken done},
      takeExponentDigits.finish negative word exponent down s taken = .ok done →
        done.value.isNumber = true :=
    fun h => takesNumbers_takeFloat.of_map h fun _ => rfl
  intro s taken took
  rw [takeExponentDigits] at took
  split at took
  · exact finish took
  · split at took
    · split at took <;> cases took
      rfl
    · exact finish took

theorem takesNumbers_takeExponent : TakesNumbers (takeExponent negative word exponent) := by
  intro s taken took
  unfold takeExponent at took
  split at took
  · cases took
  split at took
  · split at took
    · cases took
    split at took
    · exact takesNumbers_takeExponentDigits.of_map took fun _ => rfl
    · cases took
  split at took
  · exact takesNumbers_takeExponentDigits _ _ took
  · cases took

theorem takesNumbers_takeScale : TakesNumbers (takeScale negative word exponent) := by
  intro s taken took
  unfold takeScale at took
  split at took
  · exact takesNumbers_takeFloat _ _ took
  split at took
  · exact takesNumbers_takeExponent.of_map took fun _ => rfl
  · exact takesNumbers_takeFloat _ _ took

theorem takesNumbers_takeFraction : TakesNumbers (takeFraction negative word dropped) := by
  intro s taken took
  unfold takeFraction at took
  dsimp only at took
  split at took
  · split at took <;> cases took
  · exact takesNumbers_takeScale.of_map took fun _ => rfl

theorem isNumber_integer : (integer negative word).isNumber = true := by
  unfold integer
  split
  · rfl
  · split <;> rfl

theorem takesNumbers_takeTail : TakesNumbers (takeTail negative word dropped) := by
  have whole : ∀ {s taken}, takeTail.takeWhole negative word dropped s = .ok taken →
      taken.value.isNumber = true := by
    intro s taken took
    rw [takeTail.takeWhole] at took
    split at took
    · cases took
      exact isNumber_integer
    · exact takesNumbers_takeFloat _ _ took
  intro s taken took
  unfold takeTail at took
  split at took
  · exact whole took
  split at took
  · exact takesNumbers_takeFraction.of_map took fun _ => rfl
  split at took
  · exact takesNumbers_takeScale _ _ took
  · exact whole took

theorem takesNumbers_takeNumber : TakesNumbers (takeNumber negative) := by
  intro s taken took
  unfold takeNumber at took
  split at took
  · cases took
  split at took
  · split at took
    · cases took
    · exact takesNumbers_takeTail.of_map took fun _ => rfl
  split at took
  · exact takesNumbers_takeTail.of_map took fun _ => rfl
  · cases took

theorem takesScalars_takeScalar : TakesScalars takeScalar := by
  intro s taken took
  unfold takeScalar at took
  split at took
  · cases took
  iterate 4
    split at took
    · obtain ⟨_, -, rfl⟩ := map_eq_ok.1 took
      rfl
  split at took
  · exact isNested_of_isNumber (takesNumbers_takeNumber.of_map took fun _ => rfl)
  split at took
  · exact isNested_of_isNumber (takesNumbers_takeNumber _ _ took)
  · cases took

end Scalars

end WhereClause.Json
