import WhereClause.Json.Reader
import WhereClause.Proofs.Json.Objects

/-! Readers of documents of a known kind. Each takes what the reader of all documents takes where
that is of its kind, and nothing else. -/
namespace WhereClause.Json

variable {α : Type} {s next rest : List Char} {document : Json} {text : String} {c : Char}

theorem takes_value_scalar_iff (depth : Nat) (scalar : document.isNested = false) :
    Takes (takeValue depth) s document rest ↔
      ∃ c next, skipBlanks s = c :: next ∧ c ≠ '[' ∧ c ≠ '\x7b' ∧
        Takes takeScalar (c :: next) document rest := by
  constructor
  · intro h
    have nested : ∃ inner, Takes (takeNested inner) s document rest := by
      cases depth with
      | zero => exact ⟨_, h⟩
      | succ depth => exact ⟨_, h⟩
    obtain ⟨inner, taken, took, rfl, rfl⟩ := nested
    rw [takeNested] at took
    split at took
    · cases took
    next start =>
    split at took
    · split at took
      · cases took
      · obtain ⟨array, -, rfl⟩ := map_eq_ok.1 took
        cases scalar
    next array =>
    split at took
    · split at took
      · cases took
      · obtain ⟨object, -, rfl⟩ := map_eq_ok.1 took
        cases scalar
    next object =>
    obtain ⟨found, took_scalar, rfl⟩ := map_eq_ok.1 took
    exact ⟨_, _, start, array, object, found, took_scalar, rfl, rfl⟩
  · rintro ⟨c, next, start, array, object, h⟩
    cases depth <;> exact takes_nested_scalar start array object h

theorem takes_accepted_iff {expected : String} {accept : Json → Except Cause α} {value : α}
    (kind : α → Json) (depth : Nat)
    (accepts : ∀ document value, accept document = .ok value ↔ document = kind value)
    (scalar : ∀ value, (kind value).isNested = false) :
    Takes (takeAccepted expected accept) s value rest ↔
      Takes (takeValue depth) s (kind value) rest := by
  rw [takes_value_scalar_iff depth (scalar value)]
  constructor
  · rintro ⟨taken, took, rfl, rfl⟩
    rw [takeAccepted] at took
    split at took
    · cases took
    next start =>
    split at took
    · cases took
    next opens =>
    obtain ⟨array, object⟩ := not_or.1 opens
    split at took
    · cases took
    next found took_scalar =>
    split at took
    · next accepted =>
      cases took
      exact ⟨_, _, start, array, object, found, took_scalar, (accepts _ _).1 accepted, rfl⟩
    · cases took
  · rintro ⟨c, next, start, array, object, found, took, same, rfl⟩
    rw [Takes, takeAccepted]
    split
    · next ended => cases start.symm.trans ended
    · next started =>
      cases start.symm.trans started
      rw [if_neg (not_or.2 ⟨array, object⟩), took]
      dsimp only
      rw [(accepts _ _).2 same]
      exact ⟨_, rfl, rfl, rfl⟩

theorem takes_text_iff (depth : Nat) :
    Takes takeText s text rest ↔ Takes (takeValue depth) s (.string text) rest := by
  refine takes_accepted_iff string depth (fun document value => ?_) fun _ => rfl
  cases document <;> simp [refuse]

theorem takes_flag_iff (depth : Nat) {flag : Bool} :
    Takes takeFlag s flag rest ↔ Takes (takeValue depth) s (.bool flag) rest := by
  refine takes_accepted_iff bool depth (fun document value => ?_) fun _ => rfl
  cases document <;> simp [refuse]

theorem takes_count_iff (depth : Nat) {count : Nat} :
    Takes takeCount s count rest ↔ Takes (takeValue depth) s (.int count) rest := by
  refine takes_accepted_iff (fun n : Nat => int n) depth (fun document value => ?_) fun _ => rfl
  cases document with
  | int n =>
    by_cases positive : 0 ≤ n
    · simp only [if_pos positive, Except.ok.injEq, Json.int.injEq]
      omega
    · simp only [if_neg positive, Json.int.injEq, reduceCtorEq, false_iff]
      omega
  | _ => simp [refuse]

theorem takes_null_iff (depth : Nat) :
    Takes takeNull s () rest ↔ Takes (takeValue depth) s .null rest := by
  refine takes_accepted_iff (fun _ => .null) depth (fun document _ => ?_) fun _ => rfl
  cases document <;> simp [refuse]

theorem takes_scalar_string_iff :
    Takes takeScalar (c :: next) (.string text) rest ↔
      c = '"' ∧ Takes takeString next text rest := by
  constructor
  · rintro ⟨taken, took, value, rfl⟩
    have noNumber : taken.value.isNumber = false := by rw [value]; rfl
    rw [takeScalar] at took
    iterate 3
      split at took
      · obtain ⟨word, -, rfl⟩ := map_eq_ok.1 took
        cases value
    split at took
    · next quote =>
      obtain ⟨found, took_string, rfl⟩ := map_eq_ok.1 took
      exact ⟨quote, found, took_string, string.inj value, rfl⟩
    split at took
    · rw [takesNumbers_takeNumber.of_map took fun _ => rfl] at noNumber
      cases noNumber
    split at took
    · rw [takesNumbers_takeNumber _ _ took] at noNumber
      cases noNumber
    · cases took
  · rintro ⟨rfl, h⟩
    have same : takeScalar ('"' :: next) =
        (takeString next).map fun t => (t.map string).behind '"' := rfl
    exact takes_of_map same (fun _ => rfl) (fun _ => rfl) h

theorem takes_value_string_iff (depth : Nat) :
    Takes (takeValue depth) s (.string text) rest ↔
      ∃ next, skipBlanks s = '"' :: next ∧ Takes takeString next text rest := by
  rw [takes_value_scalar_iff depth rfl]
  constructor
  · rintro ⟨c, next, start, -, -, h⟩
    obtain ⟨rfl, characters⟩ := takes_scalar_string_iff.1 h
    exact ⟨next, start, characters⟩
  · rintro ⟨next, start, h⟩
    exact ⟨'"', next, start, by decide, by decide, takes_scalar_string_iff.2 ⟨rfl, h⟩⟩

end WhereClause.Json
