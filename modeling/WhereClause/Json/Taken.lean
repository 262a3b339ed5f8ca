import WhereClause.Json.Fault
import WhereClause.Text.Basic

/-!
Taking something off the front of a text: what was taken, and the rest, which is not longer than
the text was. Readers return it, and loops over readers end because some character is taken in
each round. Blanks, digits and fixed words are taken here.
-/
namespace WhereClause.Json

/-- Something taken off the front of `s`. It can also be seen from a place before: `behind` a
character, `after` or `within` what else was taken, and `afterBlanks`. -/
structure Taken (α : Type) (s : List Char) where
  value : α
  rest : List Char
  length_le : rest.length ≤ s.length

abbrev Reader (α : Type) := (s : List Char) → Except Fault (Taken α s)

theorem length_dropWhile_le (p : Char → Bool) (s : List Char) :
    (s.dropWhile p).length ≤ s.length :=
  (List.dropWhile_suffix p).length_le

def isBlank (c : Char) : Bool := c = ' ' || c = '\t' || c = '\n' || c = '\r'

def skipBlanks (s : List Char) : List Char := s.dropWhile isBlank

theorem length_skipBlanks_le (s : List Char) : (skipBlanks s).length ≤ s.length :=
  length_dropWhile_le isBlank s

namespace Taken

variable {α β : Type} {s r : List Char}

def none (value : α) (s : List Char) : Taken α s := ⟨value, s, Nat.le_refl _⟩

def behind (c : Char) (taken : Taken α r) : Taken α (c :: r) :=
  ⟨taken.value, taken.rest, Nat.le_succ_of_le taken.length_le⟩

def after (earlier : Taken β s) (taken : Taken α earlier.rest) : Taken α s :=
  ⟨taken.value, taken.rest, Nat.le_trans taken.length_le earlier.length_le⟩

def within (earlier : Taken β s) (h : earlier.rest = r) (taken : Taken α r) : Taken α s :=
  earlier.after ⟨taken.value, taken.rest, h ▸ taken.length_le⟩

def afterBlanks (h : skipBlanks s = r) (taken : Taken α r) : Taken α s :=
  ⟨taken.value, taken.rest, Nat.le_trans taken.length_le (h ▸ length_skipBlanks_le s)⟩

def map (f : α → β) (taken : Taken α s) : Taken β s :=
  ⟨f taken.value, taken.rest, taken.length_le⟩

end Taken

def takeWord : List Char → Reader Unit
  | [], s => .ok (.none () s)
  | _ :: _, [] => .error (.here .endInValue [])
  | letter :: letters, c :: rest =>
    if c = letter then (takeWord letters rest).map (.behind c)
    else .error (.ahead .expectedWord (c :: rest))

def dropDigits (s : List Char) : Taken Nat s :=
  ⟨(s.takeWhile Char.isDigit).length, s.dropWhile Char.isDigit, length_dropWhile_le _ s⟩

/-- Takes digits as long as the number that they write stays within `limit`, and counts them. -/
def takeDigits (limit value count : Nat) : (s : List Char) → Taken (Nat × Nat) s
  | [] => .none (value, count) []
  | c :: rest =>
    let next := value * 10 + Text.digitValue c
    if c.isDigit && next ≤ limit then (takeDigits limit next (count + 1) rest).behind c
    else .none (value, count) (c :: rest)

def startsWithDigit : List Char → Bool
  | [] => false
  | c :: _ => c.isDigit

end WhereClause.Json
