/-!
The MD5 digest of a text's UTF-8 bytes, written as 32 small hexadecimal digits, and the beginning
of it of a given length. It serves to name things briefly and always alike; nothing here claims
that two texts have different digests. Main statement: the digest has exactly 32 digits.
-/
namespace WhereClause.Digest

structure Words where
  a : UInt32
  b : UInt32
  c : UInt32
  d : UInt32

def Words.start : Words := ⟨0x67452301, 0xEFCDAB89, 0x98BADCFE, 0x10325476⟩

def Words.add (x y : Words) : Words := ⟨x.a + y.a, x.b + y.b, x.c + y.c, x.d + y.d⟩

/-- The whole part of `2 ^ 32 * |sin (i + 1)|` for the 64 steps. -/
def sines : List UInt32 :=
  [0xD76AA478, 0xE8C7B756, 0x242070DB, 0xC1BDCEEE, 0xF57C0FAF, 0x4787C62A,
   0xA8304613, 0xFD469501, 0x698098D8, 0x8B44F7AF, 0xFFFF5BB1, 0x895CD7BE,
   0x6B901122, 0xFD987193, 0xA679438E, 0x49B40821, 0xF61E2562, 0xC040B340,
   0x265E5A51, 0xE9B6C7AA, 0xD62F105D, 0x02441453, 0xD8A1E681, 0xE7D3FBC8,
   0x21E1CDE6, 0xC33707D6, 0xF4D50D87, 0x455A14ED, 0xA9E3E905, 0xFCEFA3F8,
   0x676F02D9, 0x8D2A4C8A, 0xFFFA3942, 0x8771F681, 0x6D9D6122, 0xFDE5380C,
   0xA4BEEA44, 0x4BDECFA9, 0xF6BB4B60, 0xBEBFBC70, 0x289B7EC6, 0xEAA127FA,
   0xD4EF3085, 0x04881D05, 0xD9D4D039, 0xE6DB99E5, 0x1FA27CF8, 0xC4AC5665,
   0xF4292244, 0x432AFF97, 0xAB9423A7, 0xFC93A039, 0x655B59C3, 0x8F0CCC92,
   0xFFEFF47D, 0x85845DD1, 0x6FA87E4F, 0xFE2CE6E0, 0xA3014314, 0x4E0811A1,
   0xF7537E82, 0xBD3AF235, 0x2AD7D2BB, 0xEB86D391]

/-- How far the steps turn a word; each row serves 16 steps. -/
def turns : List UInt32 :=
  [[7, 12, 17, 22], [5, 9, 14, 20], [4, 11, 16, 23], [6, 10, 15, 21]].flatMap fun row =>
    row ++ row ++ row ++ row

def rotateLeft (word turn : UInt32) : UInt32 :=
  (word <<< turn) ||| (word >>> (32 - turn))

def mixing (w : Words) (step : Nat) : UInt32 × Nat :=
  match step / 16 with
  | 0 => ((w.b &&& w.c) ||| (~~~w.b &&& w.d), step)
  | 1 => ((w.d &&& w.b) ||| (~~~w.d &&& w.c), (5 * step + 1) % 16)
  | 2 => (w.b ^^^ w.c ^^^ w.d, (3 * step + 5) % 16)
  | _ => (w.c ^^^ (w.b ||| ~~~w.d), (7 * step) % 16)

def mixStep (block : List UInt32) (w : Words) : (UInt32 × UInt32) × Nat → Words
  | ((sine, turn), step) =>
    let (mixed, position) := mixing w step
    let sum := w.a + mixed + sine + block.getD position 0
    ⟨w.d, w.b + rotateLeft sum turn, w.b, w.c⟩

def mixBlock (w : Words) (block : List UInt32) : Words :=
  w.add ((sines.zip turns).zipIdx.foldl (mixStep block) w)

def littleEndian : (count value : Nat) → List UInt8
  | 0, _ => []
  | count + 1, value => UInt8.ofNat value :: littleEndian count (value / 256)

/-- The bytes of a message, filled up to whole blocks of 64 and closed by its length in bits. -/
def padded (bytes : List UInt8) : List UInt8 :=
  let zeros := (119 - bytes.length % 64) % 64
  bytes ++ 0x80 :: List.replicate zeros 0 ++ littleEndian 8 (8 * bytes.length)

def wordsOf : List UInt8 → List UInt32
  | p :: q :: r :: s :: rest =>
    (p.toUInt32 ||| q.toUInt32 <<< 8 ||| r.toUInt32 <<< 16 ||| s.toUInt32 <<< 24) :: wordsOf rest
  | _ => []

def mixAll (w : Words) (message : List UInt32) : Words :=
  match message with
  | [] => w
  | word :: rest => mixAll (mixBlock w ((word :: rest).take 16)) ((word :: rest).drop 16)
termination_by message.length

def byteDigits (byte : UInt8) : List Char :=
  [Nat.digitChar (byte.toNat / 16), Nat.digitChar (byte.toNat % 16)]

def wordDigits (word : UInt32) : List Char :=
  (littleEndian 4 word.toNat).flatMap byteDigits

def digits (s : String) : List Char :=
  let w := mixAll .start (wordsOf (padded s.toUTF8.toList))
  wordDigits w.a ++ wordDigits w.b ++ wordDigits w.c ++ wordDigits w.d

/-- The first `length` digits of the digest, all 32 if more are asked for. -/
def short (s : String) (length : Nat) : String :=
  String.ofList ((digits s).take length)

theorem length_wordDigits (word : UInt32) : (wordDigits word).length = 8 := by
  simp [wordDigits, littleEndian, byteDigits]

theorem length_digits (s : String) : (digits s).length = 32 := by
  simp [digits, length_wordDigits]

end WhereClause.Digest
