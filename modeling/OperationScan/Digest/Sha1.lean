import OperationScan.Text.Utf8

/-!
# SHA-1

`Sha1.digest` maps bytes to the five words of their SHA-1 hash, and `Sha1.hexOfText` writes the
hash of the UTF-8 bytes of a text as forty hexadecimal digits.
-/

namespace OperationScan.Sha1

/-- The five running words. -/
structure State where
  a : UInt32
  b : UInt32
  c : UInt32
  d : UInt32
  e : UInt32
  deriving Repr, DecidableEq

/-- The words before the first block. -/
def State.initial : State := ⟨0x67452301, 0xefcdab89, 0x98badcfe, 0x10325476, 0xc3d2e1f0⟩

/-- Rotation to the left. -/
def rotate (w : UInt32) (n : UInt32) : UInt32 := (w <<< n) ||| (w >>> (32 - n))

/-- The message with a one bit, the least number of zero bits and its length in bits behind it,
so that its length is a multiple of 64 bytes. -/
def pad (message : List UInt8) : List UInt8 :=
  let n := message.length
  let zeros := (119 - n % 64) % 64
  let bits := n * 8
  message ++ 0x80 :: List.replicate zeros 0 ++
    [56, 48, 40, 32, 24, 16, 8, 0].map fun s => (bits / Nat.pow 2 s % 256).toUInt8

/-- Bytes read as big-endian words, appended to the words before them. -/
def gatherWords (words : Array UInt32) : List UInt8 → Array UInt32
  | a :: b :: c :: d :: rest =>
    gatherWords
      (words.push
        ((a.toUInt32 <<< 24) ||| (b.toUInt32 <<< 16) ||| (c.toUInt32 <<< 8) ||| d.toUInt32))
      rest
  | _ => words

/-- The eighty words of a block, from its sixteen. -/
def schedule (words : Array UInt32) (start : Nat) : Array UInt32 :=
  (List.range 64).foldl
    (fun w i =>
      let mixed := w.getD (i + 13) 0 ^^^ w.getD (i + 8) 0 ^^^ w.getD (i + 2) 0 ^^^ w.getD i 0
      w.push (rotate mixed 1))
    (words.extract start (start + 16))

/-- One of the eighty rounds. -/
def round (s : State) (i : Nat) (w : UInt32) : State :=
  let f := if i < 20 then (s.b &&& s.c) ||| (~~~s.b &&& s.d)
    else if i < 40 then s.b ^^^ s.c ^^^ s.d
    else if i < 60 then (s.b &&& s.c) ||| (s.b &&& s.d) ||| (s.c &&& s.d)
    else s.b ^^^ s.c ^^^ s.d
  let k : UInt32 := if i < 20 then 0x5a827999 else if i < 40 then 0x6ed9eba1
    else if i < 60 then 0x8f1bbcdc else 0xca62c1d6
  ⟨rotate s.a 5 + f + s.e + k + w, s.a, rotate s.b 30, s.c, s.d⟩

/-- The words after a block. -/
def compress (words : Array UInt32) (s : State) (block : Nat) : State :=
  let w := schedule words (block * 16)
  let r := (List.range 80).foldl (fun r i => round r i (w.getD i 0)) s
  ⟨s.a + r.a, s.b + r.b, s.c + r.c, s.d + r.d, s.e + r.e⟩

/-- The hash of bytes. -/
def digest (message : List UInt8) : State :=
  let words := gatherWords #[] (pad message)
  (List.range (words.size / 16)).foldl (compress words) .initial

/-- Eight hexadecimal digits. -/
def hexOfWord (w : UInt32) : Text :=
  [28, 24, 20, 16, 12, 8, 4, 0].map fun s => Nat.digitChar (w.toNat / Nat.pow 2 s % 16)

/-- The hash of the UTF-8 bytes of a text in hexadecimal. -/
def hexOfText (t : Text) : Text :=
  let s := digest (Text.Utf8.encode t)
  hexOfWord s.a ++ hexOfWord s.b ++ hexOfWord s.c ++ hexOfWord s.d ++ hexOfWord s.e

end OperationScan.Sha1
