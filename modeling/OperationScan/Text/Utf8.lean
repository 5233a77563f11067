import OperationScan.Text.Basic

/-!
# UTF-8

* `encode`: the bytes of a text.
* `decode`: the text of any bytes. A byte that cannot continue a character ends it: the bytes
  read for it so far become one replacement character, and the offending byte is looked at
  again as the start of a character. A character cut off by the end becomes one replacement
  character too.
* `decodeStrict?`: the text of bytes that are the encoding of one; else the first fault.
-/

namespace OperationScan.Text.Utf8

/-- The bytes of one character. -/
def encodeChar (c : Char) : List UInt8 :=
  let n := c.toNat
  if n < 0x80 then [n.toUInt8]
  else if n < 0x800 then [(0xc0 + n / 0x40).toUInt8, (0x80 + n % 0x40).toUInt8]
  else if n < 0x10000 then
    [(0xe0 + n / 0x1000).toUInt8, (0x80 + n / 0x40 % 0x40).toUInt8, (0x80 + n % 0x40).toUInt8]
  else
    [(0xf0 + n / 0x40000).toUInt8, (0x80 + n / 0x1000 % 0x40).toUInt8,
      (0x80 + n / 0x40 % 0x40).toUInt8, (0x80 + n % 0x40).toUInt8]

/-- The bytes of a text. -/
def encode (t : Text) : List UInt8 := t.flatMap encodeChar

/-- The number of bytes of one character. -/
def width (c : Char) : Nat :=
  let n := c.toNat
  if n < 0x80 then 1 else if n < 0x800 then 2 else if n < 0x10000 then 3 else 4

/-- The number of bytes of a text. -/
def size (t : Text) : Nat := t.foldl (fun total c => total + width c) 0

/-- Stands for bytes that are no character. -/
def replacement : Char := Char.ofNat 0xfffd

/-- A character of which some bytes have been read: its bits so far, the number of bytes to
come, and the bounds of the next one. -/
structure Pending where
  bits : Nat
  missing : Nat
  least : Nat
  most : Nat
  deriving Repr, DecidableEq

/-- What a first byte says. -/
inductive Lead where
  | whole (c : Char)
  | opens (state : Pending)
  | bad
  deriving Repr, DecidableEq

/-- The meaning of a byte at the start of a character. -/
def lead (b : UInt8) : Lead :=
  let n := b.toNat
  if n < 0x80 then .whole (Char.ofNat n)
  else if n < 0xc2 then .bad
  else if n < 0xe0 then .opens ⟨n - 0xc0, 1, 0x80, 0xbf⟩
  else if n < 0xf0 then
    .opens ⟨n - 0xe0, 2, if n == 0xe0 then 0xa0 else 0x80, if n == 0xed then 0x9f else 0xbf⟩
  else if n < 0xf5 then
    .opens ⟨n - 0xf0, 3, if n == 0xf0 then 0x90 else 0x80, if n == 0xf4 then 0x8f else 0xbf⟩
  else .bad

/-- Reads a byte where a character starts: characters finished by it, last first, and the
state behind it. -/
def startByte (b : UInt8) (done : Text) : Option Pending × Text :=
  match lead b with
  | .whole c => (none, c :: done)
  | .opens state => (some state, done)
  | .bad => (none, replacement :: done)

/-- Reads one byte. -/
def step (state : Option Pending × Text) (b : UInt8) : Option Pending × Text :=
  match state with
  | (none, done) => startByte b done
  | (some p, done) =>
    let n := b.toNat
    if p.least ≤ n && n ≤ p.most then
      let bits := p.bits * 0x40 + (n - 0x80)
      if p.missing ≤ 1 then (none, Char.ofNat bits :: done)
      else (some ⟨bits, p.missing - 1, 0x80, 0xbf⟩, done)
    else startByte b (replacement :: done)

/-- The characters read, with a replacement for one that is still open. -/
def finish (state : Option Pending × Text) : Text :=
  match state with
  | (none, done) => done.reverse
  | (some _, done) => (replacement :: done).reverse

/-- The text of any bytes. -/
def decode (bytes : List UInt8) : Text := finish (bytes.foldl step (none, []))

/-- Why bytes are not the encoding of a text, with the offset of the first byte at fault. -/
inductive Fault where
  | badStart (byte : UInt8) (position : Nat)
  | badContinuation (first : UInt8) (start stop : Nat)
  | cutOff (first : UInt8) (start stop : Nat)
  deriving Repr, DecidableEq

namespace Fault

/-- Where a fault is: one byte, or several from the first to the last. -/
def place (first : UInt8) (start stop : Nat) : Text :=
  if stop ≤ start + 1 then
    "byte 0x".toList ++ hexDigits 2 first.toNat ++ " in position ".toList ++ ofNat start
  else "bytes in position ".toList ++ ofNat start ++ '-' :: ofNat (stop - 1)

/-- The wording of a fault. -/
def message (f : Fault) : Text :=
  let (where_, reason) := match f with
    | badStart b position => (place b position (position + 1), "invalid start byte")
    | badContinuation first start stop => (place first start stop, "invalid continuation byte")
    | cutOff first start stop => (place first start stop, "unexpected end of data")
  "'utf-8' codec can't decode ".toList ++ where_ ++ ": ".toList ++ reason.toList

end Fault

/-- Reads bytes as the encoding of a text; `opened` is the first byte of the character that is
being read and its offset. -/
def decodeFrom (position : Nat) (opened : UInt8 × Nat) :
    List UInt8 → Option Pending × Text → Except Fault Text
  | [], (none, done) => .ok done.reverse
  | [], (some _, _) => .error (.cutOff opened.1 opened.2 position)
  | b :: rest, (none, done) =>
    match lead b with
    | .whole c => decodeFrom (position + 1) opened rest (none, c :: done)
    | .opens state => decodeFrom (position + 1) (b, position) rest (some state, done)
    | .bad => .error (.badStart b position)
  | b :: rest, (some p, done) =>
    let n := b.toNat
    if p.least ≤ n && n ≤ p.most then
      let bits := p.bits * 0x40 + (n - 0x80)
      if p.missing ≤ 1 then decodeFrom (position + 1) opened rest (none, Char.ofNat bits :: done)
      else decodeFrom (position + 1) opened rest (some ⟨bits, p.missing - 1, 0x80, 0xbf⟩, done)
    else .error (.badContinuation opened.1 opened.2 position)

/-- The text of bytes that are the encoding of one. -/
def decodeStrict? (bytes : List UInt8) : Except Fault Text :=
  decodeFrom 0 (0, 0) bytes (none, [])

end OperationScan.Text.Utf8
