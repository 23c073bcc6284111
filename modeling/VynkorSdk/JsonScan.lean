import VynkorSdk.WireBase

/-!
# The gate's JSON

The confirmation gate reads and writes JSON without a library: `json_escape`
for the strings it puts into replies, and `json_find_string`, which scans for a
key and decodes the string behind it.

`scanKey` is that scan as one pass from left to right.  `skip` counts the bytes
of a key occurrence already rejected, which the search does not look at again.
A `\u` escape goes through `std::stoul`, which may throw.
-/

namespace Vynkor

open ByteCodec

/-- `"%04x"` of a byte. -/
def hex4 (c : UInt8) : Bytes :=
  let digit (n : Nat) : UInt8 := UInt8.ofNat (if n < 10 then 0x30 + n else 0x61 + (n - 10))
  [0x30, 0x30, digit (c.toNat / 16), digit (c.toNat % 16)]

def escapeByte (c : UInt8) : Bytes :=
  if c = 0x22 then ascii "\\\""
  else if c = 0x5C then ascii "\\\\"
  else if c = 0x08 then ascii "\\b"
  else if c = 0x0C then ascii "\\f"
  else if c = 0x0A then ascii "\\n"
  else if c = 0x0D then ascii "\\r"
  else if c = 0x09 then ascii "\\t"
  else if c < 0x20 then ascii "\\u" ++ hex4 c
  else [c]

def jsonEscape (s : Bytes) : Bytes := s.flatMap escapeByte

/-! ### `std::stoul` in base 16 -/

/-- `isspace` in the C locale. -/
def isSpace (c : UInt8) : Bool := c == 0x20 || (0x09 ≤ c && c ≤ 0x0D)

def hexDigit (c : UInt8) : Option Nat :=
  if 0x30 ≤ c ∧ c ≤ 0x39 then some (c.toNat - 0x30)
  else if 0x41 ≤ c ∧ c ≤ 0x46 then some (c.toNat - 0x37)
  else if 0x61 ≤ c ∧ c ≤ 0x66 then some (c.toNat - 0x57)
  else none

/-- An optional sign: is it a minus, and what follows. -/
def splitSign : Bytes → Bool × Bytes
  | 0x2D :: rest => (true, rest)
  | 0x2B :: rest => (false, rest)
  | s => (false, s)

/-- `0x` counts as a prefix only in front of a digit. -/
def dropHexPrefix : Bytes → Bytes
  | 0x30 :: x :: d :: rest =>
      if (x == 0x78 || x == 0x58) && (hexDigit d).isSome then d :: rest else 0x30 :: x :: d :: rest
  | s => s

/-- On four bytes the value cannot be out of range; a minus negates modulo
`2^64`. -/
def stoulHex (s : Bytes) : Except Exn UInt64 :=
  let (negative, s) := splitSign (s.dropWhile isSpace)
  let digits := ((dropHexPrefix s).takeWhile (fun c => (hexDigit c).isSome)).filterMap hexDigit
  if digits = [] then
    .error (.stdInvalidArgument (ascii "stoul"))
  else
    let n := UInt64.ofNat (digits.foldl (fun n d => 16 * n + d) 0)
    .ok (if negative then 0 - n else n)

/-! ### Scanning -/

/-- The bytes a code unit is written as, each cut to `char`. -/
def encodeCodeUnit (cp : UInt32) : Bytes :=
  if cp < 0x80 then
    [cp.toUInt8]
  else if cp < 0x800 then
    [((cp >>> 6) ||| 0xC0).toUInt8, ((cp &&& 0x3F) ||| 0x80).toUInt8]
  else
    [((cp >>> 12) ||| 0xE0).toUInt8, (((cp >>> 6) &&& 0x3F) ||| 0x80).toUInt8,
      ((cp &&& 0x3F) ||| 0x80).toUInt8]

/-- The byte a one-letter escape stands for. -/
def simpleEscape (c : UInt8) : Option UInt8 :=
  if c = 0x22 then some 0x22
  else if c = 0x5C then some 0x5C
  else if c = 0x2F then some 0x2F
  else if c = 0x62 then some 0x08
  else if c = 0x66 then some 0x0C
  else if c = 0x6E then some 0x0A
  else if c = 0x72 then some 0x0D
  else if c = 0x74 then some 0x09
  else none

/-- Decode a string from behind its opening quote; `value` is what has been
decoded so far. -/
def readString (value : Bytes) : Bytes → Except Exn (Option Bytes)
  | [] => .ok none
  | 0x5C :: 0x75 :: a :: b :: c :: d :: rest =>
      match stoulHex [a, b, c, d] with
      | .error e => .error e
      | .ok cp => readString (value ++ encodeCodeUnit cp.toUInt32) rest
  | 0x5C :: e :: rest =>
      match simpleEscape e with
      | none => .ok none
      | some v => readString (value ++ [v]) rest
  | [0x5C] => .ok none
  | c :: rest => if c = 0x22 then .ok (some value) else readString (value ++ [c]) rest

def skipBlanks (s : Bytes) : Bytes := s.dropWhile (fun c => c == 0x20 || c == 0x09)

/-- The string behind a key: a colon and a quote, with blanks around the
colon.  Nothing if that is not what follows. -/
def stringBehindKey (s : Bytes) : Option Bytes :=
  match skipBlanks s with
  | 0x3A :: rest =>
      match skipBlanks rest with
      | 0x22 :: rest => some rest
      | _ => none
  | _ => none

/-- A key may stand at the start, or behind `{` or `,`. -/
def keyStartOk : Option UInt8 → Bool
  | none => true
  | some c => c == 0x7B || c == 0x2C

/-- The scan of `json_find_string`; `before` is the byte in front. -/
def scanKey (needle : Bytes) : Option UInt8 → Nat → Bytes → Except Exn (Option Bytes)
  | _, _, [] => .ok none
  | _, skip+1, c :: rest => scanKey needle (some c) skip rest
  | before, 0, c :: rest =>
      if needle.isPrefixOf (c :: rest) then
        if keyStartOk before then
          match stringBehindKey ((c :: rest).drop needle.length) with
          | some text => readString [] text
          | none => scanKey needle (some c) (needle.length - 1) rest
        else
          scanKey needle (some c) (needle.length - 1) rest
      else
        scanKey needle (some c) 0 rest

def jsonFindString (json key : Bytes) : Except Exn (Option Bytes) :=
  scanKey ([0x22] ++ key ++ [0x22]) none 0 json

end Vynkor
