import VynkorSdk.ByteCodec

/-!
# SHA-256 and HMAC

The hash and its keyed form on byte lists, as plain structural recursions over
natural-number words, so that the kernel can evaluate them on a concrete frame.
-/

namespace Sha256

open ByteCodec

/-! ### One block -/

/-- Rotation of a 32-bit word to the right. -/
def rotr (x n : Nat) : Nat := (x >>> n ||| x <<< (32 - n)) % 2 ^ 32

def roundConstants : List Nat :=
  [0x428a2f98, 0x71374491, 0xb5c0fbcf, 0xe9b5dba5, 0x3956c25b, 0x59f111f1, 0x923f82a4, 0xab1c5ed5,
   0xd807aa98, 0x12835b01, 0x243185be, 0x550c7dc3, 0x72be5d74, 0x80deb1fe, 0x9bdc06a7, 0xc19bf174,
   0xe49b69c1, 0xefbe4786, 0x0fc19dc6, 0x240ca1cc, 0x2de92c6f, 0x4a7484aa, 0x5cb0a9dc, 0x76f988da,
   0x983e5152, 0xa831c66d, 0xb00327c8, 0xbf597fc7, 0xc6e00bf3, 0xd5a79147, 0x06ca6351, 0x14292967,
   0x27b70a85, 0x2e1b2138, 0x4d2c6dfc, 0x53380d13, 0x650a7354, 0x766a0abb, 0x81c2c92e, 0x92722c85,
   0xa2bfe8a1, 0xa81a664b, 0xc24b8b70, 0xc76c51a3, 0xd192e819, 0xd6990624, 0xf40e3585, 0x106aa070,
   0x19a4c116, 0x1e376c08, 0x2748774c, 0x34b0bcb5, 0x391c0cb3, 0x4ed8aa4a, 0x5b9cca4f, 0x682e6ff3,
   0x748f82ee, 0x78a5636f, 0x84c87814, 0x8cc70208, 0x90befffa, 0xa4506ceb, 0xbef9a3f7, 0xc67178f2]

/-- The eight chaining words. -/
structure Words where
  a : Nat
  b : Nat
  c : Nat
  d : Nat
  e : Nat
  f : Nat
  g : Nat
  h : Nat

def initial : Words :=
  ⟨0x6a09e667, 0xbb67ae85, 0x3c6ef372, 0xa54ff53a, 0x510e527f, 0x9b05688c, 0x1f83d9ab, 0x5be0cd19⟩

def round (s : Words) (k w : Nat) : Words :=
  let s1 := rotr s.e 6 ^^^ rotr s.e 11 ^^^ rotr s.e 25
  let ch := (s.e &&& s.f) ^^^ ((2 ^ 32 - 1 - s.e) &&& s.g)
  let t1 := s.h + s1 + ch + k + w
  let s0 := rotr s.a 2 ^^^ rotr s.a 13 ^^^ rotr s.a 22
  let maj := (s.a &&& s.b) ^^^ (s.a &&& s.c) ^^^ (s.b &&& s.c)
  ⟨(t1 + s0 + maj) % 2 ^ 32, s.a, s.b, s.c, (s.d + t1) % 2 ^ 32, s.e, s.f, s.g⟩

/-- The message word sixteen places on, from the last sixteen. -/
def nextWord (window : List Nat) : Nat :=
  let w1 := window.getD 1 0
  let w14 := window.getD 14 0
  let s0 := rotr w1 7 ^^^ rotr w1 18 ^^^ (w1 >>> 3)
  let s1 := rotr w14 17 ^^^ rotr w14 19 ^^^ (w14 >>> 10)
  (window.getD 0 0 + s0 + window.getD 9 0 + s1) % 2 ^ 32

def rounds : List Nat → List Nat → Words → Words
  | [], _, s => s
  | k :: ks, window, s =>
      rounds ks (window.drop 1 ++ [nextWord window]) (round s k (window.getD 0 0))

/-- One 64-byte block into the chaining words. -/
def compress (s : Words) (block : Bytes) : Words :=
  let window := (List.range 16).map (fun i => ofBe (slice block (4 * i) 4))
  let r := rounds roundConstants window s
  ⟨(s.a + r.a) % 2 ^ 32, (s.b + r.b) % 2 ^ 32, (s.c + r.c) % 2 ^ 32, (s.d + r.d) % 2 ^ 32,
    (s.e + r.e) % 2 ^ 32, (s.f + r.f) % 2 ^ 32, (s.g + r.g) % 2 ^ 32, (s.h + r.h) % 2 ^ 32⟩

/-! ### Messages -/

def pad (message : Bytes) : Bytes :=
  message ++ [0x80] ++ List.replicate ((55 + 64 - message.length % 64) % 64) 0 ++
    toBe 8 (8 * message.length)

def sha256 (message : Bytes) : Bytes :=
  let padded := pad message
  let s := (List.range (padded.length / 64)).foldl
    (fun s i => compress s (slice padded (64 * i) 64)) initial
  [s.a, s.b, s.c, s.d, s.e, s.f, s.g, s.h].flatMap (toBe 4)

def hmac (key message : Bytes) : Bytes :=
  let key := if key.length > 64 then sha256 key else key
  let block := key ++ List.replicate (64 - key.length) 0
  sha256 (block.map (· ^^^ 0x5c) ++ sha256 (block.map (· ^^^ 0x36) ++ message))

/-- The digest has 32 bytes. -/
theorem sha256_length (message : Bytes) : (sha256 message).length = 32 := by
  simp [sha256]

example : sha256 (ascii "abc") =
    [0xba, 0x78, 0x16, 0xbf, 0x8f, 0x01, 0xcf, 0xea, 0x41, 0x41, 0x40, 0xde, 0x5d, 0xae, 0x22, 0x23,
     0xb0, 0x03, 0x61, 0xa3, 0x96, 0x17, 0x7a, 0x9c, 0xb4, 0x10, 0xff, 0x61, 0xf2, 0x00, 0x15,
       0xad] :=
  by decide +kernel

/-- A 32-byte tag. -/
def hmacTag (key message : Bytes) : FixedBytes 32 := ⟨hmac key message, sha256_length _⟩

end Sha256
