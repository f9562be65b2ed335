import Workbench.Text.Hex
import Workbench.Text.Percent

/-! # Content digests

SHA-256 over the bytes of a text, and the short form of it that names the
version of a stored file. -/

namespace Workbench.Sha256

open Text

/-- The eight words of a running digest. -/
structure Chain where
  a : UInt32
  b : UInt32
  c : UInt32
  d : UInt32
  e : UInt32
  f : UInt32
  g : UInt32
  h : UInt32
  deriving DecidableEq, Inhabited

/-- First bits of the fractions of the square roots of the first eight primes. -/
def start : Chain :=
  ⟨0x6a09e667, 0xbb67ae85, 0x3c6ef372, 0xa54ff53a, 0x510e527f, 0x9b05688c, 0x1f83d9ab,
    0x5be0cd19⟩

/-- First bits of the fractions of the cube roots of the first 64 primes. -/
def roundConstants : List UInt32 :=
  [0x428a2f98, 0x71374491, 0xb5c0fbcf, 0xe9b5dba5, 0x3956c25b, 0x59f111f1, 0x923f82a4, 0xab1c5ed5,
   0xd807aa98, 0x12835b01, 0x243185be, 0x550c7dc3, 0x72be5d74, 0x80deb1fe, 0x9bdc06a7, 0xc19bf174,
   0xe49b69c1, 0xefbe4786, 0x0fc19dc6, 0x240ca1cc, 0x2de92c6f, 0x4a7484aa, 0x5cb0a9dc, 0x76f988da,
   0x983e5152, 0xa831c66d, 0xb00327c8, 0xbf597fc7, 0xc6e00bf3, 0xd5a79147, 0x06ca6351, 0x14292967,
   0x27b70a85, 0x2e1b2138, 0x4d2c6dfc, 0x53380d13, 0x650a7354, 0x766a0abb, 0x81c2c92e, 0x92722c85,
   0xa2bfe8a1, 0xa81a664b, 0xc24b8b70, 0xc76c51a3, 0xd192e819, 0xd6990624, 0xf40e3585, 0x106aa070,
   0x19a4c116, 0x1e376c08, 0x2748774c, 0x34b0bcb5, 0x391c0cb3, 0x4ed8aa4a, 0x5b9cca4f, 0x682e6ff3,
   0x748f82ee, 0x78a5636f, 0x84c87814, 0x8cc70208, 0x90befffa, 0xa4506ceb, 0xbef9a3f7, 0xc67178f2]

/-- A word turned to the right. -/
def rotate (x n : UInt32) : UInt32 := (x >>> n) ||| (x <<< (32 - n))

/-- Extends a block of sixteen words by as many further words as asked for.
The words are kept newest first. -/
def extend : Nat → List UInt32 → List UInt32
  | 0, newestFirst => newestFirst
  | more + 1, newestFirst =>
      let w15 := newestFirst.getD 14 0
      let w2 := newestFirst.getD 1 0
      let s0 := rotate w15 7 ^^^ rotate w15 18 ^^^ (w15 >>> 3)
      let s1 := rotate w2 17 ^^^ rotate w2 19 ^^^ (w2 >>> 10)
      extend more ((newestFirst.getD 15 0 + s0 + newestFirst.getD 6 0 + s1) :: newestFirst)

/-- One of the 64 rounds, with its constant and its message word. -/
def round (s : Chain) (k : UInt32 × UInt32) : Chain :=
  let s1 := rotate s.e 6 ^^^ rotate s.e 11 ^^^ rotate s.e 25
  let choice := (s.e &&& s.f) ^^^ (~~~ s.e &&& s.g)
  let t1 := s.h + s1 + choice + k.1 + k.2
  let s0 := rotate s.a 2 ^^^ rotate s.a 13 ^^^ rotate s.a 22
  let majority := (s.a &&& s.b) ^^^ (s.a &&& s.c) ^^^ (s.b &&& s.c)
  ⟨t1 + (s0 + majority), s.a, s.b, s.c, s.d + t1, s.e, s.f, s.g⟩

/-- Takes one block of sixteen words into a running digest. -/
def compress (s : Chain) (block : List UInt32) : Chain :=
  let message := (extend 48 block.reverse).reverse
  let t := (roundConstants.zip message).foldl round s
  ⟨s.a + t.a, s.b + t.b, s.c + t.c, s.d + t.d, s.e + t.e, s.f + t.f, s.g + t.g, s.h + t.h⟩

/-- The bytes of a number, the highest first. -/
def bigEndian : Nat → Nat → List UInt8
  | 0, _ => []
  | width + 1, n => bigEndian width (n / 256) ++ [UInt8.ofNat (n % 256)]

/-- A message filled up to whole blocks: a one bit, zeros, and the length in
bits. -/
def pad (message : List UInt8) : List UInt8 :=
  let zeros := (119 - message.length % 64) % 64
  message ++ 0x80 :: List.replicate zeros 0 ++ bigEndian 8 (8 * message.length)

/-- The big-endian words of a list of bytes. -/
def wordsOfBytes : List UInt8 → List UInt32
  | b0 :: b1 :: b2 :: b3 :: rest =>
      ((b0.toUInt32 <<< 24) ||| (b1.toUInt32 <<< 16) ||| (b2.toUInt32 <<< 8) ||| b3.toUInt32) ::
        wordsOfBytes rest
  | _ => []

/-- Takes the given number of blocks, one after the other. -/
def absorb : Nat → List UInt32 → Chain → Chain
  | 0, _, s => s
  | blocks + 1, words, s => absorb blocks (words.drop 16) (compress s (words.take 16))

def digest (message : List UInt8) : Chain :=
  let words := wordsOfBytes (pad message)
  absorb (words.length / 16) words start

end Workbench.Sha256

namespace Workbench

open Text

/-- The version name of a text: the first eight bytes of its digest in
hexadecimal. -/
def etagOf (text : String) : String :=
  let d := Sha256.digest (utf8Bytes text)
  String.ofList (hexDigits 8 d.a.toNat ++ hexDigits 8 d.b.toNat)

end Workbench
