import MatchTape.Bytes.Word

/-!
# Digests

Checksums are folded by one step: combine with exclusive or, then multiply by a
prime.  Folding bytes gives the checksum of a world, folding checksums gives the
accumulator of a playback.  SHA-256 ties a checkpoint to the bytes of its recording,
after the Secure Hash Standard.
-/

namespace MatchTape.Digest

namespace Fold

def prime : UInt32 := 0x01000193

def basis : UInt32 := 0x811c9dc5

/-- Take one word into a fold. -/
def step (accumulator word : UInt32) : UInt32 :=
  (accumulator ^^^ word) * prime

def checksums (accumulator : UInt32) (list : List UInt32) : UInt32 :=
  list.foldl step accumulator

def ofBytes (bytes : List UInt8) : UInt32 :=
  bytes.foldl (fun hash byte => step hash byte.toUInt32) basis

end Fold

namespace Sha256

/-- The first 32 bits of the fractional parts of the cube roots of the first 64 primes. -/
def roundConstants : List UInt32 :=
  [0x428a2f98, 0x71374491, 0xb5c0fbcf, 0xe9b5dba5, 0x3956c25b, 0x59f111f1, 0x923f82a4,
    0xab1c5ed5, 0xd807aa98, 0x12835b01, 0x243185be, 0x550c7dc3, 0x72be5d74, 0x80deb1fe,
    0x9bdc06a7, 0xc19bf174, 0xe49b69c1, 0xefbe4786, 0x0fc19dc6, 0x240ca1cc, 0x2de92c6f,
    0x4a7484aa, 0x5cb0a9dc, 0x76f988da, 0x983e5152, 0xa831c66d, 0xb00327c8, 0xbf597fc7,
    0xc6e00bf3, 0xd5a79147, 0x06ca6351, 0x14292967, 0x27b70a85, 0x2e1b2138, 0x4d2c6dfc,
    0x53380d13, 0x650a7354, 0x766a0abb, 0x81c2c92e, 0x92722c85, 0xa2bfe8a1, 0xa81a664b,
    0xc24b8b70, 0xc76c51a3, 0xd192e819, 0xd6990624, 0xf40e3585, 0x106aa070, 0x19a4c116,
    0x1e376c08, 0x2748774c, 0x34b0bcb5, 0x391c0cb3, 0x4ed8aa4a, 0x5b9cca4f, 0x682e6ff3,
    0x748f82ee, 0x78a5636f, 0x84c87814, 0x8cc70208, 0x90befffa, 0xa4506ceb, 0xbef9a3f7,
    0xc67178f2]

structure Chain where
  a : UInt32
  b : UInt32
  c : UInt32
  d : UInt32
  e : UInt32
  f : UInt32
  g : UInt32
  h : UInt32

/-- The first 32 bits of the fractional parts of the square roots of the first eight primes. -/
def initial : Chain :=
  ⟨0x6a09e667, 0xbb67ae85, 0x3c6ef372, 0xa54ff53a, 0x510e527f, 0x9b05688c, 0x1f83d9ab,
    0x5be0cd19⟩

def rotate (word amount : UInt32) : UInt32 :=
  (word >>> amount) ||| (word <<< (32 - amount))

def round (chain : Chain) (word constant : UInt32) : Chain :=
  let mixed := rotate chain.e 6 ^^^ rotate chain.e 11 ^^^ rotate chain.e 25
  let choice := (chain.e &&& chain.f) ^^^ (~~~chain.e &&& chain.g)
  let first := chain.h + mixed + choice + constant + word
  let spread := rotate chain.a 2 ^^^ rotate chain.a 13 ^^^ rotate chain.a 22
  let majority := (chain.a &&& chain.b) ^^^ (chain.a &&& chain.c) ^^^ (chain.b &&& chain.c)
  ⟨first + (spread + majority), chain.a, chain.b, chain.c, chain.d + first, chain.e, chain.f,
    chain.g⟩

/-- The word that follows a window of sixteen words of the schedule. -/
def nextWord : List UInt32 → UInt32
  | [w0, w1, _, _, _, _, _, _, _, w9, _, _, _, _, w14, _] =>
      let low := rotate w1 7 ^^^ rotate w1 18 ^^^ (w1 >>> 3)
      let high := rotate w14 17 ^^^ rotate w14 19 ^^^ (w14 >>> 10)
      w0 + low + w9 + high
  | _ => 0

/-- Run the rounds for the given constants over the window at the front of the schedule. -/
def rounds : List UInt32 → List UInt32 → Chain → Chain
  | constant :: constants, word :: window, chain =>
      rounds constants (window ++ [nextWord (word :: window)]) (round chain word constant)
  | _, _, chain => chain

def Chain.add (left right : Chain) : Chain :=
  ⟨left.a + right.a, left.b + right.b, left.c + right.c, left.d + right.d, left.e + right.e,
    left.f + right.f, left.g + right.g, left.h + right.h⟩

def wordsOf : List UInt8 → List UInt32
  | b0 :: b1 :: b2 :: b3 :: rest =>
      UInt32.ofNat (((b0.toNat * 256 + b1.toNat) * 256 + b2.toNat) * 256 + b3.toNat) ::
        wordsOf rest
  | _ => []

def bytesOf (word : UInt32) : List UInt8 :=
  [(word >>> 24).toUInt8, (word >>> 16).toUInt8, (word >>> 8).toUInt8, word.toUInt8]

/-- The padding behind a message of the given length: a set bit, zeros up to a
multiple of the block size, and the length in bits. -/
def padding (length : Nat) : List UInt8 :=
  0x80 :: List.replicate ((119 - length % 64) % 64) 0 ++
    bytesOf (UInt32.ofNat (length * 8 / UInt32.size)) ++ bytesOf (UInt32.ofNat (length * 8))

def absorb (chain : Chain) (block : List UInt32) : Chain :=
  chain.add (rounds roundConstants block chain)

def absorbAll : Nat → Chain → List UInt32 → Chain
  | 0, chain, _ => chain
  | blocks + 1, chain, words => absorbAll blocks (absorb chain (words.take 16)) (words.drop 16)

def digest (message : List UInt8) : List UInt8 :=
  let padded := message ++ padding message.length
  let last := absorbAll (padded.length / 64) initial (wordsOf padded)
  [last.a, last.b, last.c, last.d, last.e, last.f, last.g, last.h].flatMap bytesOf

def hex (message : List UInt8) : String :=
  Hex.ofBytes (digest message)

end Sha256

end MatchTape.Digest
