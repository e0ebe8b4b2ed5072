/-!
The SHA-256 digest of a list of bytes, written as hexadecimal digits in lower case.
-/

set_option autoImplicit false

namespace SyntaxGraph.Sha256

def roundConstants : List UInt32 :=
  [0x428a2f98, 0x71374491, 0xb5c0fbcf, 0xe9b5dba5, 0x3956c25b, 0x59f111f1, 0x923f82a4, 0xab1c5ed5,
   0xd807aa98, 0x12835b01, 0x243185be, 0x550c7dc3, 0x72be5d74, 0x80deb1fe, 0x9bdc06a7, 0xc19bf174,
   0xe49b69c1, 0xefbe4786, 0x0fc19dc6, 0x240ca1cc, 0x2de92c6f, 0x4a7484aa, 0x5cb0a9dc, 0x76f988da,
   0x983e5152, 0xa831c66d, 0xb00327c8, 0xbf597fc7, 0xc6e00bf3, 0xd5a79147, 0x06ca6351, 0x14292967,
   0x27b70a85, 0x2e1b2138, 0x4d2c6dfc, 0x53380d13, 0x650a7354, 0x766a0abb, 0x81c2c92e, 0x92722c85,
   0xa2bfe8a1, 0xa81a664b, 0xc24b8b70, 0xc76c51a3, 0xd192e819, 0xd6990624, 0xf40e3585, 0x106aa070,
   0x19a4c116, 0x1e376c08, 0x2748774c, 0x34b0bcb5, 0x391c0cb3, 0x4ed8aa4a, 0x5b9cca4f, 0x682e6ff3,
   0x748f82ee, 0x78a5636f, 0x84c87814, 0x8cc70208, 0x90befffa, 0xa4506ceb, 0xbef9a3f7, 0xc67178f2]

/-- The eight working variables, from `a` to `h`. -/
structure State where
  a : UInt32
  b : UInt32
  c : UInt32
  d : UInt32
  e : UInt32
  f : UInt32
  g : UInt32
  h : UInt32
deriving DecidableEq, Repr, Inhabited

def initial : State :=
  ⟨0x6a09e667, 0xbb67ae85, 0x3c6ef372, 0xa54ff53a, 0x510e527f, 0x9b05688c, 0x1f83d9ab, 0x5be0cd19⟩

def rotateRight (word : UInt32) (count : UInt32) : UInt32 :=
  (word >>> count) ||| (word <<< (32 - count))

/-- A one bit, zeros, and the length in bits as eight bytes, up to a multiple of 64 bytes. -/
def pad (bytes : List UInt8) : List UInt8 :=
  let length := bytes.length
  let zeros := (119 - length % 64) % 64
  let size := (List.range 8).map fun index =>
    UInt8.ofNat ((8 * length) >>> (8 * (7 - index)))
  bytes ++ 0x80 :: (List.replicate zeros 0 ++ size)

def words : List UInt8 → List UInt32
  | a :: b :: c :: d :: rest =>
      ((a.toUInt32 <<< 24) ||| (b.toUInt32 <<< 16) ||| (c.toUInt32 <<< 8) ||| d.toUInt32) ::
        words rest
  | _ => []

def schedule : Nat → List UInt32 → List UInt32
  | 0, reversed => reversed
  | count + 1, reversed =>
      let word (back : Nat) : UInt32 := reversed[back - 1]?.getD 0
      let low := rotateRight (word 15) 7 ^^^ rotateRight (word 15) 18 ^^^ (word 15 >>> 3)
      let high := rotateRight (word 2) 17 ^^^ rotateRight (word 2) 19 ^^^ (word 2 >>> 10)
      schedule count ((word 16 + low + word 7 + high) :: reversed)

def round (state : State) (input : UInt32 × UInt32) : State :=
  let (constant, word) := input
  let sum := rotateRight state.e 6 ^^^ rotateRight state.e 11 ^^^ rotateRight state.e 25
  let choice := (state.e &&& state.f) ^^^ ((~~~state.e) &&& state.g)
  let first := state.h + sum + choice + constant + word
  let total := rotateRight state.a 2 ^^^ rotateRight state.a 13 ^^^ rotateRight state.a 22
  let majority := (state.a &&& state.b) ^^^ (state.a &&& state.c) ^^^ (state.b &&& state.c)
  ⟨first + (total + majority), state.a, state.b, state.c, state.d + first, state.e, state.f,
    state.g⟩

def compress (state : State) (block : List UInt32) : State :=
  let final := (roundConstants.zip (schedule 48 block.reverse).reverse).foldl round state
  ⟨state.a + final.a, state.b + final.b, state.c + final.c, state.d + final.d, state.e + final.e,
    state.f + final.f, state.g + final.g, state.h + final.h⟩

def compressBlocks : Nat → State → List UInt32 → State
  | 0, state, _ => state
  | count + 1, state, input => compressBlocks count (compress state (input.take 16)) (input.drop 16)

def digest (bytes : List UInt8) : State :=
  let input := words (pad bytes)
  compressBlocks (input.length / 16) initial input

def hexDigit (value : UInt32) : Char :=
  let digit := value.toNat % 16
  Char.ofNat (if digit < 10 then '0'.toNat + digit else 'a'.toNat + (digit - 10))

def hexWord (word : UInt32) : List Char :=
  ([28, 24, 20, 16, 12, 8, 4, 0] : List UInt32).map fun shift => hexDigit (word >>> shift)

def hexDigest (text : String) : String :=
  let state := digest text.toUTF8.toList
  String.ofList ([state.a, state.b, state.c, state.d, state.e, state.f, state.g, state.h].flatMap
    hexWord)

end SyntaxGraph.Sha256
