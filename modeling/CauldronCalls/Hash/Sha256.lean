import CauldronCalls.Bytes

/-!
SHA-256 and the keyed hash HMAC over it.
-/

namespace CauldronCalls.Sha256

abbrev State := Vector UInt32 8

def rotateRight (w : UInt32) (k : UInt32) : UInt32 :=
  (w >>> k) ||| (w <<< (32 - k))

def roundConstants : List UInt32 := [
  0x428a2f98, 0x71374491, 0xb5c0fbcf, 0xe9b5dba5, 0x3956c25b, 0x59f111f1, 0x923f82a4, 0xab1c5ed5,
  0xd807aa98, 0x12835b01, 0x243185be, 0x550c7dc3, 0x72be5d74, 0x80deb1fe, 0x9bdc06a7, 0xc19bf174,
  0xe49b69c1, 0xefbe4786, 0x0fc19dc6, 0x240ca1cc, 0x2de92c6f, 0x4a7484aa, 0x5cb0a9dc, 0x76f988da,
  0x983e5152, 0xa831c66d, 0xb00327c8, 0xbf597fc7, 0xc6e00bf3, 0xd5a79147, 0x06ca6351, 0x14292967,
  0x27b70a85, 0x2e1b2138, 0x4d2c6dfc, 0x53380d13, 0x650a7354, 0x766a0abb, 0x81c2c92e, 0x92722c85,
  0xa2bfe8a1, 0xa81a664b, 0xc24b8b70, 0xc76c51a3, 0xd192e819, 0xd6990624, 0xf40e3585, 0x106aa070,
  0x19a4c116, 0x1e376c08, 0x2748774c, 0x34b0bcb5, 0x391c0cb3, 0x4ed8aa4a, 0x5b9cca4f, 0x682e6ff3,
  0x748f82ee, 0x78a5636f, 0x84c87814, 0x8cc70208, 0x90befffa, 0xa4506ceb, 0xbef9a3f7, 0xc67178f2]

def initial : State :=
  #v[0x6a09e667, 0xbb67ae85, 0x3c6ef372, 0xa54ff53a, 0x510e527f, 0x9b05688c, 0x1f83d9ab, 0x5be0cd19]

def blockWord (block : Bytes) (i : Nat) : UInt32 :=
  UInt32.ofNat (Bytes.toNat ((block.drop (4 * i)).take 4))

-- The schedule so far, its latest word first; each new word mixes four earlier ones.
def extend (latest : List UInt32) : List UInt32 :=
  let w := fun k => latest.getD (k - 1) 0
  let s0 := rotateRight (w 15) 7 ^^^ rotateRight (w 15) 18 ^^^ (w 15 >>> 3)
  let s1 := rotateRight (w 2) 17 ^^^ rotateRight (w 2) 19 ^^^ (w 2 >>> 10)
  (w 16 + s0 + w 7 + s1) :: latest

def schedule (block : Bytes) : List UInt32 :=
  let first := ((List.range 16).map (blockWord block)).reverse
  ((List.range 48).foldl (fun ws _ => extend ws) first).reverse

def round (s : State) (kw : UInt32 × UInt32) : State :=
  let a := s[0]
  let e := s[4]
  let s1 := rotateRight e 6 ^^^ rotateRight e 11 ^^^ rotateRight e 25
  let choice := (e &&& s[5]) ^^^ (~~~ e &&& s[6])
  let t1 := s[7] + s1 + choice + kw.1 + kw.2
  let s0 := rotateRight a 2 ^^^ rotateRight a 13 ^^^ rotateRight a 22
  let majority := (a &&& s[1]) ^^^ (a &&& s[2]) ^^^ (s[1] &&& s[2])
  #v[t1 + s0 + majority, a, s[1], s[2], s[3] + t1, e, s[5], s[6]]

def compress (s : State) (block : Bytes) : State :=
  Vector.zipWith (· + ·) s ((roundConstants.zip (schedule block)).foldl round s)

-- A one bit, zeros, and the length in bits as a 64-bit number fill the last block.
def pad (bs : Bytes) : Bytes :=
  let zeros := (119 - bs.length % 64) % 64
  bs ++ 0x80 :: List.replicate zeros 0 ++ Bytes.bigEndian 8 (8 * bs.length)

def wordBytes (w : UInt32) : Bytes :=
  Bytes.bigEndian 4 w.toNat

def hash (bs : Bytes) : Bytes32 :=
  let padded := pad bs
  let blocks := (List.range (padded.length / 64)).map fun i => (padded.drop (64 * i)).take 64
  let s := blocks.foldl compress initial
  ⟨wordBytes s[0] ++ wordBytes s[1] ++ wordBytes s[2] ++ wordBytes s[3] ++
    wordBytes s[4] ++ wordBytes s[5] ++ wordBytes s[6] ++ wordBytes s[7], by simp [wordBytes]⟩

-- The keyed hash: a key longer than a block is hashed first.
def hmac (key message : Bytes) : Bytes32 :=
  let short := if 64 < key.length then (hash key).toList else key
  let block := short ++ List.replicate (64 - short.length) 0
  let inner := hash (block.map (· ^^^ 0x36) ++ message)
  hash (block.map (· ^^^ 0x5c) ++ inner.toList)

end CauldronCalls.Sha256
