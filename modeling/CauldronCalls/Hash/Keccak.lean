import CauldronCalls.Bytes

/-!
Keccak-256: the sponge over twenty-five 64-bit lanes with a rate of 136 bytes and the padding `0x01 … 0x80`.
-/

namespace CauldronCalls.Keccak

-- Lane `(x, y)` stands at place `x + 5 * y`.
abbrev State := Vector UInt64 25

def rotateLeft (w : UInt64) (k : Nat) : UInt64 :=
  if k = 0 then w else (w <<< UInt64.ofNat k) ||| (w >>> UInt64.ofNat (64 - k))

def rotations : Vector Nat 25 :=
  #v[ 0,  1, 62, 28, 27,
     36, 44,  6, 55, 20,
      3, 10, 43, 25, 39,
     41, 45, 15, 21,  8,
     18,  2, 61, 56, 14]

def roundConstants : List UInt64 := [
  0x0000000000000001, 0x0000000000008082, 0x800000000000808a, 0x8000000080008000,
  0x000000000000808b, 0x0000000080000001, 0x8000000080008081, 0x8000000000008009,
  0x000000000000008a, 0x0000000000000088, 0x0000000080008009, 0x000000008000000a,
  0x000000008000808b, 0x800000000000008b, 0x8000000000008089, 0x8000000000008003,
  0x8000000000008002, 0x8000000000000080, 0x000000000000800a, 0x800000008000000a,
  0x8000000080008081, 0x8000000000008080, 0x0000000080000001, 0x8000000080008008]

-- Each lane takes up the parities of the two neighbouring columns.
def theta (s : State) : State :=
  let parity : Vector UInt64 5 := Vector.ofFn fun x =>
    s[x.val] ^^^ s[x.val + 5] ^^^ s[x.val + 10] ^^^ s[x.val + 15] ^^^ s[x.val + 20]
  let effect : Vector UInt64 5 := Vector.ofFn fun x =>
    parity[(x.val + 4) % 5] ^^^ rotateLeft parity[(x.val + 1) % 5] 1
  Vector.ofFn fun i => s[i.val] ^^^ effect[i.val % 5]

-- The lane that moves to `(x, y)` comes from `(x + 3 * y, x)`, rotated by its own offset.
def rhoPi (s : State) : State :=
  Vector.ofFn fun i =>
    let x := i.val % 5
    let y := i.val / 5
    rotateLeft s[(x + 3 * y) % 5 + 5 * x] rotations[(x + 3 * y) % 5 + 5 * x]

def chi (s : State) : State :=
  Vector.ofFn fun i =>
    let row := 5 * (i.val / 5)
    s[i.val] ^^^ (~~~ s[row + (i.val + 1) % 5] &&& s[row + (i.val + 2) % 5])

def iota (c : UInt64) (s : State) : State :=
  Vector.ofFn fun i => if i.val = 0 then s[i.val] ^^^ c else s[i.val]

def permute (s : State) : State :=
  roundConstants.foldl (fun s c => iota c (chi (rhoPi (theta s)))) s

def rate : Nat := 136

def pad (bs : Bytes) : Bytes :=
  let free := rate - bs.length % rate
  bs ++ if free = 1 then [0x81] else 0x01 :: List.replicate (free - 2) 0 ++ [0x80]

def lane (block : Bytes) (i : Nat) : UInt64 :=
  UInt64.ofNat (Bytes.toNat ((block.drop (8 * i)).take 8).reverse)

def absorb (s : State) (block : Bytes) : State :=
  permute (Vector.ofFn fun i => if i.val < 17 then s[i.val] ^^^ lane block i.val else s[i.val])

def laneBytes (w : UInt64) : Bytes :=
  (Bytes.bigEndian 8 w.toNat).reverse

@[simp]
theorem length_laneBytes (w : UInt64) : (laneBytes w).length = 8 := by
  simp [laneBytes]

def hash (bs : Bytes) : Bytes32 :=
  let padded := pad bs
  let blocks := (List.range (padded.length / rate)).map fun i => (padded.drop (rate * i)).take rate
  let s := blocks.foldl absorb (Vector.replicate 25 0)
  ⟨laneBytes s[0] ++ laneBytes s[1] ++ laneBytes s[2] ++ laneBytes s[3], by simp⟩

end CauldronCalls.Keccak
