import CauldronCalls.Abi
import CauldronCalls.Proofs.Bytes

/-!
Strict reading of call data. A decoder goes through a sequence member by member and accepts nothing but the
standard layout: each block begins where the one before it ended, padding is zero, and nothing is left over.

The main statement is that a sequence of members is read back if each member is.
-/

namespace CauldronCalls.Abi

-- What is left of a sequence while its members are read: the rest of the head, the distance from the start
-- at which the next block has to begin, and the bytes from there on.
structure Cursor where
  head : Bytes
  offset : Nat
  blocks : Bytes

abbrev Decoder := StateT Cursor Option

namespace Decoder

variable {α β : Type}

-- A member that is a word of the head.
def word (f : Bytes32 → Option α) : Decoder α := fun c => do
  let w ← FixedBytes.ofList? 32 (c.head.take 32)
  let a ← f w
  pure (a, { c with head := c.head.drop 32 })

-- A member in a block. The head's word has to point to the place where the block before it ended.
def block (f : Bytes → Option (α × Bytes)) : Decoder α := fun c => do
  let w ← FixedBytes.ofList? 32 (c.head.take 32)
  let (a, rest) ← if w.toNat = c.offset then f c.blocks else none
  pure (a, ⟨c.head.drop 32, c.offset + (c.blocks.length - rest.length), rest⟩)

-- A sequence of `n` members at the front of `bs`, and what follows it.
def members (n : Nat) (d : Decoder α) (bs : Bytes) : Option (α × Bytes) :=
  if 32 * n ≤ bs.length then
    match d ⟨bs.take (32 * n), 32 * n, bs.drop (32 * n)⟩ with
    | some (a, ⟨[], _, rest⟩) => some (a, rest)
    | _                       => none
  else none

-- A sequence of `n` members that fills `bs`.
def run? (n : Nat) (d : Decoder α) (bs : Bytes) : Option α :=
  match members n d bs with
  | some (a, []) => some a
  | _            => none

-- The length in front of a block's content.
def size (bs : Bytes) : Option (Nat × Bytes) := do
  let w ← FixedBytes.ofList? 32 (bs.take 32)
  pure (w.toNat, bs.drop 32)

-- The `n` bytes of a content, padded with zeros.
def content (n : Nat) (bs : Bytes) : Option (Bytes × Bytes) :=
  if n ≤ bs.length ∧ Bytes.padding n <+: bs.drop n then
    some (bs.take n, bs.drop (n + (Bytes.padding n).length))
  else none

def bytes : Decoder Bytes := block fun bs => do
  let (n, bs) ← size bs
  content n bs

def times : Nat → Decoder α → Decoder (List α)
  | 0, _     => pure []
  | n + 1, d => do
    let a ← d
    let as ← times n d
    pure (a :: as)

def array (d : Decoder α) : Decoder (List α) := block fun bs => do
  let (n, bs) ← size bs
  members n (times n d) bs

def address : Decoder Address :=
  word Address.ofWord?

def bool : Decoder Bool := word fun w =>
  if w.toNat = 0 then some false
  else if w.toNat = 1 then some true
  else none

def uint8 : Decoder UInt8 := word fun w =>
  if w.toNat < 256 then some (UInt8.ofNat w.toNat) else none

def uint256 : Decoder Uint256 :=
  word fun w => some (Uint256.ofWord w)

def bytes32 : Decoder Bytes32 :=
  word some

end Decoder

theorem tails_nil : tails [] = [] :=
  rfl

theorem tails_cons (i : Item) (is : List Item) : tails (i :: is) = i.tail ++ tails is :=
  rfl

theorem heads_append (offset : Nat) (is js : List Item) :
    heads offset (is ++ js) = heads offset is ++ heads (offset + (tails is).length) js := by
  induction is generalizing offset with
  | nil => simp [heads, tails]
  | cons i is hi => simp [heads, tails, hi, Nat.add_assoc]

theorem tails_append (is js : List Item) : tails (is ++ js) = tails is ++ tails js :=
  List.flatMap_append

theorem length_sequence (is : List Item) :
    (sequence is).length = 32 * is.length + (tails is).length := by
  simp [sequence]

namespace Decoder

variable {α β : Type}

-- Wherever the members `is` stand, `d` takes them for `a` and leaves all that follows them.
def Reads (d : Decoder α) (is : List Item) (a : α) : Prop :=
  ∀ (head : Bytes) (offset : Nat) (blocks : Bytes), offset + (tails is).length < 2 ^ 256 →
    d ⟨heads offset is ++ head, offset, tails is ++ blocks⟩ =
      some (a, ⟨head, offset + (tails is).length, blocks⟩)

variable {d : Decoder α} {is js : List Item} {a : α} {b : β}

theorem reads_pure (a : α) : Reads (pure a) [] a := by
  intro head offset blocks _
  rfl

theorem Reads.bind {k : α → Decoder β} (hd : Reads d is a) (hk : Reads (k a) js b) :
    Reads (d >>= k) (is ++ js) b := by
  intro head offset blocks ho
  rw [tails_append, List.length_append, ← Nat.add_assoc] at ho
  have hd := hd (heads (offset + (tails is).length) js ++ head) offset (tails js ++ blocks) (by omega)
  have hk := hk head (offset + (tails is).length) blocks ho
  rw [heads_append, tails_append, List.append_assoc, List.append_assoc]
  change (d _).bind (fun p => k p.1 p.2) = _
  rw [hd, Option.bind_some, hk, List.length_append, Nat.add_assoc]

theorem Reads.map (f : α → β) (h : Reads d is a) : Reads (f <$> d) is (f a) := by
  intro head offset blocks ho
  change (d _).bind (fun p => some (f p.1, p.2)) = _
  rw [h head offset blocks ho, Option.bind_some]

theorem reads_word {f : Bytes32 → Option α} {w : Bytes32} (h : f w = some a) :
    Reads (word f) [.word w] a := by
  intro head offset blocks _
  simp [word, heads, tails, Item.head, Item.tail, FixedBytes.ofList?_append, FixedBytes.drop_append, h]

theorem reads_block {f : Bytes → Option (α × Bytes)} {bs : Bytes}
    (h : bs.length < 2 ^ 256 → ∀ rest, f (bs ++ rest) = some (a, rest)) :
    Reads (block f) [.block bs] a := by
  intro head offset blocks ho
  simp only [tails, Item.tail, List.flatMap_cons, List.flatMap_nil, List.append_nil] at ho ⊢
  let w : Bytes32 := FixedBytes.ofNat 32 offset
  have hw : w.toNat = offset := FixedBytes.toNat_ofNat (by omega)
  have hh : heads offset [.block bs] ++ head = w.toList ++ head := by
    simp [heads, Item.head, w, FixedBytes.ofNat]
  simp [block, hh, FixedBytes.ofList?_append, FixedBytes.drop_append, hw, h (by omega)]

theorem members_sequence (h : Reads d is a) (hs : (sequence is).length < 2 ^ 256) (rest : Bytes) :
    members is.length d (sequence is ++ rest) = some (a, rest) := by
  rw [length_sequence] at hs
  have hl : (heads (32 * is.length) is).length = 32 * is.length := length_heads ..
  have ht : (sequence is ++ rest).take (32 * is.length) = heads (32 * is.length) is := by
    rw [sequence, List.append_assoc, List.take_left' hl]
  have hd : (sequence is ++ rest).drop (32 * is.length) = tails is ++ rest := by
    rw [sequence, List.append_assoc, List.drop_left' hl]
  have hr := h [] (32 * is.length) rest hs
  rw [List.append_nil] at hr
  have hl : 32 * is.length ≤ (sequence is ++ rest).length := by
    rw [List.length_append, length_sequence]
    omega
  rw [members, if_pos hl, ht, hd, hr]

theorem run?_sequence (h : Reads d is a) (hs : (sequence is).length < 2 ^ 256) :
    run? is.length d (sequence is) = some a := by
  have := members_sequence h hs []
  rw [List.append_nil] at this
  rw [run?, this]

theorem size_append {n : Nat} (hn : n < 2 ^ 256) (bs : Bytes) :
    size (Bytes.bigEndian 32 n ++ bs) = some (n, bs) := by
  have hw : (FixedBytes.ofNat 32 n).toNat = n := FixedBytes.toNat_ofNat (by omega)
  change size ((FixedBytes.ofNat 32 n).toList ++ bs) = _
  simp [size, FixedBytes.ofList?_append, FixedBytes.drop_append, hw]

theorem content_append (bs rest : Bytes) :
    content bs.length (bs ++ (Bytes.padding bs.length ++ rest)) = some (bs, rest) := by
  simp [content, ← List.drop_drop]

theorem reads_bytes (bs : Bytes) : Reads bytes [.bytes bs] bs := by
  apply reads_block
  intro hl rest
  simp only [List.length_append, Bytes.length_bigEndian] at hl
  rw [List.append_assoc, List.append_assoc, size_append (by omega)]
  exact content_append bs rest

section Arrays

variable {item : α → Item} {as : List α}

theorem reads_times (h : ∀ a ∈ as, Reads d [item a] a) : Reads (times as.length d) (as.map item) as := by
  induction as with
  | nil => exact reads_pure []
  | cons a as hi =>
    have hd := h a List.mem_cons_self
    have hds := hi fun a ha => h a (List.mem_cons_of_mem _ ha)
    have := hd.bind (k := fun a => do pure (a :: (← times as.length d))) (hds.map (a :: ·))
    exact this

theorem reads_array (h : ∀ a ∈ as, Reads d [item a] a) : Reads (array d) [.array (as.map item)] as := by
  apply reads_block
  intro hl rest
  simp only [List.length_append, Bytes.length_bigEndian, length_sequence] at hl
  have hs : (sequence (as.map item)).length < 2 ^ 256 := by
    rw [length_sequence]
    omega
  have hm := members_sequence (reads_times h) hs rest
  rw [List.length_map] at hm hl
  rw [List.append_assoc, List.length_map, size_append (by omega)]
  exact hm

end Arrays

theorem reads_address (a : Address) : Reads address [.word a.toWord] a :=
  reads_word <| Address.ofWord?_toWord a

theorem reads_bool (b : Bool) : Reads bool [.bool b] b := by
  have hw : (FixedBytes.ofNat 32 b.toNat).toNat = b.toNat := FixedBytes.toNat_ofNat (by cases b <;> decide)
  apply reads_word
  rw [hw]
  cases b <;> rfl

theorem reads_uint8 (n : UInt8) : Reads uint8 [.word (FixedBytes.ofNat 32 n.toNat)] n := by
  have hn := n.toNat_lt
  have hw : (FixedBytes.ofNat 32 n.toNat).toNat = n.toNat := FixedBytes.toNat_ofNat (by omega)
  apply reads_word
  rw [hw, if_pos hn, UInt8.ofNat_toNat]

theorem reads_uint256 (n : Uint256) : Reads uint256 [.word n.toWord] n :=
  reads_word <| congrArg some (Uint256.ofWord_toWord n)

end Decoder

end CauldronCalls.Abi
