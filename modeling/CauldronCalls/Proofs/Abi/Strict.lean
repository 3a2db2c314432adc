import CauldronCalls.Proofs.Abi.Decoder

/-!
Decoders accept nothing but the standard layout: what a decoder reads is the encoding of the members that its
result stands for. So no two byte strings are read as the same value.
-/

namespace CauldronCalls.Abi

-- The members that lie between two places of a sequence.
structure Cursor.Passes (c : Cursor) (is : List Item) (d : Cursor) : Prop where
  head   : c.head = heads c.offset is ++ d.head
  blocks : c.blocks = tails is ++ d.blocks
  offset : d.offset = c.offset + (tails is).length

namespace Cursor.Passes

variable {c d e : Cursor} {is js : List Item}

theorem nil (c : Cursor) : c.Passes [] c where
  head   := rfl
  blocks := rfl
  offset := rfl

theorem append (hi : c.Passes is d) (hj : d.Passes js e) : c.Passes (is ++ js) e where
  head   := by rw [hi.head, hj.head, hi.offset, heads_append, List.append_assoc]
  blocks := by rw [hi.blocks, hj.blocks, tails_append, List.append_assoc]
  offset := by rw [hj.offset, hi.offset, tails_append, List.length_append, Nat.add_assoc]

theorem word {w : Bytes32} (h : FixedBytes.ofList? 32 (c.head.take 32) = some w) :
    c.Passes [.word w] { c with head := c.head.drop 32 } where
  head   := by simp [heads, Item.head, FixedBytes.toList_of_ofList? h]
  blocks := rfl
  offset := rfl

theorem block {w : Bytes32} {bs rest : Bytes} (h : FixedBytes.ofList? 32 (c.head.take 32) = some w)
    (ho : w.toNat = c.offset) (hb : c.blocks = bs ++ rest) :
    c.Passes [.block bs] ⟨c.head.drop 32, c.offset + (c.blocks.length - rest.length), rest⟩ where
  head := by
    have hw : Bytes.bigEndian 32 c.offset = c.head.take 32 := by
      rw [← ho, w.bigEndian_toNat, FixedBytes.toList_of_ofList? h]
    simp [heads, Item.head, hw]
  blocks := by simp [tails, Item.tail, hb]
  offset := by simp [tails, Item.tail, hb]

end Cursor.Passes

namespace Decoder

variable {α β : Type}

-- All that `d` reads is the encoding of the members that its result stands for.
def Strict (d : Decoder α) (items : α → List Item) : Prop :=
  ∀ c a e, d c = some (a, e) → c.Passes (items a) e

variable {d : Decoder α} {items : α → List Item} {item : α → Item} {a : α} {n : Nat} {bs rest : Bytes}

theorem bind_eq_some {k : α → Decoder β} {b : β} {c e : Cursor} :
    ((d >>= k) c = some (b, e)) ↔ (∃ a m, d c = some (a, m) ∧ k a m = some (b, e)) := by
  change (d c).bind (fun p => k p.1 p.2) = _ ↔ _
  simp [Option.bind_eq_some_iff]

theorem Strict.map {f : α → β} {items' : β → List Item} (h : d.Strict items) (hi : ∀ a, items' (f a) = items a) :
    (f <$> d).Strict items' := by
  intro c b e hd
  change (d c).bind (fun p => some (f p.1, p.2)) = _ at hd
  obtain ⟨⟨a, m⟩, ha, hp⟩ := Option.bind_eq_some_iff.mp hd
  cases hp
  exact hi a ▸ h c a m ha

theorem strict_word {f : Bytes32 → Option α} (h : ∀ w a, f w = some a → item a = .word w) :
    (word f).Strict fun a => [item a] := by
  intro c a e hd
  simp only [word, Option.bind_eq_bind, Option.bind_eq_some_iff, Option.pure_def, Option.some.injEq,
    Prod.mk.injEq] at hd
  obtain ⟨w, hw, _, ha, rfl, rfl⟩ := hd
  have hi := h w _ ha
  simp only [hi]
  exact .word hw

theorem strict_block {f : Bytes → Option (α × Bytes)}
    (h : ∀ bs a rest, f bs = some (a, rest) → ∃ b, (bs = b ++ rest) ∧ (item a = .block b)) :
    (block f).Strict fun a => [item a] := by
  intro c a e hd
  simp only [block, Option.bind_eq_bind, Option.bind_eq_some_iff] at hd
  obtain ⟨w, hw, hd⟩ := hd
  split at hd
  case isFalse => contradiction
  case isTrue ho =>
    obtain ⟨⟨_, rest⟩, hf, hp⟩ := Option.bind_eq_some_iff.mp hd
    cases hp
    obtain ⟨b, hb, hi⟩ := h _ _ _ hf
    simp only [hi]
    exact .block hw ho hb

theorem members_eq_some (hd : d.Strict items) (h : members n d bs = some (a, rest)) :
    ((items a).length = n) ∧ (bs = sequence (items a) ++ rest) := by
  rw [members] at h
  split at h
  case isFalse => contradiction
  case isTrue hn =>
    split at h <;> cases h
    case h_1 offset hp =>
      have hp := hd _ _ _ hp
      have hh := hp.head
      have hl := congrArg List.length hh
      simp only [List.append_nil, List.length_take, length_heads] at hh hl
      have hl : (items a).length = n := by omega
      refine ⟨hl, ?_⟩
      rw [sequence, hl, ← hh, List.append_assoc, ← hp.blocks, List.take_append_drop]

theorem run?_eq_some (hd : d.Strict items) (h : run? n d bs = some a) : bs = sequence (items a) := by
  rw [run?] at h
  split at h <;> cases h
  case h_1 hm =>
    have hs := members_eq_some hd hm |>.right
    rw [List.append_nil] at hs
    exact hs

theorem size_eq_some (h : size bs = some (n, rest)) : bs = Bytes.bigEndian 32 n ++ rest := by
  simp only [size, Option.bind_eq_bind, Option.bind_eq_some_iff, Option.pure_def, Option.some.injEq,
    Prod.mk.injEq] at h
  obtain ⟨w, hw, rfl, rfl⟩ := h
  rw [w.bigEndian_toNat, FixedBytes.toList_of_ofList? hw, List.take_append_drop]

theorem content_eq_some {b : Bytes} (h : content n bs = some (b, rest)) :
    (b.length = n) ∧ (bs = b ++ (Bytes.padding n ++ rest)) := by
  rw [content] at h
  split at h <;> cases h
  case isTrue hp =>
    obtain ⟨hn, t, ht⟩ := hp
    refine ⟨List.length_take_of_le hn, ?_⟩
    rw [← List.drop_drop, ← ht, List.drop_left, ht, List.take_append_drop]

theorem strict_bytes : bytes.Strict fun bs => [.bytes bs] := by
  apply strict_block
  intro bs b rest h
  simp only [Option.bind_eq_bind, Option.bind_eq_some_iff] at h
  have ⟨⟨n, cs⟩, hs, hc⟩ := h
  have ⟨hn, hc⟩ := content_eq_some hc
  refine ⟨_, ?_, rfl⟩
  simp only at hn hc
  rw [size_eq_some hs, hc, hn, List.append_assoc, List.append_assoc]

theorem strict_times (h : d.Strict fun a => [item a]) (n : Nat) : (times n d).Strict (·.map item) := by
  induction n
  case zero =>
    intro c as e hd
    cases hd
    exact .nil c
  case succ n hi =>
    intro c as e hd
    simp only [times, bind_eq_some] at hd
    have ⟨a, m, ha, as, m', has, hp⟩ := hd
    cases hp
    exact (h _ _ _ ha).append (hi _ _ _ has)

theorem strict_array (h : d.Strict fun a => [item a]) : (array d).Strict fun as => [.array (as.map item)] := by
  apply strict_block
  intro bs as rest ha
  simp only [Option.bind_eq_bind, Option.bind_eq_some_iff] at ha
  have ⟨⟨n, cs⟩, hs, hm⟩ := ha
  have ⟨hn, hm⟩ := members_eq_some (strict_times h n) hm
  refine ⟨_, ?_, rfl⟩
  simp only at hn hm
  rw [size_eq_some hs, hm, hn, List.append_assoc]

theorem strict_address : address.Strict fun a => [.word a.toWord] := by
  apply strict_word
  intro w a h
  rw [Address.toWord_of_ofWord? h]

theorem strict_bool : bool.Strict fun b => [.bool b] := by
  apply strict_word
  intro w b h
  split at h
  case isTrue hw =>
    cases h
    rw [Item.bool, Bool.toNat_false, ← hw, w.ofNat_toNat]
  case isFalse =>
    split at h <;> cases h
    case isTrue hw => rw [Item.bool, Bool.toNat_true, ← hw, w.ofNat_toNat]

theorem strict_bytes32 : bytes32.Strict fun w => [.word w] := by
  apply strict_word
  intro w v h
  cases h
  rfl

theorem strict_uint8 : uint8.Strict fun n => [.word (FixedBytes.ofNat 32 n.toNat)] := by
  apply strict_word
  intro w n h
  split at h <;> cases h
  rw [UInt8.toNat_ofNat_of_lt' ‹_›, w.ofNat_toNat]

theorem strict_uint256 : uint256.Strict fun n => [.word n.toWord] := by
  apply strict_word
  intro w n h
  cases h
  rw [Uint256.toWord_ofWord]

end Decoder

end CauldronCalls.Abi
