import CauldronCalls.Call
import CauldronCalls.Proofs.Action.RoundTrip

/-!
How long call data gets. The main statement bounds the call data of a batch by the number of its actions and
the length of their data.
-/

namespace CauldronCalls

namespace Abi

theorem length_padding_le (n : Nat) : (Bytes.padding n).length ≤ 31 := by
  simp only [Bytes.padding, List.length_replicate]
  omega

theorem length_tail_bytes_le (bs : Bytes) : (Item.bytes bs).tail.length ≤ 63 + bs.length := by
  have hp := length_padding_le bs.length
  simp only [Item.bytes, Item.tail, List.length_append, Bytes.length_bigEndian]
  omega

theorem length_tail_array (is : List Item) :
    (Item.array is).tail.length = 32 + 32 * is.length + (tails is).length := by
  simp only [Item.array, Item.tail, List.length_append, Bytes.length_bigEndian, length_sequence]
  omega

theorem tails_words {α : Type} (f : α → Bytes32) (as : List α) : tails (as.map fun a => .word (f a)) = [] := by
  simp [tails, Item.tail]

end Abi

-- How many bytes of an action's data one argument takes up at most.
def Argument.room : Argument → Nat
  | bytes bs     => 95 + bs.length
  | addresses as => 64 + 32 * as.length
  | uints ns     => 64 + 32 * ns.length
  | _            => 32

def Argument.rooms : List Argument → Nat
  | []      => 0
  | a :: as => a.room + rooms as

namespace Param

variable {p : Param} {ps : List Param} {a : Argument} {as : List Argument} {i : Abi.Item} {is : List Abi.Item}

theorem length_fit_le (h : p.fit a = .ok i) : 32 + i.tail.length ≤ a.room := by
  cases a <;> simp only [fit] at h <;> split at h <;> try contradiction
  case amount.isTrue =>
    split at h <;> cases h
    exact Nat.le_refl _
  all_goals cases h
  case bytes.isTrue bs _ =>
    have := Abi.length_tail_bytes_le bs
    simp only [Argument.room]
    omega
  case addresses.isTrue as _ =>
    rw [Abi.length_tail_array, Abi.tails_words, List.length_map]
    simp only [Argument.room, List.length_nil]
    omega
  case uints.isTrue ns _ =>
    rw [Abi.length_tail_array, Abi.tails_words, List.length_map]
    simp only [Argument.room, List.length_nil]
    omega
  all_goals exact Nat.le_refl _

theorem length_fitAll_le (h : fitAll ps as = .ok is) (hl : as.length = ps.length) :
    (Abi.sequence is).length ≤ Argument.rooms as := by
  rw [Abi.length_sequence]
  induction ps generalizing as is <;> cases as <;> simp only [List.length_cons, List.length_nil] at hl
  case nil.nil =>
    cases h
    exact Nat.le_refl _
  case cons.cons hi _ _ =>
    obtain ⟨i, is, hf, hs, rfl⟩ := fitAll_cons h
    have hi := hi hs (by omega)
    have hf := length_fit_le hf
    simp only [List.length_cons, Abi.tails_cons, List.length_append, Argument.rooms] at hi ⊢
    omega
  all_goals contradiction

end Param

theorem Descriptor.length_data_le {d : Descriptor} {v : Uint256} {as : List Argument} {a : Action}
    (h : d.bind v as = .ok a) : a.data.length ≤ Argument.rooms as := by
  obtain ⟨is, hl, hf, rfl⟩ := bind_ok h
  exact Param.length_fitAll_le hf hl

namespace Batch

variable {as : List Action} {n : Nat}

theorem length_tails_datas_le (h : ∀ a ∈ as, a.data.length ≤ n) :
    (Abi.tails (as.map fun a => .bytes a.data)).length ≤ as.length * (63 + n) := by
  induction as with
  | nil => simp [Abi.tails]
  | cons a as hi =>
    have hi := hi fun a ha => h a (List.mem_cons_of_mem _ ha)
    have ha := h a List.mem_cons_self
    have hb := Abi.length_tail_bytes_le a.data
    simp only [List.map_cons, Abi.tails_cons, List.length_append, List.length_cons, Nat.add_mul]
    omega

theorem items_ofActions (as : List Action) :
    (ofActions as).items = [
      .array (as.map fun a => .word (FixedBytes.ofNat 32 a.opcode.toNat)),
      .array (as.map fun a => .word a.value.toWord),
      .array (as.map fun a => .bytes a.data)] := by
  simp only [items, ofActions, List.map_map, Function.comp_def]

theorem length_data_le (h : ∀ a ∈ as, a.data.length ≤ n) :
    (Call.cook (ofActions as)).data.length ≤ 196 + as.length * (159 + n) := by
  have hd := length_tails_datas_le h
  rw [Call.data, items_ofActions, List.length_append, Abi.length_sequence]
  simp only [Abi.tails_cons, Abi.tails_nil, List.length_append, Abi.length_tail_array, Abi.tails_words,
    List.length_map, List.length_cons, List.length_nil, Selector.cook, Nat.mul_add] at hd ⊢
  omega

end Batch

end CauldronCalls
