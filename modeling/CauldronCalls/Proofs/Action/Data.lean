import CauldronCalls.Proofs.Abi.Strict
import CauldronCalls.Proofs.Action.Fit
import CauldronCalls.Proofs.Call.Length

/-!
What the data of an action holds. Every argument stands for one member of a sequence, whichever slot it is put into,
and the data is the sequence of these members. So it is read back as the arguments, and no other data is.
-/

namespace CauldronCalls

open Outcome

namespace Argument

-- The member of the data that stands for the argument.
def item : Argument → Abi.Item
  | address a    => .word a.toWord
  | bool b       => .bool b
  | uint n       => .word n.toWord
  | amount a     => .word (Uint256.toWord a.word)
  | word w       => .word w
  | bytes bs     => .bytes bs
  | addresses as => .array (as.map fun a => .word a.toWord)
  | uints ns     => .array (ns.map fun n => .word n.toWord)

theorem length_tail_item (a : Argument) : a.item.tail.length % 32 = 0 := by
  cases a
  case bytes bs =>
    have hp := Bytes.length_append_padding bs
    simp only [item, Abi.Item.bytes, Abi.Item.tail, List.length_append, Bytes.length_bigEndian] at hp ⊢
    omega
  case addresses as =>
    rw [item, Abi.length_tail_array, Abi.tails_words, List.length_nil]
    omega
  case uints ns =>
    rw [item, Abi.length_tail_array, Abi.tails_words, List.length_nil]
    omega
  all_goals rfl

-- Heads are whole words, and every block is padded to whole words.
theorem length_sequence_items (as : List Argument) : (Abi.sequence (as.map item)).length % 32 = 0 := by
  have ht : (Abi.tails (as.map item)).length % 32 = 0 := by
    induction as
    case nil          => rfl
    case cons a as hi =>
      have ha := a.length_tail_item
      rw [List.map_cons, Abi.tails_cons, List.length_append]
      omega
  rw [Abi.length_sequence]
  omega

end Argument

theorem ParamType.strict_decoder (t : ParamType) : t.decoder.Strict fun a => [a.item] := by
  cases t
  case address => exact Abi.Decoder.strict_address.map fun _ => rfl
  case bool    => exact Abi.Decoder.strict_bool.map fun _ => rfl
  case uint8   =>
    refine Abi.Decoder.strict_uint8.map fun n => ?_
    have hn : (BitVec.ofNat 256 n.toNat).toNat = n.toNat := by
      have := n.toNat_lt
      rw [BitVec.toNat_ofNat]
      omega
    rw [Argument.item, Uint256.toWord, hn]
  case uint256 => exact Abi.Decoder.strict_uint256.map fun _ => rfl
  case int256  =>
    have hs : (Abi.Decoder.word (some ∘ Amount.ofWord)).Strict fun a => [.word (Uint256.toWord a.word)] := by
      apply Abi.Decoder.strict_word
      intro w a h
      cases h
      rw [Amount.word_ofWord, Uint256.toWord_ofWord]
    exact hs.map fun _ => rfl
  case bytes32      => exact Abi.Decoder.strict_bytes32.map fun _ => rfl
  case bytes        => exact Abi.Decoder.strict_bytes.map fun _ => rfl
  case addressArray => exact (Abi.Decoder.strict_array Abi.Decoder.strict_address).map fun _ => rfl
  case uint256Array => exact (Abi.Decoder.strict_array Abi.Decoder.strict_uint256).map fun _ => rfl

namespace Param

variable {p : Param} {ps : List Param} {a : Argument} {as : List Argument} {i : Abi.Item} {is : List Abi.Item}

theorem item_of_fit (h : p.fit a = .ok i) : i = a.item := by
  cases a <;> simp only [fit] at h <;> split at h <;> try contradiction
  case amount.isTrue a _ =>
    split at h <;> cases h
    case h_1 hv => rw [Argument.item, Amount.word_of_toSigned? hv, Uint256.toWord]
  all_goals
    cases h
    rfl

theorem items_of_fitAll (h : fitAll ps as = .ok is) (hl : as.length = ps.length) : is = as.map Argument.item := by
  induction ps generalizing as is <;> cases as <;> simp only [List.length_cons, List.length_nil] at hl
  case nil.nil =>
    cases h
    rfl
  case cons.cons hi _ _ =>
    obtain ⟨i, is, hf, hs, rfl⟩ := fitAll_cons h
    rw [List.map_cons, item_of_fit hf, hi hs (by omega)]
  all_goals contradiction

theorem strict_decoders (ps : List Param) :
    Abi.Decoder.Strict (ps.mapM (·.type.decoder)) (List.map Argument.item) := by
  induction ps
  case nil =>
    intro c as e hd
    cases hd
    exact .nil c
  case cons p ps hi =>
    intro c as e hd
    simp only [List.mapM_cons, Abi.Decoder.bind_eq_some] at hd
    obtain ⟨a, m, ha, as, m', has, hp⟩ := hd
    cases hp
    exact (p.type.strict_decoder _ _ _ ha).append (hi _ _ _ has)

end Param

namespace Descriptor

variable {d : Descriptor} {v : Uint256} {as : List Argument} {a : Action}

theorem bind_eq_ok_iff : d.bind v as = .ok a ↔
    as.Forall₂ (fun a p => a.Fits p.type) d.params ∧
    a = ⟨d.opcode, if d.carriesNative then v else 0, Abi.sequence (as.map Argument.item)⟩ := by
  constructor
  case mp =>
    intro h
    refine ⟨bind_ok_iff.mp ⟨a, h⟩, ?_⟩
    obtain ⟨is, hl, hf, rfl⟩ := bind_ok h
    rw [Param.items_of_fitAll hf hl]
  case mpr =>
    rintro ⟨hf, rfl⟩
    obtain ⟨a, ha⟩ := bind_ok_iff (v := v).mpr hf
    obtain ⟨is, hl, hs, rfl⟩ := bind_ok ha
    rw [ha, Param.items_of_fitAll hs hl]

theorem data_of_argsOfData? {bs : Bytes} (h : d.argsOfData? bs = some as) :
    bs = Abi.sequence (as.map Argument.item) :=
  Abi.Decoder.run?_eq_some (Param.strict_decoders d.params) h

-- The arguments are read back from the data, which is made of whole words and is the only data that is read as them.
-- So two bindings that share their data share their arguments.
theorem bind_decodes (h : d.bind v as = .ok a) (hs : a.data.length < 2 ^ 256) :
    (d.argsOfData? a.data = some as) ∧
    (a.data.length % 32 = 0) ∧
    (∀ bs, d.argsOfData? bs = some as → bs = a.data) ∧
    (∀ w bs b, d.bind w bs = .ok b → b.data = a.data → bs = as) := by
  have hd := argsOfData?_bind h hs
  refine ⟨hd, ?whole, ?only, ?shared⟩
  case whole =>
    obtain ⟨_, rfl⟩ := bind_eq_ok_iff.mp h
    exact Argument.length_sequence_items as
  case only =>
    obtain ⟨_, rfl⟩ := bind_eq_ok_iff.mp h
    exact fun bs hb => data_of_argsOfData? hb
  case shared =>
    intro w bs b hb he
    have hb := argsOfData?_bind hb (he ▸ hs)
    rw [he, hd] at hb
    exact Option.some.inj hb.symm

-- Two lists and a byte string, whose places depend on the lengths of those before them.
theorem bind_decodes_liquidate :
    ∃ a, (ActionKind.liquidate.descriptor.bind 0
        [.addresses [.zero, .zero], .uints [7], .address .zero, .address .zero, .bytes [1, 2, 3]] = .ok a) ∧
      (ActionKind.liquidate.descriptor.argsOfData? a.data =
        some [.addresses [.zero, .zero], .uints [7], .address .zero, .address .zero, .bytes [1, 2, 3]]) ∧
      (a.data.length % 32 = 0) := by
  obtain ⟨a, ha⟩ : ∃ a, ActionKind.liquidate.descriptor.bind 0
      [.addresses [.zero, .zero], .uints [7], .address .zero, .address .zero, .bytes [1, 2, 3]] = .ok a := ⟨_, rfl⟩
  have hs : a.data.length < 2 ^ 256 := Nat.lt_of_le_of_lt (length_data_le ha) (by decide)
  obtain ⟨hd, hl, _⟩ := bind_decodes ha hs
  exact ⟨a, ha, hd, hl⟩

end Descriptor

end CauldronCalls
