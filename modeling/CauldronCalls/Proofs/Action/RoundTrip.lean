import CauldronCalls.Action
import CauldronCalls.Proofs.Abi.Decoder
import CauldronCalls.Proofs.Amount

/-!
Reading the data of an action back by the schema of its descriptor. Whatever arguments were bound, these are
the arguments that the data holds.
-/

namespace CauldronCalls

namespace ParamType

def decoder : ParamType → Abi.Decoder Argument
  | address      => .address <$> .address
  | bool         => .bool <$> .bool
  | uint8        => (fun n => .uint (BitVec.ofNat 256 n.toNat)) <$> .uint8
  | uint256      => .uint <$> .uint256
  | int256       => .amount <$> .word (some ∘ Amount.ofWord)
  | bytes32      => .word <$> .bytes32
  | bytes        => .bytes <$> .bytes
  | addressArray => .addresses <$> .array .address
  | uint256Array => .uints <$> .array .uint256

end ParamType

namespace Param

theorem reads_small {n : Uint256} (h : n.toNat ≤ 255) :
    ParamType.uint8.decoder.Reads [.word n.toWord] (.uint n) := by
  have hn : (UInt8.ofNat n.toNat).toNat = n.toNat := by
    rw [UInt8.toNat_ofNat']
    omega
  have hr := (Abi.Decoder.reads_uint8 (UInt8.ofNat n.toNat)).map fun n =>
    Argument.uint (BitVec.ofNat 256 n.toNat)
  rw [hn, BitVec.ofNat_toNat, BitVec.setWidth_eq] at hr
  exact hr

theorem reads_amount {a : Amount} {v : Uint256} (h : a.toSigned? = some v) :
    ParamType.int256.decoder.Reads [.word v.toWord] (.amount a) := by
  have hr : (Abi.Decoder.word (some ∘ Amount.ofWord)).Reads [.word v.toWord] a := by
    apply Abi.Decoder.reads_word
    rw [Function.comp_apply, Amount.ofWord_toWord h]
  rw [ParamType.decoder]
  exact hr.map Argument.amount

theorem reads_fit {p : Param} {a : Argument} {i : Abi.Item} (h : p.fit a = .ok i) :
    p.type.decoder.Reads [i] a := by
  cases a <;> simp only [fit] at h <;> split at h <;> try contradiction
  case uint.isTrue n ht =>
    cases h
    obtain ht | ⟨ht, hn⟩ := ht <;> rw [ht]
    · exact (Abi.Decoder.reads_uint256 n).map Argument.uint
    · exact reads_small hn
  case amount.isTrue a ht =>
    split at h <;> cases h
    rw [ht]
    exact reads_amount ‹_›
  -- Each of the other shapes fits one type of slot.
  all_goals
    cases h
    rw [‹p.type = _›, ParamType.decoder]
  case address.isTrue a _ => exact (Abi.Decoder.reads_address a).map Argument.address
  case bool.isTrue b _    => exact (Abi.Decoder.reads_bool b).map Argument.bool
  case word.isTrue w _    => exact (Abi.Decoder.reads_word (f := some) rfl).map Argument.word
  case bytes.isTrue bs _  => exact (Abi.Decoder.reads_bytes bs).map Argument.bytes
  case addresses.isTrue as _ =>
    have hr := Abi.Decoder.reads_array fun a (_ : a ∈ as) => Abi.Decoder.reads_address a
    exact hr.map Argument.addresses
  case uints.isTrue ns _ =>
    have hr := Abi.Decoder.reads_array fun n (_ : n ∈ ns) => Abi.Decoder.reads_uint256 n
    exact hr.map Argument.uints

theorem fitAll_cons {p : Param} {ps : List Param} {a : Argument} {as : List Argument} {is : List Abi.Item}
    (h : fitAll (p :: ps) (a :: as) = .ok is) :
    ∃ i js, p.fit a = .ok i ∧ fitAll ps as = .ok js ∧ is = i :: js := by
  cases hi : p.fit a <;> cases hj : fitAll ps as <;>
    simp only [fitAll, hi, hj, bind, Except.bind, pure, Except.pure, reduceCtorEq, Except.ok.injEq] at h
  exact ⟨_, _, rfl, rfl, h.symm⟩

theorem length_fitAll {ps : List Param} {as : List Argument} {is : List Abi.Item}
    (h : fitAll ps as = .ok is) (hl : as.length = ps.length) : is.length = ps.length := by
  induction ps generalizing as is <;> cases as <;> simp only [List.length_cons, List.length_nil] at hl
  case nil.nil =>
    cases h
    rfl
  case cons.cons hi _ _ =>
    obtain ⟨i, js, _, hj, rfl⟩ := fitAll_cons h
    rw [List.length_cons, List.length_cons, hi hj (by omega)]
  all_goals contradiction

theorem reads_fitAll {ps : List Param} {as : List Argument} {is : List Abi.Item}
    (h : fitAll ps as = .ok is) (hl : as.length = ps.length) :
    Abi.Decoder.Reads (ps.mapM (·.type.decoder)) is as := by
  induction ps generalizing as is <;> cases as <;> simp only [List.length_cons, List.length_nil] at hl
  case nil.nil =>
    cases h
    exact Abi.Decoder.reads_pure []
  case cons.cons p ps hi a as =>
    obtain ⟨i, js, hf, hj, rfl⟩ := fitAll_cons h
    rw [List.mapM_cons]
    have hr := (hi hj (by omega)).bind (k := fun as => pure (a :: as)) <| Abi.Decoder.reads_pure (a :: as)
    rw [List.append_nil] at hr
    exact (reads_fit hf).bind hr
  all_goals contradiction

end Param

namespace Descriptor

-- The arguments in strictly encoded data for the schema of `d`.
def argsOfData? (d : Descriptor) (bs : Bytes) : Option (List Argument) :=
  Abi.Decoder.run? d.params.length (d.params.mapM (·.type.decoder)) bs

variable {d : Descriptor} {v : Uint256} {as : List Argument} {a : Action}

theorem bind_ok (h : d.bind v as = .ok a) :
    ∃ is, as.length = d.params.length ∧ Param.fitAll d.params as = .ok is ∧
      a = ⟨d.opcode, if d.carriesNative then v else 0, Abi.sequence is⟩ := by
  rw [bind] at h
  split at h
  case isTrue => contradiction
  case isFalse hl =>
    split at h <;> cases h
    exact ⟨_, Decidable.not_not.mp hl, ‹_›, rfl⟩

theorem argsOfData?_bind (h : d.bind v as = .ok a) (hs : a.data.length < 2 ^ 256) :
    d.argsOfData? a.data = some as := by
  obtain ⟨is, hl, hf, rfl⟩ := bind_ok h
  have hr := Abi.Decoder.run?_sequence (Param.reads_fitAll hf hl) hs
  rw [Param.length_fitAll hf hl] at hr
  exact hr

end Descriptor

end CauldronCalls
