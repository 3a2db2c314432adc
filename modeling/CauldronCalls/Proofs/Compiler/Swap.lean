import CauldronCalls.Proofs.Compiler.Layout

/-!
The call of a leverage's swapper. A batch holds it without its last argument, the share to swap, which is known only
when the batch runs and is put behind it then. The main statement is that the call is complete with any share, and asks
for the swap that the leverage describes.
-/

namespace CauldronCalls

open Outcome

namespace Abi

theorem heads_words (offset : Nat) (ws : List Bytes32) : heads offset (ws.map .word) = ws.flatMap (·.toList) := by
  induction ws generalizing offset
  case nil       => rfl
  case cons w ws hi => rw [List.map_cons, heads, hi, List.flatMap_cons, Item.head]

-- Words have no blocks behind them, so a sequence of words goes on wherever it ends.
theorem sequence_words (ws : List Bytes32) : sequence (ws.map .word) = ws.flatMap (·.toList) := by
  rw [sequence, heads_words, tails_words, List.append_nil]

end Abi

-- The arguments of a swapper's call.
structure Swap where
  recipient : Address
  minShareOut : Uint256
  share : Uint256
deriving DecidableEq

namespace Swap

variable {s : Swap}

def words (s : Swap) : List Bytes32 :=
  [s.recipient.toWord, s.minShareOut.toWord, s.share.toWord]

def data (s : Swap) : Bytes :=
  Selector.swap ++ Abi.sequence (s.words.map .word)

def decoder : Abi.Decoder Swap := do
  let recipient ← .address
  let minShareOut ← .uint256
  let share ← .uint256
  pure ⟨recipient, minShareOut, share⟩

-- The arguments in strictly encoded call data of `swap(address,uint256,uint256)`.
def ofData? (bs : Bytes) : Option Swap := do
  let args ← Selector.strip? Selector.swap bs
  decoder.run? 3 args

theorem reads_words (s : Swap) : decoder.Reads (s.words.map .word) s :=
  (Abi.Decoder.reads_address s.recipient).bind <|
    (Abi.Decoder.reads_uint256 s.minShareOut).bind <|
      (Abi.Decoder.reads_uint256 s.share).bind <| Abi.Decoder.reads_pure s

theorem ofData?_data (s : Swap) : ofData? s.data = some s := by
  have hs : (Abi.sequence (s.words.map .word)).length < 2 ^ 256 := by
    rw [Abi.sequence_words]
    simp [words, FixedBytes.length_toList]
  have hr := Abi.Decoder.run?_sequence s.reads_words hs
  have hl : (s.words.map Abi.Item.word).length = 3 := rfl
  rw [hl] at hr
  simp only [ofData?, data, Selector.strip?_append, Option.bind_eq_bind, Option.bind_some, hr]

theorem strict_decoder : decoder.Strict fun s => s.words.map .word := by
  intro c s e h
  simp only [decoder, Abi.Decoder.bind_eq_some] at h
  have ⟨recipient, _, hr, minShareOut, _, hm, share, _, hs, hp⟩ := h
  cases hp
  have hr := Abi.Decoder.strict_address _ _ _ hr
  have hm := Abi.Decoder.strict_uint256 _ _ _ hm
  have hs := Abi.Decoder.strict_uint256 _ _ _ hs
  exact hr.append <| hm.append hs

theorem data_of_ofData? {bs : Bytes} (h : ofData? bs = some s) : s.data = bs := by
  simp only [ofData?, Option.bind_eq_bind, Option.bind_eq_some_iff] at h
  have ⟨args, hs, hd⟩ := h
  rw [data, ← Abi.Decoder.run?_eq_some strict_decoder hd, Selector.append_of_strip? hs]

-- The share completes the call.
theorem swapCall_append (s : Swap) : Demand.swapCall s.recipient s.minShareOut ++ s.share.toWord.toList = s.data := by
  have hw : Demand.swapCall s.recipient s.minShareOut =
      Selector.swap ++ Abi.sequence ([s.recipient.toWord, s.minShareOut.toWord].map .word) :=
    rfl
  rw [hw, data, Abi.sequence_words, Abi.sequence_words, words]
  simp only [List.flatMap_cons, List.flatMap_nil, List.append_nil, List.append_assoc]

end Swap

namespace Intent

-- One step of an intent with a leverage is a call, and it is the call of the swapper.
theorem exists_call_of_leverage (w sender : Address) (approval : Option MasterContractApproval)
    (add : Option AddCollateral) (l : Leverage) :
    ∃ k, (∀ m : Nat, (mk sender approval (.addCollateralAndLeverage add (some l))).opcodes[m]? = some 30 ↔ m = k) ∧
      (((mk sender approval (.addCollateralAndLeverage add (some l))).invocations w)[k]? =
        some ⟨.call, [
          .address w, .bytes (Demand.swapCall sender l.minShareOut), .bool false, .bool true, .uint 2]⟩) := by
  cases approval <;> cases add
  case' none.none => refine ⟨1, ?_, rfl⟩
  case' none.some => refine ⟨3, ?_, rfl⟩
  case' some.none => refine ⟨2, ?_, rfl⟩
  case' some.some => refine ⟨4, ?_, rfl⟩
  -- There are six steps at most.
  all_goals rintro (_ | _ | _ | _ | _ | _ | _) <;> simp [opcodes, parts, Operation.parts, Part.opcodes]

end Intent

namespace Compiler

theorem compile_leverage_ok {c : Compiler} {l : Leverage} (sender : Address)
    (approval : Option MasterContractApproval) (add : Option AddCollateral)
    (hk : c.cauldron.leverageSwapper.kind = .simpleSwap) (hn : l.amount.toNat < 2 ^ 255) :
    ∃ b, c.compile ⟨sender, approval, .addCollateralAndLeverage add (some l)⟩ = .ok (.cook b) := by
  obtain ⟨x, hx⟩ | ⟨e, he⟩ := ok_or_error (c.compile ⟨sender, approval, .addCollateralAndLeverage add (some l)⟩)
  case inl =>
    cases x
    case borrow =>
      have ⟨_, _, hb⟩ := isDirect_compile hx |>.mp rfl
      exact nomatch hb.operation
    case cook b => exact ⟨b, hx⟩
  case inr =>
    cases compile_error_iff.mp he
    case swapper hs     => contradiction
    case leverage h _ _ =>
      simp [Intent.parts, Operation.parts] at h
      subst h
      omega
    all_goals simp_all [Intent.parts, Operation.parts]

theorem compile_swap (c : Compiler) (sender : Address) (approval : Option MasterContractApproval)
    (add : Option AddCollateral) (l : Leverage)
    (hk : c.cauldron.leverageSwapper.kind = .simpleSwap) (hn : l.amount.toNat < 2 ^ 255) :
    ∃ b k data,
      (c.compile ⟨sender, approval, .addCollateralAndLeverage add (some l)⟩ = .ok (.cook b)) ∧
      (∀ m : Nat, b.actions[m]? = some 30 ↔ m = k) ∧
      b.Holds k ⟨.call, [
        .address c.cauldron.leverageSwapper.address, .bytes data, .bool false, .bool true, .uint 2]⟩ ∧
      (∀ share : Uint256, Swap.ofData? (data ++ share.toWord.toList) = some ⟨sender, l.minShareOut, share⟩) ∧
      (∀ bs s, Swap.ofData? bs = some s → s.data = bs) := by
  have ⟨b, hc⟩ := compile_leverage_ok sender approval add hk hn
  have ⟨k, ho, hi⟩ := Intent.exists_call_of_leverage c.cauldron.leverageSwapper.address sender approval add l
  rw [← actions_compile hc] at ho
  refine ⟨b, k, _, hc, ho, holds_compile hc hi, ?complete, fun _ _ => Swap.data_of_ofData?⟩
  case complete =>
    intro share
    rw [Swap.swapCall_append ⟨sender, l.minShareOut, share⟩, Swap.ofData?_data]

-- The largest share there is, swapped after a deposit.
theorem compile_swap_deposit :
    ∃ b k data,
      ((mk ⟨"", 1, 0, ⟨.zero, .v1⟩, ⟨.zero, .simpleSwap⟩⟩ true).compile
        ⟨.zero, none, .addCollateralAndLeverage (some ⟨.native, 2⟩) (some ⟨3, 4, none⟩)⟩ = .ok (.cook b)) ∧
      (∀ m : Nat, b.actions[m]? = some 30 ↔ m = k) ∧
      b.Holds k ⟨.call, [.address .zero, .bytes data, .bool false, .bool true, .uint 2]⟩ ∧
      (Swap.ofData? (data ++ (Uint256.toWord (BitVec.allOnes 256)).toList) = some ⟨.zero, 4, BitVec.allOnes 256⟩) := by
  have ⟨b, k, data, hc, hk, hd, hs, _⟩ := compile_swap ⟨⟨"", 1, 0, ⟨.zero, .v1⟩, ⟨.zero, .simpleSwap⟩⟩, true⟩ .zero none
    (some ⟨.native, 2⟩) ⟨3, 4, none⟩ rfl (by decide)
  exact ⟨b, k, data, hc, hk, hd, hs _⟩

end Compiler

end CauldronCalls
