import CauldronCalls.Call
import CauldronCalls.Proofs.Abi.Strict

/-!
Reading call data back. The call data of a batch gives back the three arrays, and these the actions; that of a
direct borrow gives back the recipient and the amount. So different calls have different call data. And nothing
else is read: whatever is taken for a call is that call's data.

No hypothesis is made but that the call data is shorter than a word can count.
-/

namespace CauldronCalls

-- What follows the selector `s`, if the call data begins with it.
def Selector.strip? (s bs : Bytes) : Option Bytes :=
  if s <+: bs then some (bs.drop s.length) else none

theorem Selector.strip?_append (s bs : Bytes) : strip? s (s ++ bs) = some bs := by
  simp [strip?]

theorem Selector.append_of_strip? {s bs cs : Bytes} (h : strip? s bs = some cs) : s ++ cs = bs := by
  rw [strip?] at h
  split at h <;> cases h
  case isTrue hp => exact List.prefix_iff_eq_append.mp hp

namespace Batch

def decoder : Abi.Decoder Batch := do
  let actions ← .array .uint8
  let values ← .array .uint256
  let datas ← .array .bytes
  pure ⟨actions, values, datas⟩

-- The batch of strictly encoded call data of `cook(uint8[],uint256[],bytes[])`.
def ofData? (bs : Bytes) : Option Batch := do
  let args ← Selector.strip? Selector.cook bs
  decoder.run? 3 args

-- The actions that three arrays stand for, place by place.
def toActions (b : Batch) : List Action :=
  List.zipWith (fun o (v, d) => ⟨o, v, d⟩) b.actions (b.values.zip b.datas)

theorem toActions_ofActions (as : List Action) : (ofActions as).toActions = as := by
  induction as with
  | nil => rfl
  | cons a as hi => exact congrArg (a :: ·) hi

theorem ofActions_inj {as bs : List Action} (h : ofActions as = ofActions bs) : as = bs := by
  rw [← toActions_ofActions as, h, toActions_ofActions]

theorem reads_items (b : Batch) : decoder.Reads b.items b := by
  have ha := Abi.Decoder.reads_array fun o (_ : o ∈ b.actions) => Abi.Decoder.reads_uint8 o
  have hv := Abi.Decoder.reads_array fun v (_ : v ∈ b.values) => Abi.Decoder.reads_uint256 v
  have hd := Abi.Decoder.reads_array fun d (_ : d ∈ b.datas) => Abi.Decoder.reads_bytes d
  exact ha.bind <| hv.bind <| hd.bind <| Abi.Decoder.reads_pure b

theorem ofData?_data {b : Batch} (h : (Call.cook b).data.length < 2 ^ 256) :
    ofData? (Call.cook b).data = some b := by
  rw [Call.data, List.length_append] at h
  have hr := Abi.Decoder.run?_sequence b.reads_items (Nat.lt_of_le_of_lt (Nat.le_add_left ..) h)
  have hl : b.items.length = 3 := rfl
  rw [hl] at hr
  simp only [ofData?, Call.data, Selector.strip?_append, Option.bind_eq_bind, Option.bind_some, hr]

theorem strict_decoder : decoder.Strict items := by
  intro c b e h
  simp only [decoder, Abi.Decoder.bind_eq_some] at h
  have ⟨actions, _, ha, values, _, hv, datas, _, hd, hp⟩ := h
  cases hp
  have ha := Abi.Decoder.strict_array Abi.Decoder.strict_uint8 _ _ _ ha
  have hv := Abi.Decoder.strict_array Abi.Decoder.strict_uint256 _ _ _ hv
  have hd := Abi.Decoder.strict_array Abi.Decoder.strict_bytes _ _ _ hd
  exact ha.append <| hv.append hd

theorem data_of_ofData? {bs : Bytes} {b : Batch} (h : ofData? bs = some b) : (Call.cook b).data = bs := by
  simp only [ofData?, Option.bind_eq_bind, Option.bind_eq_some_iff] at h
  have ⟨args, hs, hd⟩ := h
  rw [Call.data, ← Abi.Decoder.run?_eq_some strict_decoder hd, Selector.append_of_strip? hs]

end Batch

namespace Call

def borrowDecoder : Abi.Decoder (Address × Uint256) := do
  let recipient ← .address
  let amount ← .uint256
  pure (recipient, amount)

-- The recipient and the amount of strictly encoded call data of `borrow(address,uint256)`.
def borrowOfData? (bs : Bytes) : Option (Address × Uint256) := do
  let args ← Selector.strip? Selector.borrow bs
  borrowDecoder.run? 2 args

theorem reads_borrow (recipient : Address) (amount : Uint256) :
    borrowDecoder.Reads [.word recipient.toWord, .word amount.toWord] (recipient, amount) :=
  (Abi.Decoder.reads_address recipient).bind <|
    (Abi.Decoder.reads_uint256 amount).bind <| Abi.Decoder.reads_pure (recipient, amount)

theorem borrowOfData?_data (recipient : Address) (amount : Uint256) :
    borrowOfData? (borrow recipient amount).data = some (recipient, amount) := by
  have hs : (Abi.sequence [.word recipient.toWord, .word amount.toWord]).length < 2 ^ 256 := by
    simp [Abi.length_sequence, Abi.tails, Abi.Item.tail]
  have hr := Abi.Decoder.run?_sequence (reads_borrow recipient amount) hs
  have hl : [Abi.Item.word recipient.toWord, .word amount.toWord].length = 2 := rfl
  rw [hl] at hr
  simp only [borrowOfData?, data, Selector.strip?_append, Option.bind_eq_bind, Option.bind_some, hr]

theorem strict_borrowDecoder : borrowDecoder.Strict fun (r, n) => [.word r.toWord, .word n.toWord] := by
  intro c p e h
  simp only [borrowDecoder, Abi.Decoder.bind_eq_some] at h
  have ⟨recipient, _, hr, amount, _, hn, hp⟩ := h
  cases hp
  have hr := Abi.Decoder.strict_address _ _ _ hr
  have hn := Abi.Decoder.strict_uint256 _ _ _ hn
  exact hr.append hn

theorem data_of_borrowOfData? {bs : Bytes} {recipient : Address} {amount : Uint256}
    (h : borrowOfData? bs = some (recipient, amount)) : (borrow recipient amount).data = bs := by
  simp only [borrowOfData?, Option.bind_eq_bind, Option.bind_eq_some_iff] at h
  have ⟨args, hs, hd⟩ := h
  rw [data, ← Selector.append_of_strip? hs, Abi.Decoder.run?_eq_some strict_borrowDecoder hd]

-- The selectors tell the two kinds of calls apart.
theorem borrow_data_ne_cook_data (recipient : Address) (amount : Uint256) (b : Batch) :
    (borrow recipient amount).data ≠ (cook b).data := by
  simp [data, Selector.borrow, Selector.cook]

theorem data_inj {c d : Call} (hc : c.data.length < 2 ^ 256) (h : c.data = d.data) : c = d := by
  cases c <;> cases d
  case borrow.borrow recipient amount _ _ =>
    have hb := borrowOfData?_data recipient amount
    rw [h, borrowOfData?_data] at hb
    cases hb
    rfl
  case cook.cook =>
    have hb := Batch.ofData?_data hc
    rw [h, Batch.ofData?_data (h ▸ hc)] at hb
    cases hb
    rfl
  case borrow.cook => exact borrow_data_ne_cook_data _ _ _ h |>.elim
  case cook.borrow => exact borrow_data_ne_cook_data _ _ _ h.symm |>.elim

-- The three lists of a batch that is made of actions run in step.
theorem ofBatch_ofActions (as : List Action) : ofBatch (Batch.ofActions as) = .ok (cook (Batch.ofActions as)) := by
  simp [ofBatch, Batch.ofActions]

theorem ofActions_eq_cook {as : List Action} (h : as ≠ []) :
    ofActions as = .ok (cook (Batch.ofActions as)) := by
  cases as
  case nil  => contradiction
  case cons => exact ofBatch_ofActions _

-- The call data of actions gives the actions back, in order, and that of a direct borrow its recipient and
-- amount. Only call data is read, and no two calls share theirs.
theorem data_faithful :
    (∀ as, as ≠ [] → ∃ b, (ofActions as = .ok (cook b)) ∧
      ((cook b).data.length < 2 ^ 256 → ∃ b', (Batch.ofData? (cook b).data = some b') ∧
        (b'.actions.length = as.length) ∧ (b'.values.length = as.length) ∧ (b'.datas.length = as.length) ∧
        (b'.toActions = as))) ∧
    (∀ recipient amount, borrowOfData? (borrow recipient amount).data = some (recipient, amount)) ∧
    (∀ bs b, Batch.ofData? bs = some b → (cook b).data = bs) ∧
    (∀ bs recipient amount,
      borrowOfData? bs = some (recipient, amount) → (borrow recipient amount).data = bs) ∧
    (∀ c d : Call, c.data.length < 2 ^ 256 → c.data = d.data → c = d) := by
  refine ⟨?actions, borrowOfData?_data, fun _ _ => Batch.data_of_ofData?, fun _ _ _ => data_of_borrowOfData?,
    fun _ _ => data_inj⟩
  intro as h
  refine ⟨Batch.ofActions as, ofActions_eq_cook h, ?_⟩
  intro hl
  refine ⟨_, Batch.ofData?_data hl, ?_, ?_, ?_, Batch.toActions_ofActions as⟩ <;> exact List.length_map ..

theorem data_faithful_two :
    ∃ b, (ofActions [⟨20, 1, [7]⟩, ⟨10, 0, []⟩] = .ok (cook b)) ∧
      ∃ b', (Batch.ofData? (cook b).data = some b') ∧ (b'.toActions = [⟨20, 1, [7]⟩, ⟨10, 0, []⟩]) := by
  have ⟨b, hb, h⟩ := data_faithful.left [⟨20, 1, [7]⟩, ⟨10, 0, []⟩] (by decide)
  have hl : (cook b).data.length < 2 ^ 256 := by
    cases hb
    decide +kernel
  have ⟨b', hb', _, _, _, ha⟩ := h hl
  exact ⟨b, hb, b', hb', ha⟩

end Call

end CauldronCalls
