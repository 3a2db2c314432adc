import CauldronCalls.Proofs.Wire.RoundTrip

/-!
The amount of a deposit within the JSON form of an intent that deposits and borrows. Whatever else the form holds, it is
accepted with another amount if and only if that amount is, and the intent is then the same but for the amount.
-/

namespace CauldronCalls

open Outcome Wire

namespace AddCollateral

def amountField : String := "amount"

-- Where the form of a deposit has its amount: anywhere in an object, under its name, or second in a list.
inductive Place where
  | entry (before after : List (String × Json))
  | item (token : Json) (after : List Json)

def Place.put : Place → Json → Json
  | entry before after, x => .object (before ++ (amountField, x) :: after)
  | item token after, x   => .array (token :: x :: after)

variable {p : Place} {x y : Json} {a b : AddCollateral} {n : Uint256}

theorem amount_of_decode (h : record.wire.decode (p.put x) = .ok a) : Wire.amount.decode x = .ok a.amount := by
  cases p
  case entry before after =>
    obtain ⟨⟨_, _, _⟩, hr, rfl⟩ := map_eq_ok.mp h
    obtain ⟨_, hr⟩ := Fields.decodeObject_insert_other (by decide) |>.mp hr
    obtain ⟨_, hn, _⟩ := Fields.decodeObject_insert_own.mp hr
    exact hn
  case item token after =>
    obtain ⟨⟨_, _, _⟩, hr, rfl⟩ := map_eq_ok.mp h
    obtain ⟨_, hr⟩ := Fields.inOrder_cons.mp <| Fields.decodeList_eq_ok.mp hr
    obtain ⟨hn, _⟩ := Fields.inOrder_cons.mp hr
    exact hn

theorem decode_put (h : record.wire.decode (p.put x) = .ok a) (hn : Wire.amount.decode y = .ok n) :
    record.wire.decode (p.put y) = .ok { a with amount := n } := by
  cases p
  case entry before after =>
    obtain ⟨⟨_, _, _⟩, hr, rfl⟩ := map_eq_ok.mp h
    obtain ⟨ht, hr⟩ := Fields.decodeObject_insert_other (by decide) |>.mp hr
    obtain ⟨ho, _, hr⟩ := Fields.decodeObject_insert_own.mp hr
    refine map_eq_ok.mpr ⟨(_, n, ()), Fields.decodeObject_insert_other (by decide) |>.mpr ⟨ht, ?_⟩, rfl⟩
    exact Fields.decodeObject_insert_own.mpr ⟨ho, hn, hr⟩
  case item token after =>
    obtain ⟨⟨_, _, _⟩, hr, rfl⟩ := map_eq_ok.mp h
    obtain ⟨ht, hr⟩ := Fields.inOrder_cons.mp <| Fields.decodeList_eq_ok.mp hr
    obtain ⟨_, hr⟩ := Fields.inOrder_cons.mp hr
    refine map_eq_ok.mpr ⟨(_, n, ()), Fields.decodeList_eq_ok.mpr ?_, rfl⟩
    exact Fields.inOrder_cons.mpr ⟨ht, Fields.inOrder_cons.mpr ⟨hn, hr⟩⟩

theorem decode_put_iff (h : record.wire.decode (p.put x) = .ok a) :
    record.wire.decode (p.put y) = .ok b ↔ ∃ n, Wire.amount.decode y = .ok n ∧ b = { a with amount := n } := by
  constructor
  case mp =>
    intro hb
    have hn := amount_of_decode hb
    exact ⟨_, hn, Except.ok.inj <| hb.symm.trans <| decode_put h hn⟩
  case mpr =>
    rintro ⟨n, hn, rfl⟩
    exact decode_put h hn

end AddCollateral

namespace Intent

def addField : String := "add"

-- Where the form of an intent has its deposit: anywhere in an object, under its name, or fourth in a list.
inductive DepositPlace where
  | entry (before after : List (String × Json))
  | item (tag sender approval : Json) (after : List Json)

def DepositPlace.put : DepositPlace → Json → Json
  | entry before after, x             => .object (before ++ (addField, x) :: after)
  | item tag sender approval after, x => .array (tag :: sender :: approval :: x :: after)

-- What is left of the form without its tag.
def DepositPlace.untagged : DepositPlace → Json → Json
  | entry before after, x           => .object (tagEntry.others before ++ (addField, x) :: tagEntry.others after)
  | item _ sender approval after, x => .array (sender :: approval :: x :: after)

def DepositPlace.Tagged : DepositPlace → Operation.Tag → Prop
  | entry before after, t => tagEntry.Gives (before ++ after) t
  | item tag _ _ _, t     => asTag tag.shape = .ok t

variable {p : DepositPlace} {x y : Json} {i j : Intent} {tag tag' : Operation.Tag} {name : String} {sender : Address}
  {approval : Option MasterContractApproval} {add add' : Option AddCollateral} {borrow : Option Borrow}
  {row : Row AddCollateral Borrow}

theorem decode_put_eq_ok :
    decode (p.put x) = .ok i ↔ ∃ tag, p.Tagged tag ∧ decodeTagged tag (p.untagged x) = .ok i := by
  cases p
  case entry before after =>
    have hn : tagEntry.name ≠ addField := by decide
    simp only [DepositPlace.put, decode_object, Wire.Field.gives_insert_other hn, Wire.Field.others_insert_other hn]
    rfl
  case item => exact bind_eq_ok

theorem DepositPlace.Tagged.unique (h : p.Tagged tag) (h' : p.Tagged tag') : tag = tag' := by
  cases p
  case entry before after =>
    simp only [Tagged, Wire.Field.Gives] at h h'
    generalize tagEntry.own (before ++ after) = es at h h'
    rcases es with _ | ⟨_, _ | _⟩
    · exact Option.some.inj <| h.symm.trans h'
    · exact Except.ok.inj <| h.symm.trans h'
    · contradiction
  case item => exact Except.ok.inj <| h.symm.trans h'

theorem add_of_rowOf (h : decodeTagged.rowOf name borrowFields (p.untagged x) = .ok row) :
    AddCollateral.record.wire.optional.decode x = .ok row.2.2.1 := by
  obtain ⟨_, _, _, _⟩ := row
  cases p
  case entry =>
    obtain ⟨_, h⟩ := Fields.decodeObject_insert_other (by decide) |>.mp h
    obtain ⟨_, h⟩ := Fields.decodeObject_insert_other (by decide) |>.mp h
    obtain ⟨_, ha, _⟩ := Fields.decodeObject_insert_own.mp h
    exact ha
  case item =>
    obtain ⟨_, h⟩ := Fields.inOrder_cons.mp <| Fields.decodeList_eq_ok.mp h
    obtain ⟨_, h⟩ := Fields.inOrder_cons.mp h
    obtain ⟨ha, _⟩ := Fields.inOrder_cons.mp h
    exact ha

theorem rowOf_put (h : decodeTagged.rowOf name borrowFields (p.untagged x) = .ok row)
    (ha : AddCollateral.record.wire.optional.decode y = .ok add) :
    decodeTagged.rowOf name borrowFields (p.untagged y) = .ok (row.1, row.2.1, add, row.2.2.2) := by
  obtain ⟨_, _, _, _⟩ := row
  cases p
  case entry =>
    obtain ⟨hs, h⟩ := Fields.decodeObject_insert_other (by decide) |>.mp h
    obtain ⟨hp, h⟩ := Fields.decodeObject_insert_other (by decide) |>.mp h
    obtain ⟨ho, _, h⟩ := Fields.decodeObject_insert_own.mp h
    refine Fields.decodeObject_insert_other (by decide) |>.mpr ⟨hs, ?_⟩
    refine Fields.decodeObject_insert_other (by decide) |>.mpr ⟨hp, ?_⟩
    exact Fields.decodeObject_insert_own.mpr ⟨ho, ha, h⟩
  case item =>
    obtain ⟨hs, h⟩ := Fields.inOrder_cons.mp <| Fields.decodeList_eq_ok.mp h
    obtain ⟨hp, h⟩ := Fields.inOrder_cons.mp h
    obtain ⟨_, h⟩ := Fields.inOrder_cons.mp h
    refine Fields.decodeList_eq_ok.mpr ?_
    exact Fields.inOrder_cons.mpr ⟨hs, Fields.inOrder_cons.mpr ⟨hp, Fields.inOrder_cons.mpr ⟨ha, h⟩⟩⟩

theorem tag_of_decodeTagged (h : decodeTagged tag x = .ok i) : i.operation.tag = tag := by
  cases tag <;>
    obtain ⟨_, _, rfl⟩ := map_eq_ok.mp h <;>
    rfl

-- The form is accepted with another part to deposit if and only if the part is.
theorem decode_put_iff (h : decode (p.put x) = .ok ⟨sender, approval, .addCollateralAndBorrow add borrow⟩) :
    decode (p.put y) = .ok j ↔
      ∃ add', AddCollateral.record.wire.optional.decode y = .ok add' ∧
        j = ⟨sender, approval, .addCollateralAndBorrow add' borrow⟩ := by
  obtain ⟨tag, ht, hi⟩ := decode_put_eq_ok.mp h
  obtain rfl := tag_of_decodeTagged hi
  obtain ⟨row, hr, he⟩ := map_eq_ok.mp hi
  cases he
  simp only [decode_put_eq_ok]
  constructor
  case mp =>
    rintro ⟨tag', ht', hj⟩
    obtain rfl := ht.unique ht'
    obtain ⟨row', hr', rfl⟩ := map_eq_ok.mp hj
    have ha := add_of_rowOf hr'
    have he : row' = (row.1, row.2.1, row'.2.2.1, row.2.2.2) := Except.ok.inj <| hr'.symm.trans <| rowOf_put hr ha
    exact ⟨_, ha, congrArg (ofRow _) he⟩
  case mpr =>
    rintro ⟨add', ha, rfl⟩
    exact ⟨_, ht, map_eq_ok.mpr ⟨_, rowOf_put hr ha, rfl⟩⟩

-- The place of the amount within that of the deposit.
structure AmountPlace where
  deposit : DepositPlace
  amount : AddCollateral.Place

def AmountPlace.put (p : AmountPlace) (x : Json) : Json :=
  p.deposit.put (p.amount.put x)

theorem decode_amount_string {s : String} {n : Uint256} :
    Wire.amount.decode (.string s) = .ok n ↔ Uint256.parse? s = some n := by
  simp only [Wire.amount, Wire.ofShape, Json.shape, Wire.asAmount]
  cases Uint256.parse? s <;> simp

-- A part to deposit is never null.
theorem decode_optional_put {p : AddCollateral.Place} :
    AddCollateral.record.wire.optional.decode (p.put x) = some <$> AddCollateral.record.wire.decode (p.put x) := by
  cases p <;> rfl

theorem decode_amount_iff {p : AmountPlace} {token : Asset} {a : Uint256} {s : String}
    (h : decode (p.put x) = .ok ⟨sender, approval, .addCollateralAndBorrow (some ⟨token, a⟩) borrow⟩) :
    decode (p.put (.string s)) = .ok j ↔
      ∃ n, Uint256.parse? s = some n ∧ j = ⟨sender, approval, .addCollateralAndBorrow (some ⟨token, n⟩) borrow⟩ := by
  have hd : AddCollateral.record.wire.decode (p.amount.put x) = .ok ⟨token, a⟩ := by
    obtain ⟨add, ha, he⟩ := decode_put_iff h |>.mp h
    obtain ⟨d, hd, rfl⟩ := map_eq_ok.mp <| decode_optional_put.symm.trans ha
    cases he
    exact hd
  rw [AmountPlace.put, decode_put_iff h]
  simp only [decode_optional_put, map_eq_ok, AddCollateral.decode_put_iff hd, decode_amount_string]
  constructor
  case mp =>
    rintro ⟨_, ⟨_, ⟨n, hn, rfl⟩, rfl⟩, rfl⟩
    exact ⟨n, hn, rfl⟩
  case mpr =>
    rintro ⟨n, hn, rfl⟩
    exact ⟨_, ⟨_, ⟨n, hn, rfl⟩, rfl⟩, rfl⟩

end Intent

end CauldronCalls
