import CauldronCalls.Proofs.Wire.Spelling
import CauldronCalls.Proofs.Wire.Tagged
import CauldronCalls.Session

/-!
Every text of an intent means the intent, whatever the order of its fields, the notation of its values and what else
stands among them; and it is compiled for that meaning alone.
-/

namespace CauldronCalls

open Wire Outcome

section Specification

def MasterContractApproval.named (a : MasterContractApproval) : List Named := [
  .required "user" FixedBytes.SpelledBy a.user,
  .required "masterContract" FixedBytes.SpelledBy a.masterContract,
  .required "approved" (fun b x => x = .boolean b) a.approved,
  .required "v" (fun v x => x = .number (.natural v.toNat)) a.v,
  .required "r" FixedBytes.SpelledBy a.r,
  .required "s" FixedBytes.SpelledBy a.s]

def AddCollateral.named (a : AddCollateral) : List Named := [
  .required "token" Asset.SpelledBy a.token,
  .required "amount" Uint256.SpelledBy a.amount]

def Borrow.named (b : Borrow) : List Named := [
  .required "amount" Uint256.SpelledBy b.amount,
  .optional "to" FixedBytes.SpelledBy b.recipient]

def Repay.named (r : Repay) : List Named := [
  .required "token" FixedBytes.SpelledBy r.token,
  .required "amount" Uint256.SpelledBy r.amount,
  .optional "to" FixedBytes.SpelledBy r.recipient]

def RemoveCollateral.named (r : RemoveCollateral) : List Named := [
  .required "token" Asset.SpelledBy r.token,
  .required "amount" Uint256.SpelledBy r.amount,
  .optional "to" FixedBytes.SpelledBy r.recipient]

def Leverage.named (l : Leverage) : List Named := [
  .required "amount" Uint256.SpelledBy l.amount,
  .required "minShareOut" Uint256.SpelledBy l.minShareOut,
  .optional "to" FixedBytes.SpelledBy l.recipient]

-- The tag, what every intent has, and the two parts that its operation may have.
def Intent.named (i : Intent) : List Named :=
  match i.operation with
  | .addCollateralAndBorrow add borrow     => under "add_collateral_and_borrow" [
    .optional "add" (Named.SpelledByRecord ∘ AddCollateral.named) add,
    .optional "borrow" (Named.SpelledByRecord ∘ Borrow.named) borrow]
  | .repayAndRemoveCollateral repay remove => under "repay_and_remove_collateral" [
    .optional "repay" (Named.SpelledByRecord ∘ Repay.named) repay,
    .optional "remove" (Named.SpelledByRecord ∘ RemoveCollateral.named) remove]
  | .addCollateralAndLeverage add leverage => under "add_collateral_and_leverage" [
    .optional "add" (Named.SpelledByRecord ∘ AddCollateral.named) add,
    .optional "leverage" (Named.SpelledByRecord ∘ Leverage.named) leverage]
where
  under (tag : String) (parts : List Named) : List Named :=
    .required "operation" (fun tag x => x = .string tag) tag ::
    .required "from" FixedBytes.SpelledBy i.sender ::
    .optional "masterContractApproval" (Named.SpelledByRecord ∘ MasterContractApproval.named) i.approval :: parts

-- The text holds an object that says the intent and may say more, with no more than 127 brackets open at once.
inductive Intent.SpelledBy (i : Intent) (s : String) : Prop
  | mk {entries : List (String × Json)} (hs : Json.Spells 127 (.object entries) s.toList)
    (hn : ∀ n ∈ i.named, n.SpelledIn entries)

end Specification

section Parts

variable {name : String}

theorem takes_bytes {n : Nat} (b : FixedBytes n) :
    (Field.required name (byteString n)).Takes b (.required name FixedBytes.SpelledBy b) :=
  Field.takes_required (fun _ _ h => h.decode_eq) b

theorem takes_optional_bytes {n : Nat} (b : Option (FixedBytes n)) :
    (Field.optional name (byteString n)).Takes b (.optional name FixedBytes.SpelledBy b) :=
  Field.takes_optional (fun _ _ h => h.decode_eq) (fun _ => nofun) b

theorem takes_amount (a : Uint256) : (Field.required name amount).Takes a (.required name Uint256.SpelledBy a) :=
  Field.takes_required (fun _ _ h => h.decode_eq) a

theorem takes_asset (a : Asset) : (Field.required name asset).Takes a (.required name Asset.SpelledBy a) :=
  Field.takes_required (fun _ _ h => h.decode_eq) a

theorem takes_boolean (b : Bool) :
    (Field.required name boolean).Takes b (.required name (fun b x => x = .boolean b) b) :=
  Field.takes_required (fun _ _ h => h ▸ rfl) b

theorem takes_uint8 (v : UInt8) :
    (Field.required name uint8).Takes v (.required name (fun v x => x = .number (.natural v.toNat)) v) :=
  Field.takes_required (fun v _ h => h ▸ (faithful_uint8 : uint8.Faithful 0).decode_encode v) v

theorem takes_optional_record {ρ : Type} {r : Record ρ} {named : ρ → List Named}
    (hr : ∀ a x, Named.SpelledByRecord (named a) x → r.wire.decode x = .ok a) (a : Option ρ) :
    (Field.optional name r.wire).Takes a (.optional name (Named.SpelledByRecord ∘ named) a) :=
  Field.takes_optional hr (fun _ => nofun) a

theorem MasterContractApproval.decode_spelled (a : MasterContractApproval) (x : Json)
    (h : Named.SpelledByRecord a.named x) : record.wire.decode x = .ok a :=
  Record.decode_spelled h (by decide) rfl
    ⟨takes_bytes _, takes_bytes _, takes_boolean _, takes_uint8 _, takes_bytes _, takes_bytes _, trivial⟩

theorem AddCollateral.decode_spelled (a : AddCollateral) (x : Json) (h : Named.SpelledByRecord a.named x) :
    record.wire.decode x = .ok a :=
  Record.decode_spelled h (by decide) rfl ⟨takes_asset _, takes_amount _, trivial⟩

theorem Borrow.decode_spelled (b : Borrow) (x : Json) (h : Named.SpelledByRecord b.named x) :
    record.wire.decode x = .ok b :=
  Record.decode_spelled h (by decide) rfl ⟨takes_amount _, takes_optional_bytes _, trivial⟩

theorem Repay.decode_spelled (r : Repay) (x : Json) (h : Named.SpelledByRecord r.named x) :
    record.wire.decode x = .ok r :=
  Record.decode_spelled h (by decide) rfl ⟨takes_bytes _, takes_amount _, takes_optional_bytes _, trivial⟩

theorem RemoveCollateral.decode_spelled (r : RemoveCollateral) (x : Json) (h : Named.SpelledByRecord r.named x) :
    record.wire.decode x = .ok r :=
  Record.decode_spelled h (by decide) rfl ⟨takes_asset _, takes_amount _, takes_optional_bytes _, trivial⟩

theorem Leverage.decode_spelled (l : Leverage) (x : Json) (h : Named.SpelledByRecord l.named x) :
    record.wire.decode x = .ok l :=
  Record.decode_spelled h (by decide) rfl ⟨takes_amount _, takes_amount _, takes_optional_bytes _, trivial⟩

end Parts

namespace Named

variable {n : Named} {before after entries : List (String × Json)} {k : String} {x : Json}

-- The value stands under the name, and nothing else does.
theorem spelledIn_of_filter (h : entries.filter (·.1 == n.name) = [(n.name, x)]) (hx : n.spelledBy x) :
    n.SpelledIn entries where
  once      := by
    rw [List.count, List.countP_map, List.countP_eq_length_filter]
    exact congrArg List.length h |>.le
  value y hy := by
    have hm : (n.name, y) ∈ entries.filter (·.1 == n.name) := List.mem_filter.mpr ⟨hy, beq_self_eq_true _⟩
    rw [h] at hm
    cases List.mem_singleton.mp hm
    exact hx
  present   := by
    have hm : (n.name, x) ∈ entries.filter (·.1 == n.name) := h ▸ List.mem_singleton_self _
    exact .inl <| List.mem_map_of_mem (List.mem_filter.mp hm).left

theorem spelledIn_of_not_mem (h : n.name ∉ entries.map Prod.fst) (ho : n.omissible) : n.SpelledIn entries where
  once       := List.count_eq_zero_of_not_mem h |>.trans_le (Nat.zero_le _)
  value _ hx := absurd (List.mem_map_of_mem hx) h
  present    := .inr ho

-- What has to be there stands in one place.
theorem SpelledIn.exists_split (h : n.SpelledIn entries) (ho : ¬n.omissible) :
    ∃ before x after, entries = before ++ (n.name, x) :: after ∧ n.spelledBy x ∧
      (∀ e ∈ before, e.1 ≠ n.name) ∧ (∀ e ∈ after, e.1 ≠ n.name) := by
  have ⟨⟨k, x⟩, hm, hk⟩ := List.mem_map.mp <| h.present.resolve_right ho
  cases hk
  have hx := h.value x hm
  have hc := h.once
  obtain ⟨before, after, rfl⟩ := List.append_of_mem hm
  rw [List.map_append, List.map_cons, List.count_append, List.count_cons_self] at hc
  have hb : n.name ∉ before.map Prod.fst := List.count_eq_zero.mp (by omega)
  have ha : n.name ∉ after.map Prod.fst := List.count_eq_zero.mp (by omega)
  refine ⟨before, x, after, rfl, hx, fun e he hk => hb ?_, fun e he hk => ha ?_⟩
  · exact hk ▸ List.mem_map_of_mem he
  · exact hk ▸ List.mem_map_of_mem he

-- An entry of another name does not matter.
theorem SpelledIn.of_insert (h : n.SpelledIn (before ++ (k, x) :: after)) (hk : n.name ≠ k) :
    n.SpelledIn (before ++ after) where
  once    := by simpa [List.count_cons_of_ne hk.symm] using h.once
  value y hy := h.value y <| by
    rw [List.mem_append, List.mem_cons]
    exact List.mem_append.mp hy |>.imp id .inr
  present := by simpa [hk] using h.present

end Named

namespace Intent

variable {i : Intent} {entries : List (String × Json)} {s : String}

theorem decode_spelled_under {αs : List Type} {ns : List Named} (tag : Operation.Tag) (fs : Fields αs)
    (build : Wire.Row αs → Intent) (row : Wire.Row αs)
    (hs : ∀ n ∈ Named.required "operation" (fun tag x => x = .string tag) tag.name :: ns, n.SpelledIn entries)
    (hd : ("operation" :: fs.names).Nodup)
    (ht : ∀ xs, decodeTagged tag (.object xs) = build <$> fs.decodeObject xs) (hk : fs.Take row ns) :
    decode (.object entries) = .ok (build row) := by
  have ⟨hm, hd⟩ := List.nodup_cons.mp hd
  have ⟨ho, hs⟩ := List.forall_mem_cons.mp hs
  obtain ⟨before, _, after, rfl, rfl, hb, ha⟩ := ho.exists_split id
  have hs : ∀ n ∈ ns, n.SpelledIn (before ++ after) := by
    intro n hn
    have hn' : n.name ∈ fs.names := hk.names ▸ List.mem_map_of_mem hn
    exact hs n hn |>.of_insert fun he : n.name = "operation" => hm <| he ▸ hn'
  have hr : fs.decodeObject (before ++ after) = .ok row :=
    Fields.decodeObject_eq_gatherObject.trans <| Fields.gatherObject_eq_ok hd |>.mpr <| hk.each hs
  exact decode_tagged hb ha |>.trans <| ht _ |>.trans <| Outcome.map_eq_ok.mpr ⟨row, hr, rfl⟩

theorem take_fields {α β : Type} {r₁ : Record α} {r₂ : Record β} {a : Option α} {b : Option β} {p q : Named}
    (first second : String) (sender : Address) (approval : Option MasterContractApproval)
    (hp : (Field.optional first r₁.wire).Takes a p) (hq : (Field.optional second r₂.wire).Takes b q) :
    (fields first r₁ second r₂).Take (sender, approval, a, b, ()) [
      .required "from" FixedBytes.SpelledBy sender,
      .optional "masterContractApproval" (Named.SpelledByRecord ∘ MasterContractApproval.named) approval, p, q] :=
  ⟨takes_bytes _, takes_optional_record MasterContractApproval.decode_spelled _, hp, hq, trivial⟩

theorem decode_spelled (h : ∀ n ∈ i.named, n.SpelledIn entries) : decode (.object entries) = .ok i := by
  obtain ⟨sender, approval, operation⟩ := i
  cases operation
  case addCollateralAndBorrow add borrow =>
    have hk := take_fields "add" "borrow" sender approval (takes_optional_record AddCollateral.decode_spelled add)
      (takes_optional_record Borrow.decode_spelled borrow)
    exact decode_spelled_under .addCollateralAndBorrow borrowFields _ _ h (by decide) (fun _ => rfl) hk
  case repayAndRemoveCollateral repay remove =>
    have hk := take_fields "repay" "remove" sender approval (takes_optional_record Repay.decode_spelled repay)
      (takes_optional_record RemoveCollateral.decode_spelled remove)
    exact decode_spelled_under .repayAndRemoveCollateral repayFields _ _ h (by decide) (fun _ => rfl) hk
  case addCollateralAndLeverage add leverage =>
    have hk := take_fields "add" "leverage" sender approval (takes_optional_record AddCollateral.decode_spelled add)
      (takes_optional_record Leverage.decode_spelled leverage)
    exact decode_spelled_under .addCollateralAndLeverage leverageFields _ _ h (by decide) (fun _ => rfl) hk

theorem SpelledBy.parse_eq (h : i.SpelledBy s) : wire.parse s = .ok i := by
  obtain ⟨hs, hn⟩ := h
  rw [Intent.parse_eq (Json.parse_of_spells hs), decode_spelled hn]
  rfl

-- Whatever says the intent is read as the intent, so that what becomes of it does not depend on how it is said.
theorem meaning_of_spelling {t : String} (hs : i.SpelledBy s) (ht : i.SpelledBy t) :
    wire.parse s = .ok i ∧ ∀ σ : Session, σ.attempt (.compile s) = σ.attempt (.compile t) := by
  refine ⟨hs.parse_eq, fun σ => ?_⟩
  have hp : wire.parse s = wire.parse t := hs.parse_eq.trans ht.parse_eq.symm
  simp only [Session.attempt, parseFrom, hp]

open Named in
-- A leverage as an object among other entries, and as a list.
theorem meaning_of_spelling_leverage :
    let i : Intent := ⟨⟨List.replicate 20 0xab, rfl⟩, none, .addCollateralAndLeverage none (some ⟨7, 2, none⟩)⟩
    let x : Json := .object [
      ("leverage", .object [
        ("minShareOut", .string "0B1_0"), ("note", .array []), ("to", .null), ("amount", .number (.natural 7))]),
      ("borrow", .boolean true),
      ("from", .string "0xAbAbAbAbAbAbAbAbAbAbAbAbAbAbAbAbAbAbAbAb"),
      ("operation", .string "add_collateral_and_leverage")]
    let y : Json := .object [
      ("operation", .string "add_collateral_and_leverage"),
      ("from", .array (List.replicate 20 (.number (.natural 0xab)))),
      ("add", .null),
      ("leverage", .array [.string "007", .string "0x02", .null])]
    i.SpelledBy x.toText ∧ i.SpelledBy y.toPrettyText ∧ wire.parse x.toText = .ok i ∧
      ∀ σ : Session, σ.attempt (.compile x.toText) = σ.attempt (.compile y.toPrettyText) := by
  intro i x y
  have sender : Hex.BytesText i.sender.toList "0xAbAbAbAbAbAbAbAbAbAbAbAbAbAbAbAbAbAbAbAb".toList :=
    @Hex.BytesText.mk _ ['0', 'x'] _ (by decide) (by decide)
  have binary : Uint256.NumberText 2 "0B1_0".toList :=
    .mk (.binary (by decide)) (.digit (v := 1) (by decide) (.underscore (.digit (v := 0) (by decide) .done))) rfl
  have decimal : Uint256.NumberText 7 "007".toList :=
    .mk .decimal (.digit (v := 0) (by decide) (.digit (v := 0) (by decide) (.digit (v := 7) (by decide) .done))) rfl
  have hexadecimal : Uint256.NumberText 2 "0x02".toList :=
    .mk (.hexadecimal (by decide)) (.digit (v := 0) (by decide) (.digit (v := 2) (by decide) .done)) rfl
  have hs : i.SpelledBy x.toText := by
    refine .mk (Json.spells_toText (by simp [Json.Fits, Json.EntriesFit, Json.ItemsFit, UInt64.size])) ?_
    simp only [named, named.under, List.forall_mem_cons, i]
    refine ⟨spelledIn_of_filter rfl rfl, spelledIn_of_filter rfl (.text sender),
      spelledIn_of_not_mem (by decide) trivial, spelledIn_of_not_mem (by decide) trivial,
      spelledIn_of_filter rfl (.object ?_), List.forall_mem_nil _⟩
    simp only [Leverage.named, List.forall_mem_cons]
    exact ⟨spelledIn_of_filter rfl (.integer (a := 7) (by decide)), spelledIn_of_filter rfl (.text binary),
      spelledIn_of_filter rfl rfl, List.forall_mem_nil _⟩
  have ht : i.SpelledBy y.toPrettyText := by
    refine .mk (Json.spells_toPrettyText (by simp [Json.Fits, Json.EntriesFit, Json.ItemsFit, UInt64.size])) ?_
    simp only [named, named.under, List.forall_mem_cons, i]
    exact ⟨spelledIn_of_filter rfl rfl, spelledIn_of_filter rfl .octets, spelledIn_of_not_mem (by decide) trivial,
      spelledIn_of_filter rfl rfl,
      spelledIn_of_filter rfl (.list (.cons (.text decimal) (.cons (.text hexadecimal) (.cons rfl .nil)))), List.forall_mem_nil _⟩
  exact ⟨hs, ht, meaning_of_spelling hs ht⟩

end Intent

end CauldronCalls
