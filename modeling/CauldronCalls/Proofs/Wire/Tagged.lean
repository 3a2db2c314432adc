import CauldronCalls.Proofs.Json.Printer
import CauldronCalls.Proofs.Wire.Intent

/-!
Intents as objects. Whatever else an object holds, and wherever its tag stands, the tag is looked at first; then the
other entries, in their order, are those of an object of the tag's own fields.
-/

namespace CauldronCalls

-- What is wrong with a value as a tag.
inductive Operation.Tag.Refuses : Json → Mismatch → Prop
  | notText {x : Json} (h : ∀ s, x ≠ .string s) : Refuses x (.wrongType x.shape .variantName)
  | unknown {s : String} (h : ∀ tag : Operation.Tag, s ≠ tag.name) :
    Refuses (.string s) (.unknownVariant s
      ["add_collateral_and_borrow", "repay_and_remove_collateral", "add_collateral_and_leverage"])

namespace Intent

open Outcome Wire

-- The entries are those of an object with a sender, an approval and two parts, of which only the sender must be there.
structure Untagged {α β : Type} (fs : Fields [Address, Option MasterContractApproval, Option α, Option β])
    (parts : List String) (operation : Option α → Option β → Operation) (xs : List (String × Json))
    (o : Except ReadError Intent) : Prop where
  names    : fs.names = ["from", "masterContractApproval"] ++ parts
  required : fs.required = ["from"]
  decides  : fs.Decides (Access.inMemory.mapError .mismatch) (ofRow operation) xs o

def UnderTag (xs : List (String × Json)) (o : Except ReadError Intent) : Operation.Tag → Prop
  | .addCollateralAndBorrow   => Untagged borrowFields ["add", "borrow"] .addCollateralAndBorrow xs o
  | .repayAndRemoveCollateral => Untagged repayFields ["repay", "remove"] .repayAndRemoveCollateral xs o
  | .addCollateralAndLeverage => Untagged leverageFields ["add", "leverage"] .addCollateralAndLeverage xs o

def NoTag (xs : List (String × Json)) : Prop :=
  ∀ e ∈ xs, e.1 ≠ tagField

instance {xs : List (String × Json)} : Decidable (NoTag xs) :=
  inferInstanceAs (Decidable (∀ e ∈ xs, e.1 ≠ tagField))

-- The outcome is that of an object with these entries: its first tag decides what becomes of the others.
structure DecidedByTag (entries : List (String × Json)) (o : Except ReadError Intent) : Prop where
  untagged  : NoTag entries → o = .error (.mismatch (.missingField "operation"))
  mistagged : ∀ before x after m, entries = before ++ ("operation", x) :: after → NoTag before →
    Operation.Tag.Refuses x m → o = .error (.mismatch m)
  retagged  : ∀ before between after (tag : Operation.Tag) x,
    entries = before ++ ("operation", .string tag.name) :: between ++ ("operation", x) :: after → NoTag before →
    NoTag between → o = .error (.mismatch (.duplicateField "operation"))
  tagged    : ∀ before after (tag : Operation.Tag), entries = before ++ ("operation", .string tag.name) :: after →
    NoTag before → NoTag after → UnderTag (before ++ after) o tag

variable {xs before after : List (String × Json)} {tag? : Option Operation.Tag} {tag : Operation.Tag} {x : Json}
  {m : Mismatch}

theorem asTag_name : asTag (.string tag.name) = .ok tag := by
  cases tag <;> decide

theorem asTag_eq_error (h : Operation.Tag.Refuses x m) : asTag x.shape = .error m := by
  cases h
  case notText h =>
    cases x
    case string s => exact absurd rfl (h s)
    all_goals rfl
  case unknown s h =>
    have hf : Operation.Tag.all.find? (·.name == s) = none :=
      List.find?_eq_none.mpr fun tag _ => by simpa using (h tag).symm
    simp only [Json.shape, asTag, Enumeration.asVariant, Enumeration.variant, hf]
    rfl

section Entries

theorem decodeEntries_untagged (h : NoTag xs) : decodeEntries tag? xs = .ok (tag?, xs) := by
  induction xs
  case nil          => rfl
  case cons e xs hi =>
    have ⟨he, h⟩ := List.forall_mem_cons.mp h
    rw [decodeEntries, if_neg he, hi h]
    rfl

theorem decodeEntries_append (h : NoTag before) : decodeEntries tag? (before ++ after) =
    (fun r => (r.1, before ++ r.2)) <$> decodeEntries tag? after := by
  induction before
  case nil              =>
    rw [List.nil_append]
    cases decodeEntries tag? after <;> rfl
  case cons e before hi =>
    have ⟨he, h⟩ := List.forall_mem_cons.mp h
    rw [List.cons_append, decodeEntries, if_neg he, hi h]
    cases decodeEntries tag? after <;> rfl

theorem decodeEntries_first : decodeEntries none (("operation", x) :: xs) =
    asTag x.shape >>= fun tag => decodeEntries (some tag) xs :=
  rfl

theorem decodeEntries_second : decodeEntries (some tag) (("operation", x) :: xs) =
    .error (.duplicateField "operation") :=
  rfl

end Entries

section Objects

variable {s : String} {entries : List (String × Json)}

-- Without its tag, what is before it and what is behind it make up the object.
theorem decode_tagged (hb : NoTag before) (ha : NoTag after) :
    decode (.object (before ++ ("operation", .string tag.name) :: after)) =
      decodeTagged tag (.object (before ++ after)) := by
  rw [decode, decodeEntries_append hb, decodeEntries_first, Json.shape, asTag_name, ok_bind,
    decodeEntries_untagged ha]
  rfl

theorem untagged {α β : Type} {first second : String} {r₁ : Record α} {r₂ : Record β}
    {operation : Option α → Option β → Operation}
    (hn : (["from", "masterContractApproval"] ++ [first, second]).Nodup) :
    Untagged (fields first r₁ second r₂) [first, second] operation xs
      ((ofRow operation <$> (fields first r₁ second r₂).decodeObject xs).mapError .mismatch) where
  names    := rfl
  required := rfl
  decides  := by
    have h : (ofRow operation <$> (fields first r₁ second r₂).decodeObject xs).mapError ReadError.mismatch =
        ofRow operation <$> (fields first r₁ second r₂).gatherObject (Access.inMemory.mapError .mismatch) xs := by
      rw [Fields.gatherObject_mapError, Fields.decodeObject_eq_gatherObject]
      cases (fields first r₁ second r₂).gatherObject .inMemory xs <;> rfl
    have hn : (fields first r₁ second r₂).names.Nodup := hn
    rw [h]
    exact Fields.decides_gatherObject hn _

theorem underTag : UnderTag xs ((decodeTagged tag (.object xs)).mapError .mismatch) tag := by
  cases tag <;> exact untagged (by decide)

theorem decidedByTag : DecidedByTag entries ((decode (.object entries)).mapError .mismatch) where
  untagged h := by
    rw [decode, decodeEntries_untagged h]
    rfl
  mistagged before x after m he hb hx := by
    rw [he, decode, decodeEntries_append hb, decodeEntries_first, asTag_eq_error hx]
    rfl
  retagged before between after tag x he hb hm := by
    rw [he, List.append_assoc, List.cons_append, decode, decodeEntries_append hb, decodeEntries_first, Json.shape,
      asTag_name, ok_bind, decodeEntries_append hm, decodeEntries_second]
    rfl
  tagged before after tag he hb ha := by
    rw [he, decode_tagged hb ha]
    exact underTag

end Objects

-- An intent's object is accepted, or refused, for its tag first and then for what it says under that tag.
theorem object_decidedByTag {entries : List (String × Json)} {s : String}
    (h : Json.Spells 127 (.object entries) s.toList) : DecidedByTag entries (wire.parse s) := by
  rw [parse_eq (Json.parse_of_spells h)]
  exact decidedByTag

-- A repayment does not have to say anything sensible about borrowing.
theorem object_decidedByTag_repay :
    let entries : List (String × Json) := [
      ("borrow", .boolean true), ("from", .array (List.replicate 20 (.number (.natural 0)))),
      ("operation", .string "repay_and_remove_collateral"), ("note", .null), ("add", .null)]
    wire.parse (Json.object entries).toText = .ok ⟨FixedBytes.zero 20, none, .repayAndRemoveCollateral none none⟩ := by
  intro entries
  have hs : Json.Spells 127 (.object entries) (Json.object entries).toText.toList :=
    Json.spells_toText <| by simp [entries, Json.Fits, Json.EntriesFit, Json.ItemsFit, UInt64.size]
  have hu : UnderTag (entries.take 2 ++ entries.drop 3) _ .repayAndRemoveCollateral :=
    object_decidedByTag hs |>.tagged _ _ _ rfl (by decide) (by decide)
  have hd : (Access.inMemory.mapError ReadError.mismatch).get Wire.address
      (.array (List.replicate 20 (.number (.natural 0)))) = .ok (FixedBytes.zero 20) := rfl
  refine hu.decides.value _ |>.mpr ⟨(FixedBytes.zero 20, none, none, none, ()), rfl, ?_⟩
  refine ⟨⟨by decide, ?sender, by decide⟩, ⟨by decide, ?approval, fun _ => rfl⟩, ⟨by decide, ?first, fun _ => rfl⟩,
    ⟨by decide, ?second, fun _ => rfl⟩, trivial⟩
  case sender => simpa [entries, Field.required] using hd
  all_goals simp [entries, Field.optional]

end Intent

end CauldronCalls
