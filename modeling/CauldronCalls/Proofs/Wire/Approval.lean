import CauldronCalls.Proofs.Wire.RoundTrip

/-!
The approval within the JSON form of an intent. Put in the place of a missing one, an approval is read for what it is,
and everything else is read as before.
-/

namespace CauldronCalls.Intent

open Outcome Wire

def approvalField : String := "masterContractApproval"

-- Where the form of an intent has its approval: anywhere in an object, under its name, or third in a list.
inductive Place where
  | entry (before after : List (String × Json))
  | item (tag sender : Json) (after : List Json)

def Place.put : Place → Json → Json
  | entry before after, x    => .object (before ++ (approvalField, x) :: after)
  | item tag sender after, x => .array (tag :: sender :: x :: after)

-- Whatever parts are looked for, `y` gives the row that `x` gives, but for the approval.
def Replaces (approval : Option MasterContractApproval) (x y : Json) : Prop :=
  ∀ ⦃α β : Type⦄ (name first second : String) (r₁ : Record α) (r₂ : Record β) (row : Row α β),
    decodeTagged.rowOf name (fields first r₁ second r₂) x = .ok row →
    decodeTagged.rowOf name (fields first r₁ second r₂) y = .ok (row.1, approval, row.2.2)

variable {approval : Option MasterContractApproval} {before after : List (String × Json)} {tag : Operation.Tag}
  {sender x y : Json} {xs : List Json} {i : Intent} {p : Place}

theorem Replaces.decodeTagged (h : Replaces approval x y) (hi : decodeTagged tag x = .ok i) :
    decodeTagged tag y = .ok { i with approval := approval } := by
  cases tag <;>
    obtain ⟨row, hr, rfl⟩ := map_eq_ok.mp hi <;>
    exact map_eq_ok.mpr ⟨_, h _ _ _ _ _ row hr, rfl⟩

theorem replaces_entry (h : MasterContractApproval.record.wire.optional.decode x = .ok approval) :
    Replaces approval (.object (before ++ (approvalField, .null) :: after))
      (.object (before ++ (approvalField, x) :: after)) := by
  intro _ _ _ _ _ _ _ ⟨_, _, _⟩ hr
  have ⟨hs, hr⟩ := Fields.decodeObject_insert_other (by decide) |>.mp hr
  have ⟨hn, _, hr⟩ := Fields.decodeObject_insert_own.mp hr
  exact Fields.decodeObject_insert_other (by decide) |>.mpr ⟨hs, Fields.decodeObject_insert_own.mpr ⟨hn, h, hr⟩⟩

theorem replaces_item (h : MasterContractApproval.record.wire.optional.decode x = .ok approval) :
    Replaces approval (.array (sender :: .null :: xs)) (.array (sender :: x :: xs)) := by
  intro _ _ _ _ _ _ _ ⟨_, _, _⟩ hr
  have hr := Fields.decodeList_eq_ok.mp hr
  have ⟨hs, hr⟩ := Fields.inOrder_cons.mp hr
  have ⟨_, hr⟩ := Fields.inOrder_cons.mp hr
  exact Fields.decodeList_eq_ok.mpr <| Fields.inOrder_cons.mpr ⟨hs, Fields.inOrder_cons.mpr ⟨h, hr⟩⟩

theorem decode_put (h : MasterContractApproval.record.wire.optional.decode x = .ok approval)
    (hi : decode (p.put .null) = .ok i) : decode (p.put x) = .ok { i with approval := approval } := by
  cases p
  case entry =>
    have ⟨tag, ht, hi⟩ := decode_object.mp hi
    have hn : tagEntry.name ≠ approvalField := by decide
    rw [Wire.Field.others_insert_other hn] at hi
    refine decode_object.mpr ⟨tag, ?tag, ?others⟩
    case tag    => exact Wire.Field.gives_insert_other hn |>.mpr <| Wire.Field.gives_insert_other hn |>.mp ht
    case others =>
      rw [Wire.Field.others_insert_other hn]
      exact replaces_entry h |>.decodeTagged hi
  case item =>
    have ⟨tag, ht, hi⟩ := bind_eq_ok.mp hi
    exact bind_eq_ok.mpr ⟨tag, ht, replaces_item h |>.decodeTagged hi⟩

end CauldronCalls.Intent
