import CauldronCalls.Proofs.Wire.Record
import CauldronCalls.Proofs.Wire.Steady
import CauldronCalls.Wire.Parts

/-!
Records as objects that are read straight from a text: exactly the complete and unambiguous ones are accepted, whatever
the order of their entries and whatever stands under names that nobody knows.
-/

namespace CauldronCalls

-- A text that holds an object with these members and nothing else.
structure Json.ObjectText (depth : Nat) (ms : List Member) (cs : List Char) : Prop where
  values : ∀ m ∈ ms, Spells depth m.value m.text
  text   : ∃ before inner after, Blank before ∧ MembersText ms inner ∧ Blank after ∧
    cs = before ++ ('{' :: inner ++ ['}']) ++ after

def Json.Member.spelling (m : Member) : String × String :=
  (m.name, String.ofList m.text)

theorem Json.ObjectText.spells {depth : Nat} {ms : List Json.Member} {cs : List Char}
    (h : Json.ObjectText depth ms cs) : Json.Spells (depth + 1) (.object (ms.map Json.Member.entry)) cs := by
  obtain ⟨hv, before, inner, after, hb, hm, ha, rfl⟩ := h
  exact .blanks hb (.object hv hm) ha

-- Every text of an object has this form.
theorem Json.Spells.objectText {depth : Nat} {entries : List (String × Json)} {cs : List Char}
    (h : Json.Spells (depth + 1) (.object entries) cs) :
    ∃ ms : List Member, ms.map Member.entry = entries ∧ ObjectText depth ms cs := by
  generalize hx : Json.object entries = x at h
  generalize hd : depth + 1 = d at h
  induction h
  case object hv hm _ =>
    cases hx
    cases hd
    exact ⟨_, rfl, hv, [], _, [], List.forall_mem_nil _, hm, List.forall_mem_nil _, by simp⟩
  case blanks before _ after hb _ ha hi =>
    obtain ⟨ms, he, hv, before', inner, after', hb', hm, ha', rfl⟩ := hi hx hd
    exact ⟨ms, he, hv, before ++ before', inner, after' ++ after, List.forall_mem_append.mpr ⟨hb, hb'⟩, hm,
      List.forall_mem_append.mpr ⟨ha', ha⟩, by simp⟩
  all_goals cases hx

namespace Wire

open Outcome

-- The value of an entry is what a text says that holds it alone.
def Access.parsed : Access String ReadError where
  get   := fun w => w.parse
  fault := .mismatch

-- The record's objects are accepted, or refused, for what their entries are. Of its fields, only the optional ones may
-- be missing, and null then says the same.
structure Record.ReadsObjects {ρ : Type} (r : Record ρ) (required optional : List String) : Prop where
  names    : r.fields.names = required ++ optional
  required : r.fields.required = required
  carries  : ∀ row, r.row (r.build row) = row
  null     : r.fields.All fun f => f.name ∈ optional → ∃ a, f.absent = some a ∧
    ∀ depth s, Json.Spells depth .null s.toList → f.wire.parse s = .ok a
  decides  : ∀ depth ms s, Json.ObjectText depth ms s.toList →
    r.fields.Decides .parsed r.build (ms.map Json.Member.spelling) (r.wire.parse s)

variable {ρ : Type} {αs : List Type} {fs : Fields αs} {m : Json.Member} {ms : List Json.Member} {depth : Nat}

-- What a steady form reads within an object is what it reads alone.
theorem Fields.readsAs_spelling (hf : fs.All fun f => f.wire.Steady) (hm : Json.Spells depth m.value m.text) :
    fs.ReadsAs .parsed depth m.entry m.spelling := by
  refine ⟨rfl, hf.imp fun f h _ => ?_⟩
  have ⟨o, ho⟩ := h depth m.value
  have hp : Access.parsed.get f.wire m.spelling.2 = o := ho.parse_eq <| by rwa [Json.Member.spelling, String.toList_ofList]
  rwa [hp]

namespace Record

variable {r : Record ρ} {s : String}

theorem parse_object (hf : r.fields.All fun f => f.wire.Steady) (h : Json.ObjectText depth ms s.toList) :
    r.wire.parse s = r.build <$> r.fields.gatherObject .parsed (ms.map Json.Member.spelling) := by
  have ⟨rest, hv, hr⟩ := h.spells.valueAt
  obtain ⟨_, ds, hd, hs, hes⟩ := Json.valueAt_object.mp hv
  cases hd
  have hf : (ms.map Json.Member.entry).Forall₂ (r.fields.ReadsAs .parsed depth) (ms.map Json.Member.spelling) := by
    rw [List.forall₂_map_left_iff, List.forall₂_map_right_iff, List.forall₂_same]
    exact fun m hm => Fields.readsAs_spelling hf <| h.values m hm
  refine Ends.parse_eq ?_ hr
  simp only [wire, hs]
  exact Fields.readObject_ends rfl hf hes |>.map r.build

-- Null in the place of an optional field says what its absence says.
theorem null_optional {α : Type} {name : String} {w : Wire α} :
    ∃ a, (Field.optional name w).absent = some a ∧
      ∀ depth s, Json.Spells depth .null s.toList → (Field.optional name w).wire.parse s = .ok a :=
  ⟨none, rfl, fun _ _ h => agrees_null.reads.parse_eq h⟩

theorem readsObjects {required optional : List String} (hn : (required ++ optional).Nodup)
    (names : r.fields.names = required ++ optional) (hr : r.fields.required = required)
    (carries : ∀ row, r.row (r.build row) = row) (hf : r.fields.All fun f => f.wire.Steady)
    (null : r.fields.All fun f => f.name ∈ optional → ∃ a, f.absent = some a ∧
      ∀ depth s, Json.Spells depth .null s.toList → f.wire.parse s = .ok a) : r.ReadsObjects required optional where
  names    := names
  required := hr
  carries  := carries
  null     := null
  decides depth ms s h := by
    rw [parse_object hf h]
    exact Fields.decides_gatherObject (names ▸ hn) r.build

end Record

end Wire

open Wire Record

theorem MasterContractApproval.readsObjects :
    record.ReadsObjects ["user", "masterContract", "approved", "v", "r", "s"] [] :=
  Record.readsObjects (by decide) rfl rfl (fun _ => rfl)
    ⟨steady_byteString, steady_byteString, steady_boolean, steady_uint8, steady_byteString, steady_byteString, trivial⟩
    ⟨nofun, nofun, nofun, nofun, nofun, nofun, trivial⟩

theorem AddCollateral.readsObjects : record.ReadsObjects ["token", "amount"] [] :=
  Record.readsObjects (by decide) rfl rfl (fun _ => rfl) ⟨steady_asset, steady_amount, trivial⟩ ⟨nofun, nofun, trivial⟩

theorem Borrow.readsObjects : record.ReadsObjects ["amount"] ["to"] :=
  Record.readsObjects (by decide) rfl rfl (fun _ => rfl) ⟨steady_amount, steady_byteString.optional, trivial⟩
    ⟨nofun, fun _ => null_optional, trivial⟩

theorem Repay.readsObjects : record.ReadsObjects ["token", "amount"] ["to"] :=
  Record.readsObjects (by decide) rfl rfl (fun _ => rfl)
    ⟨steady_byteString, steady_amount, steady_byteString.optional, trivial⟩
    ⟨nofun, nofun, fun _ => null_optional, trivial⟩

theorem RemoveCollateral.readsObjects : record.ReadsObjects ["token", "amount"] ["to"] :=
  Record.readsObjects (by decide) rfl rfl (fun _ => rfl)
    ⟨steady_asset, steady_amount, steady_byteString.optional, trivial⟩
    ⟨nofun, nofun, fun _ => null_optional, trivial⟩

theorem Leverage.readsObjects : record.ReadsObjects ["amount", "minShareOut"] ["to"] :=
  Record.readsObjects (by decide) rfl rfl (fun _ => rfl)
    ⟨steady_amount, steady_amount, steady_byteString.optional, trivial⟩
    ⟨nofun, nofun, fun _ => null_optional, trivial⟩

-- What is said of a record's objects holds of every part of an intent.
theorem Wire.parts_readObjects :
    MasterContractApproval.record.ReadsObjects ["user", "masterContract", "approved", "v", "r", "s"] [] ∧
    AddCollateral.record.ReadsObjects ["token", "amount"] [] ∧
    Borrow.record.ReadsObjects ["amount"] ["to"] ∧
    Repay.record.ReadsObjects ["token", "amount"] ["to"] ∧
    RemoveCollateral.record.ReadsObjects ["token", "amount"] ["to"] ∧
    Leverage.record.ReadsObjects ["amount", "minShareOut"] ["to"] :=
  ⟨MasterContractApproval.readsObjects, AddCollateral.readsObjects, Borrow.readsObjects, Repay.readsObjects,
    RemoveCollateral.readsObjects, Leverage.readsObjects⟩

end CauldronCalls
