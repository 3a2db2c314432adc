import CauldronCalls.Proofs.Bytes
import CauldronCalls.Proofs.Hex
import CauldronCalls.Proofs.Json.Printer
import CauldronCalls.Proofs.Wire.Intent
import CauldronCalls.Wire.Cauldron

/-!
Values read back from their JSON forms, on one line or indented. A record inherits this from its fields, if their
names differ.
-/

namespace CauldronCalls

namespace Wire

variable {α ρ : Type} {αs : List Type} {w : Wire α} {f : Field α} {fs : Fields αs} {a : α} {x : Json} {row : Row αs}
  {entries : List (String × Json)} {depth : Nat}

-- Every value is read back from its text, on one line or indented.
structure RoundTrips (w : Wire α) : Prop where
  compact : ∀ a, w.parse (w.encode a).toText = .ok a
  pretty  : ∀ a, w.parse (w.encode a).toPrettyText = .ok a

-- What is written is read back, in memory and from a text whose brackets are no deeper than `depth`.
structure Faithful (w : Wire α) (depth : Nat) : Prop where
  decode_encode : ∀ a, w.decode (w.encode a) = .ok a
  agrees        : ∀ a, w.Agrees depth (w.encode a)
  fits          : ∀ a, Json.Fits depth (w.encode a)

namespace Faithful

variable (h : w.Faithful 127)
include h

theorem parse_of_parse {s : String} (hs : Json.parse s = .ok (w.encode a)) : w.parse s = .ok a := by
  rw [(h.agrees a).parse_eq hs, h.decode_encode]
  rfl

theorem roundTrips : w.RoundTrips where
  compact _ := h.parse_of_parse <| Json.parse_toText (h.fits _)
  pretty _  := h.parse_of_parse <| Json.parse_toPrettyText (h.fits _)

end Faithful

section Shapes

theorem faithful_text : text.Faithful depth where
  decode_encode _ := rfl
  agrees _        := agrees_ofShape trivial
  fits _          := trivial

theorem faithful_boolean : boolean.Faithful depth where
  decode_encode _ := rfl
  agrees _        := agrees_ofShape trivial
  fits _          := trivial

theorem faithful_unsigned {bits : Nat} {ofNat : Nat → α} {toNat : α → Nat} (hb : bits ≤ 64)
    (hl : ∀ a, toNat a < 2 ^ bits) (hi : ∀ a, ofNat (toNat a) = a) :
    (ofShape (fun x => ofNat <$> asUnsigned bits x) fun a => natural (toNat a)).Faithful depth where
  decode_encode a := by
    have hs : asUnsigned bits (.number (.natural (toNat a))) = .ok (toNat a) := by
      rw [asUnsigned, Nat.one_shiftLeft, if_pos (hl a)]
    simp [ofShape, natural, Json.shape, hs, Functor.map, Except.map, hi]
  agrees _        := agrees_ofShape trivial
  fits a          := hl a |>.trans_le <| Nat.pow_le_pow_right (by decide) hb

theorem faithful_uint8 : uint8.Faithful depth :=
  faithful_unsigned (by decide) UInt8.toNat_lt fun _ => UInt8.ofNat_toNat

theorem faithful_uint32 : uint32.Faithful depth :=
  faithful_unsigned (by decide) UInt32.toNat_lt fun _ => UInt32.ofNat_toNat

theorem faithful_uint64 : uint64.Faithful depth :=
  faithful_unsigned (by decide) UInt64.toNat_lt fun _ => UInt64.ofNat_toNat

theorem faithful_amount : amount.Faithful depth where
  decode_encode a := by simp [amount, ofShape, Json.shape, asAmount, Uint256.parse?_hex]
  agrees _        := agrees_ofShape trivial
  fits _          := trivial

theorem faithful_asset : asset.Faithful depth where
  decode_encode a := by
    simp [asset, ofShape, Json.shape, asAsset, asText, Asset.ofString_text, Outcome.ok_bind, Except.mapError]
  agrees _        := agrees_ofShape trivial
  fits _          := trivial

theorem faithful_byteString {n : Nat} : (byteString n).Faithful depth where
  decode_encode b := by simp [byteString, Json.shape, ByteString.asHex, Hex.ofString_encode, Except.mapError]
  agrees _        := agrees_byteString trivial
  fits _          := trivial

theorem faithful_enumeration {all : List α} {name : α → String}
    (h : ∀ a, Enumeration.variant all name (name a) = .ok a) :
    (enumeration all name).Faithful depth where
  decode_encode := h
  agrees _      := agrees_enumeration
  fits _        := trivial

end Shapes

theorem Faithful.optional (h : w.Faithful depth) (hn : ∀ a, w.encode a ≠ .null) : w.optional.Faithful depth where
  decode_encode
    | none   => rfl
    | some a => by
      have hd := h.decode_encode a
      simp only [Wire.optional]
      split
      case h_1 he => exact absurd he (hn a)
      case h_2    => rw [hd]; rfl
  agrees
    | none   => agrees_null
    | some a => h.agrees a |>.optional
  fits
    | none   => trivial
    | some a => h.fits a

namespace Fields

def Faithful (depth : Nat) : {αs : List Type} → Fields αs → Prop
  | _, nil       => True
  | _, cons f fs => f.wire.Faithful depth ∧ fs.Faithful depth

end Fields

section Records

theorem Field.own_eq_nil (h : ∀ e ∈ entries, f.name ≠ e.1) : f.own entries = [] :=
  List.filter_eq_nil_iff.mpr fun e he => by simpa using h e he

theorem Field.others_eq (h : ∀ e ∈ entries, f.name ≠ e.1) : f.others entries = entries :=
  List.filter_eq_self.mpr fun e he => by simpa using h e he

theorem Field.gives_cons (h : ∀ e ∈ entries, f.name ≠ e.1) :
    f.Gives ((f.name, x) :: entries) a ↔ f.wire.decode x = .ok a := by
  rw [Gives, own_cons_self rfl, own_eq_nil h]

theorem Field.others_cons (h : ∀ e ∈ entries, f.name ≠ e.1) : f.others ((f.name, x) :: entries) = entries := by
  rw [others_cons_self rfl, others_eq h]

namespace Fields

theorem mem_names {e : String × Json} (h : e ∈ fs.encode row) : e.1 ∈ fs.names := by
  induction fs
  case nil          => contradiction
  case cons f fs hi =>
    rcases List.mem_cons.mp h with rfl | h
    · exact List.mem_cons_self
    · exact List.mem_cons_of_mem _ <| hi h

theorem ne_of_mem_encode (row : Row αs) (hn : (cons f fs).names.Nodup) : ∀ e ∈ fs.encode row, f.name ≠ e.1 :=
  fun _ he hf => List.nodup_cons.mp hn |>.left <| hf ▸ mem_names he

namespace Faithful

variable (h : fs.Faithful depth)
include h

theorem decodeObject_encode (hn : fs.names.Nodup) : fs.decodeObject (fs.encode row) = .ok row := by
  induction fs
  case nil          => exact decodeObject_nil
  case cons f fs hi =>
    have hne := ne_of_mem_encode row.2 hn
    refine decodeObject_cons.mpr ⟨Field.gives_cons hne |>.mpr <| h.left.decode_encode _, ?_⟩
    exact Field.others_cons hne ▸ hi h.right (List.nodup_cons.mp hn |>.right)

theorem agrees_encode (hn : fs.names.Nodup) :
    ∀ e ∈ fs.encode row, fs.All fun f => f.name = e.1 → f.wire.Agrees depth e.2 := by
  induction fs
  case nil          => exact nofun
  case cons f fs hi =>
    have ⟨hm, hn'⟩ := List.nodup_cons.mp hn
    have hne : fs.All fun g => g.name ≠ f.name := all_names (P := (· ≠ f.name)) |>.mpr fun k hk he => hm <| he ▸ hk
    refine List.forall_mem_cons.mpr ⟨⟨fun _ => h.left.agrees _, hne.imp fun _ hg hk => absurd hk hg⟩, fun e he => ?_⟩
    exact ⟨fun hk => absurd hk <| ne_of_mem_encode _ hn e he, hi h.right hn' e he⟩

theorem entriesFit_encode : Json.EntriesFit depth (fs.encode row) := by
  induction fs
  case nil          => trivial
  case cons f fs hi => exact ⟨h.left.fits _, hi h.right⟩

end Faithful

end Fields

theorem Record.faithful {r : Record ρ} (h : r.fields.Faithful depth) (hn : r.fields.names.Nodup)
    (hb : ∀ a, r.build (r.row a) = a) : r.wire.Faithful (depth + 1) where
  decode_encode a := by
    rw [wire]
    simp [h.decodeObject_encode hn, Functor.map, Except.map, hb]
  agrees _        := agrees_object <| h.agrees_encode hn
  fits _          := h.entriesFit_encode

end Records

end Wire

section Types

open Wire

variable {depth : Nat}

theorem MasterContractApproval.faithful : record.wire.Faithful (depth + 1) :=
  Record.faithful ⟨faithful_byteString, faithful_byteString, faithful_boolean, faithful_uint8, faithful_byteString,
    faithful_byteString, trivial⟩ (by decide) fun _ => rfl

theorem AddCollateral.faithful : record.wire.Faithful (depth + 1) :=
  Record.faithful ⟨faithful_asset, faithful_amount, trivial⟩ (by decide) fun _ => rfl

theorem Borrow.faithful : record.wire.Faithful (depth + 1) :=
  Record.faithful ⟨faithful_amount, faithful_byteString.optional nofun, trivial⟩ (by decide) fun _ => rfl

theorem Repay.faithful : record.wire.Faithful (depth + 1) :=
  Record.faithful ⟨faithful_byteString, faithful_amount, faithful_byteString.optional nofun, trivial⟩ (by decide)
    fun _ => rfl

theorem RemoveCollateral.faithful : record.wire.Faithful (depth + 1) :=
  Record.faithful ⟨faithful_asset, faithful_amount, faithful_byteString.optional nofun, trivial⟩ (by decide)
    fun _ => rfl

theorem Leverage.faithful : record.wire.Faithful (depth + 1) :=
  Record.faithful ⟨faithful_amount, faithful_amount, faithful_byteString.optional nofun, trivial⟩ (by decide)
    fun _ => rfl

theorem Contract.faithful : record.wire.Faithful (depth + 1) :=
  Record.faithful ⟨faithful_byteString, faithful_enumeration fun k => by cases k <;> decide, trivial⟩ (by decide)
    fun _ => rfl

theorem Swapper.faithful : record.wire.Faithful (depth + 1) :=
  Record.faithful ⟨faithful_byteString, faithful_enumeration fun k => by cases k <;> decide, trivial⟩ (by decide)
    fun _ => rfl

theorem Cauldron.faithful : wire.Faithful (depth + 2) :=
  Record.faithful ⟨faithful_text, faithful_uint64, faithful_uint32, Contract.faithful, Swapper.faithful, trivial⟩
    (by decide) fun _ => rfl

end Types

namespace Intent

open Wire

variable {α β : Type} {first second : String} {r₁ : Record α} {r₂ : Record β} {depth : Nat}

theorem faithful_fields (h₁ : r₁.wire.Faithful (depth + 1)) (h₂ : r₂.wire.Faithful (depth + 1)) :
    (fields first r₁ second r₂).Faithful (depth + 1) :=
  ⟨faithful_byteString, MasterContractApproval.faithful.optional nofun, h₁.optional nofun, h₂.optional nofun, trivial⟩

-- The tag comes first, and the other entries are those of the record that it names.
theorem decode_encode_fields {αs : List Type} {fs : Fields αs} {tag : Operation.Tag} {row : Wire.Row αs} {i : Intent}
    (hf : fs.Faithful depth) (hn : (tagField :: fs.names).Nodup)
    (ht : fs.decodeObject (fs.encode row) = .ok row → decodeTagged tag (.object (fs.encode row)) = .ok i) :
    decode (.object ((tagField, .string tag.name) :: fs.encode row)) = .ok i := by
  have ⟨hm, hn⟩ := List.nodup_cons.mp hn
  have hne : ∀ e ∈ fs.encode row, tagEntry.name ≠ e.1 := by
    intro e he h
    have h : tagField = e.1 := h
    exact hm <| h ▸ Fields.mem_names he
  have hd : tagEntry.wire.decode (.string tag.name) = .ok tag := by cases tag <;> decide
  have ho : tagEntry.others ((tagField, .string tag.name) :: fs.encode row) = fs.encode row :=
    Wire.Field.others_cons hne
  refine decode_object.mpr ⟨tag, Wire.Field.gives_cons hne |>.mpr hd, ?_⟩
  rw [ho]
  exact ht <| hf.decodeObject_encode hn

theorem faithful_borrowFields : borrowFields.Faithful (depth + 1) :=
  faithful_fields AddCollateral.faithful Borrow.faithful

theorem faithful_repayFields : repayFields.Faithful (depth + 1) :=
  faithful_fields Repay.faithful RemoveCollateral.faithful

theorem faithful_leverageFields : leverageFields.Faithful (depth + 1) :=
  faithful_fields AddCollateral.faithful Leverage.faithful

theorem decode_encode (i : Intent) : decode (encode i) = .ok i := by
  obtain ⟨sender, approval, operation⟩ := i
  cases operation
  case addCollateralAndBorrow =>
    refine decode_encode_fields (faithful_borrowFields : borrowFields.Faithful 1) (by decide) fun h => ?_
    simp only [Operation.tag, decodeTagged, decodeTagged.rowOf, h]
    rfl
  case repayAndRemoveCollateral =>
    refine decode_encode_fields (faithful_repayFields : repayFields.Faithful 1) (by decide) fun h => ?_
    simp only [Operation.tag, decodeTagged, decodeTagged.rowOf, h]
    rfl
  case addCollateralAndLeverage =>
    refine decode_encode_fields (faithful_leverageFields : leverageFields.Faithful 1) (by decide) fun h => ?_
    simp only [Operation.tag, decodeTagged, decodeTagged.rowOf, h]
    rfl

theorem faithful : wire.Faithful 127 where
  decode_encode := decode_encode
  agrees _ := agrees _
  fits i := by
    obtain ⟨sender, approval, operation⟩ := i
    refine ⟨trivial, ?_⟩
    cases operation
    case addCollateralAndBorrow   => exact faithful_borrowFields.entriesFit_encode
    case repayAndRemoveCollateral => exact faithful_repayFields.entriesFit_encode
    case addCollateralAndLeverage => exact faithful_leverageFields.entriesFit_encode

end Intent

-- The three kinds of files that the programs exchange: what a user asks for, what is deployed, and what was signed.
theorem Wire.files_roundTrip :
    Intent.wire.RoundTrips ∧ Cauldron.wire.RoundTrips ∧ MasterContractApproval.record.wire.RoundTrips :=
  ⟨Intent.faithful.roundTrips, Cauldron.faithful.roundTrips, MasterContractApproval.faithful.roundTrips⟩

end CauldronCalls
