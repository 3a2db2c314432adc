import CauldronCalls.Proofs.Notation
import CauldronCalls.Proofs.Wire.RoundTrip

/-!
What a writer may put for a value: scalars in any of their notations, and records as objects in any order or as lists of
all their fields. Whatever is put for it, the value is decoded.
-/

namespace CauldronCalls

open Wire

section Specification

inductive Uint256.SpelledBy (a : Uint256) : Json → Prop
  | text {s : String} (h : a.NumberText s.toList) : SpelledBy a (.string s)
  | integer (h : a.toNat < 2 ^ 64) : SpelledBy a (.number (.natural a.toNat))

inductive FixedBytes.SpelledBy {n : Nat} (b : FixedBytes n) : Json → Prop
  | text {s : String} (h : Hex.BytesText b.toList s.toList) : SpelledBy b (.string s)
  | octets : SpelledBy b (.array (b.toList.map fun o => .number (.natural o.toNat)))

inductive Asset.SpelledBy (a : Asset) : Json → Prop
  | text {s : String} (h : a.NameText s.toList) : SpelledBy a (.string s)

-- What may stand under a name, and whether the name may be missing.
structure Named where
  name : String
  spelledBy : Json → Prop
  omissible : Prop

namespace Named

def required {α : Type} (name : String) (spelledBy : α → Json → Prop) (a : α) : Named :=
  ⟨name, spelledBy a, False⟩

def optional {α : Type} (name : String) (spelledBy : α → Json → Prop) : Option α → Named
  | none   => ⟨name, (· = .null), True⟩
  | some a => ⟨name, spelledBy a, False⟩

-- The entries say the value once, wherever they say it, or leave out what may be missing.
structure SpelledIn (n : Named) (entries : List (String × Json)) : Prop where
  once    : (entries.map Prod.fst).count n.name ≤ 1
  value   : ∀ x, (n.name, x) ∈ entries → n.spelledBy x
  present : n.name ∈ entries.map Prod.fst ∨ n.omissible

-- Entries with other names may stand anywhere in an object. A list has neither more nor less than the values.
inductive SpelledByRecord (ns : List Named) : Json → Prop
  | object {entries : List (String × Json)} (h : ∀ n ∈ ns, n.SpelledIn entries) : SpelledByRecord ns (.object entries)
  | list {xs : List Json} (h : ns.Forall₂ (fun n x => n.spelledBy x) xs) : SpelledByRecord ns (.array xs)

end Named

end Specification

section Scalars

variable {x : Json} {n : Nat}

theorem Uint256.SpelledBy.decode_eq {a : Uint256} (h : a.SpelledBy x) : amount.decode x = .ok a := by
  cases h
  case text h  => simp [amount, ofShape, Json.shape, asAmount, parse?_text h]
  case integer => simp [amount, ofShape, Json.shape, asAmount]

theorem decodeOctets_eq {k : Nat} {bs : Bytes} (h : bs.length = k) :
    ByteString.decodeOctets n k (bs.map fun o => .number (.natural o.toNat)) = .ok (bs, []) := by
  induction bs generalizing k
  case nil =>
    cases h
    rfl
  case cons b bs hi =>
    cases h
    have hb : uint8.decode (.number (.natural b.toNat)) = .ok b :=
      (faithful_uint8 : uint8.Faithful 0).decode_encode b
    rw [List.map_cons, List.length_cons, ByteString.decodeOctets, hb, hi rfl]
    rfl

theorem FixedBytes.SpelledBy.decode_eq {b : FixedBytes n} (h : b.SpelledBy x) : (byteString n).decode x = .ok b := by
  cases h
  case text h =>
    simp only [byteString, Json.shape, ByteString.asHex, Hex.ofString_text h]
    rfl
  case octets =>
    simp only [byteString, ByteString.decodeList, decodeOctets_eq b.length_toList, Outcome.ok_bind]
    rw [FixedBytes.ofList?_toList]
    rfl

theorem Asset.SpelledBy.decode_eq {a : Asset} (h : a.SpelledBy x) : asset.decode x = .ok a := by
  obtain ⟨h⟩ := h
  simp only [asset, ofShape, Json.shape, asAsset, asText, Outcome.ok_bind, Asset.ofString_nameText h]
  rfl

end Scalars

section Records

namespace Wire

variable {α : Type} {αs : List Type} {f : Field α} {fs : Fields αs} {a : α} {row : Row αs} {n : Named} {ns : List Named}
  {entries : List (String × Json)} {x : Json} {xs : List Json}

-- Whatever may stand under the name is decoded to the field's value.
structure Field.Takes (f : Field α) (a : α) (n : Named) : Prop where
  name   : n.name = f.name
  value  : ∀ x, n.spelledBy x → f.wire.decode x = .ok a
  absent : n.omissible → f.absent = some a

def Fields.Take : {αs : List Type} → Fields αs → Row αs → List Named → Prop
  | _, nil, _, []                   => True
  | _, cons f fs, (a, row), n :: ns => f.Takes a n ∧ fs.Take row ns
  | _, _, _, _                      => False

section Field

variable {name : String} {w : Wire α} {spelledBy : α → Json → Prop} (hw : ∀ a x, spelledBy a x → w.decode x = .ok a)
include hw

theorem Field.takes_required (a : α) : (Field.required name w).Takes a (.required name spelledBy a) where
  name   := rfl
  value  := hw a
  absent := nofun

theorem Field.takes_optional (hn : ∀ a, ¬spelledBy a .null) (a : Option α) :
    (Field.optional name w).Takes a (.optional name spelledBy a) := by
  cases a
  case none =>
    refine ⟨rfl, ?_, fun _ => rfl⟩
    rintro _ rfl
    rfl
  case some a =>
    refine ⟨rfl, fun x h => ?_, nofun⟩
    have hx := hw a x h
    cases x
    case null => exact absurd h (hn a)
    all_goals exact Outcome.map_eq_ok.mpr ⟨a, hx, rfl⟩

end Field

theorem Field.Takes.givenBy (h : f.Takes a n) (hn : n.SpelledIn entries) : f.GivenBy .inMemory entries a where
  once     := h.name ▸ hn.once
  value x hx := h.value x <| hn.value x <| h.name ▸ hx
  absent hm  := h.absent <| hn.present.resolve_left <| h.name ▸ hm

namespace Fields

theorem Take.names (h : fs.Take row ns) : ns.map Named.name = fs.names := by
  induction fs generalizing ns
  case nil          => cases ns <;> first | rfl | contradiction
  case cons f fs hi =>
    cases ns
    case nil       => contradiction
    case cons n ns => rw [List.map_cons, h.left.name, hi h.right, Fields.names]

theorem Take.each (h : fs.Take row ns) (hn : ∀ n ∈ ns, n.SpelledIn entries) :
    fs.Each (fun f a => f.GivenBy .inMemory entries a) row := by
  induction fs generalizing ns
  case nil          => trivial
  case cons f fs hi =>
    cases ns
    case nil       => contradiction
    case cons n ns =>
      have ⟨hn, hns⟩ := List.forall_mem_cons.mp hn
      exact ⟨h.left.givenBy hn, hi h.right hns⟩

theorem Take.inOrder_eq {name : String} {index : Nat} {βs : List Type} {gs : Fields βs} (h : fs.Take row ns)
    (hx : ns.Forall₂ (fun n x => n.spelledBy x) xs) :
    inOrder (decodeList.decodeNext name gs) index fs xs = .ok (row, []) := by
  induction fs generalizing ns xs index
  case nil =>
    cases ns
    case nil =>
      cases hx
      rfl
    case cons => contradiction
  case cons f fs hi =>
    cases ns
    case nil       => contradiction
    case cons n ns =>
      obtain _ | ⟨hx, hxs⟩ := hx
      exact inOrder_cons.mpr ⟨h.left.value _ hx, hi h.right hxs⟩

end Fields

theorem Record.decode_spelled {ρ : Type} {r : Record ρ} {a : ρ} (hx : Named.SpelledByRecord ns x)
    (hn : r.fields.names.Nodup) (hb : r.build (r.row a) = a) (h : r.fields.Take (r.row a) ns) :
    r.wire.decode x = .ok a := by
  cases hx
  case object hs =>
    have hd : r.fields.decodeObject _ = .ok (r.row a) :=
      Fields.decodeObject_eq_gatherObject.trans <| Fields.gatherObject_eq_ok hn |>.mpr <| h.each hs
    exact Outcome.map_eq_ok.mpr ⟨_, hd, hb⟩
  case list hs =>
    have hd : r.fields.decodeList r.name _ = .ok (r.row a) := Fields.decodeList_eq_ok.mpr <| h.inOrder_eq hs
    exact Outcome.map_eq_ok.mpr ⟨_, hd, hb⟩

end Wire

end Records

end CauldronCalls
