import CauldronCalls.Cauldron
import CauldronCalls.Wire.ByteString
import CauldronCalls.Wire.Enumeration
import CauldronCalls.Wire.Record

/-!
The JSON form of cauldrons.
-/

namespace CauldronCalls

open Wire

def Version.wire : Wire Version :=
  enumeration Version.all Version.name

def SwapperKind.wire : Wire SwapperKind :=
  enumeration SwapperKind.all SwapperKind.interfaceName

def Contract.record : Record Contract where
  name := "CauldronContract"
  fields := .cons (.required "address" Wire.address) (.cons (.required "kind" Version.wire) .nil)
  build := fun (address, version, ()) => ⟨address, version⟩
  row c := (c.address, c.version, ())

def Swapper.record : Record Swapper where
  name := "Swapper"
  fields := .cons (.required "address" Wire.address) (.cons (.required "kind" SwapperKind.wire) .nil)
  build := fun (address, kind, ()) => ⟨address, kind⟩
  row s := (s.address, s.kind, ())

def Cauldron.record : Record Cauldron where
  name := "Cauldron"
  fields :=
    .cons (.required "name" Wire.text) <|
    .cons (.required "chainId" Wire.uint64) <|
    .cons (.required "id" Wire.uint32) <|
    .cons (.required "contract" Contract.record.wire) <|
    .cons (.required "leverageSwapper" Swapper.record.wire) .nil
  build := fun (name, chainId, id, contract, swapper, ()) => ⟨name, chainId, id, contract, swapper⟩
  row c := (c.name, c.chainId, c.id, c.contract, c.leverageSwapper, ())

def Cauldron.wire : Wire Cauldron :=
  Cauldron.record.wire

end CauldronCalls
