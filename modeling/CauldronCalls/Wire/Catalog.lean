import CauldronCalls.Catalog
import CauldronCalls.Json

/-!
The printed form of the catalog.
-/

namespace CauldronCalls

def Param.json (p : Param) : Json :=
  .object [("name", .string p.name), ("type", .string p.type.name)]

def Descriptor.json (d : Descriptor) : Json :=
  .object [
    ("kind", .string d.kind.label),
    ("params", .array (d.params.map Param.json)),
    ("native_value", .boolean d.carriesNative),
    ("min_version", .string d.minVersion.name)]

def catalogJson : Json :=
  .array (catalog.map Descriptor.json)

end CauldronCalls
