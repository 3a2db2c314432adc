import CauldronCalls.Asset
import CauldronCalls.Double.Shortest
import CauldronCalls.Json

/-!
How a JSON value can differ from what is wanted in its place.
-/

namespace CauldronCalls

-- What is wanted.
inductive Expected where
  | text
  | unsigned (bits : Nat)
  | boolean
  | amount
  | byteString (length : Nat)
  | unit
  | variantName
  | variant
  | singleKey
  | record (name : String)
  | elements (name : String) (count : Nat)
  | tagged (name : String)
  | exactly (length : Nat)
  | sequence (count : Nat)
deriving DecidableEq, Repr

def Expected.describe : Expected → String
  | text                => "a string"
  | unsigned bits       => s!"u{bits}"
  | boolean             => "a boolean"
  | amount              => "a 32 byte hex string"
  | byteString length   =>
    s!"{length} bytes, represented as a hex string of length {2 * length}, an array of u8, or raw bytes"
  | unit                => "unit"
  | variantName         => "variant identifier"
  | variant             => "string or map"
  | singleKey           => "map with a single key"
  | record name         => s!"struct {name}"
  | elements name count => s!"struct {name} with {count} " ++ if count = 1 then "element" else "elements"
  | tagged name         => s!"internally tagged enum {name}"
  | exactly length      => s!"exactly {length} bytes"
  | sequence count      => s!"{count} " ++ (if count = 1 then "element" else "elements") ++ " in sequence"

def Json.Shape.describe : Json.Shape → String
  | null                  => "null"
  | boolean true          => "boolean `true`"
  | boolean false         => "boolean `false`"
  | number (.natural n)   => s!"integer `{n}`"
  | number (.negative n)  => s!"integer `-{n}`"
  | number (.double x)    => s!"floating point `{x.text}`"
  | string s              => "string " ++ Text.quote .double s.toList
  | sequence              => "sequence"
  | map                   => "map"

inductive Mismatch where
  | wrongType (found : Json.Shape) (expected : Expected)
  | wrongValue (found : Json.Shape) (expected : Expected)
  | wrongLength (length : Nat) (expected : Expected)
  | unknownVariant (name : String) (known : List String)
  | missingField (name : String)
  | duplicateField (name : String)
  | notHex (fault : Hex.Fault)
  | notAsset (reason : Asset.Unknown)
deriving DecidableEq, Repr

def Mismatch.message : Mismatch → String
  | wrongType found expected    => s!"invalid type: {found.describe}, expected {expected.describe}"
  | wrongValue found expected   => s!"invalid value: {found.describe}, expected {expected.describe}"
  | wrongLength length expected => s!"invalid length {length}, expected {expected.describe}"
  | unknownVariant name known   =>
    s!"unknown variant `{name}`, expected one of " ++ ", ".intercalate (known.map fun k => s!"`{k}`")
  | missingField name           => s!"missing field `{name}`"
  | duplicateField name         => s!"duplicate field `{name}`"
  | notHex fault                => fault.message
  | notAsset reason             => reason.message

end CauldronCalls
