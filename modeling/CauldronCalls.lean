import CauldronCalls.Abi
import CauldronCalls.Action
import CauldronCalls.Address
import CauldronCalls.Amount
import CauldronCalls.Approval
import CauldronCalls.Argument
import CauldronCalls.Asset
import CauldronCalls.Builder
import CauldronCalls.Bytes
import CauldronCalls.Bytes.Hex
import CauldronCalls.Call
import CauldronCalls.Catalog
import CauldronCalls.Cauldron
import CauldronCalls.CommandLine.Command
import CauldronCalls.CommandLine.Files
import CauldronCalls.CommandLine.Options
import CauldronCalls.CommandLine.Run
import CauldronCalls.CompileError
import CauldronCalls.Compiler
import CauldronCalls.Curve.Modular
import CauldronCalls.Curve.Point
import CauldronCalls.Curve.Signature
import CauldronCalls.Double
import CauldronCalls.Double.Shortest
import CauldronCalls.Fault
import CauldronCalls.Hash.Keccak
import CauldronCalls.Hash.Sha256
import CauldronCalls.Intent
import CauldronCalls.Json
import CauldronCalls.Json.Malformed
import CauldronCalls.Json.Numeral
import CauldronCalls.Json.Printer
import CauldronCalls.Json.Reader
import CauldronCalls.Json.Skip
import CauldronCalls.Json.Text
import CauldronCalls.KeyText
import CauldronCalls.Session
import CauldronCalls.Step
import CauldronCalls.Text.Blank
import CauldronCalls.Text.Printable
import CauldronCalls.Text.Quoted
import CauldronCalls.Uint256
import CauldronCalls.Uint256.Literal
import CauldronCalls.Version
import CauldronCalls.Wire
import CauldronCalls.Wire.ByteString
import CauldronCalls.Wire.Catalog
import CauldronCalls.Wire.Cauldron
import CauldronCalls.Wire.Enumeration
import CauldronCalls.Wire.Intent
import CauldronCalls.Wire.Mismatch
import CauldronCalls.Wire.Parts
import CauldronCalls.Wire.Record
import CauldronCalls.Main
import CauldronCalls.Proofs.Abi.Decoder
import CauldronCalls.Proofs.Call.RoundTrip
import CauldronCalls.Proofs.Action.RoundTrip
import CauldronCalls.Proofs.Compiler.Actions
import CauldronCalls.Proofs.Compiler.DirectBorrow
import CauldronCalls.Proofs.Intent.Demand
import CauldronCalls.Proofs.Intent.Part
import CauldronCalls.Proofs.Action.Invocation
import CauldronCalls.Proofs.Call.Length
import CauldronCalls.Proofs.Compiler.Faithful
import CauldronCalls.Proofs.Abi.Strict
import CauldronCalls.Proofs.Action.Fit
import CauldronCalls.Proofs.Compiler.Groups
import CauldronCalls.Proofs.Compiler.Concat
import CauldronCalls.Proofs.Compiler.Refusal
import CauldronCalls.Proofs.Compiler.Place
import CauldronCalls.Proofs.Compiler.Funding
import CauldronCalls.Proofs.Compiler.Wiring
import CauldronCalls.Proofs.Builder
import CauldronCalls.Proofs.Compiler.Layout
import CauldronCalls.Proofs.Call.Value
import CauldronCalls.Proofs.Compiler.Value
import CauldronCalls.Proofs.Compiler.Swap
import CauldronCalls.Proofs.Approval.Digest
import CauldronCalls.Proofs.Curve.Modular
import CauldronCalls.Proofs.Curve.Prime
import CauldronCalls.Proofs.Curve.Group
import CauldronCalls.Proofs.Curve.Recovery
import CauldronCalls.Proofs.Approval.Signing
import CauldronCalls.Proofs.Json.Text
import CauldronCalls.Proofs.Json.Numeral
import CauldronCalls.Proofs.Json.Reader
import CauldronCalls.Proofs.Json.Value
import CauldronCalls.Proofs.Json.Printer
import CauldronCalls.Proofs.Hex
import CauldronCalls.Proofs.Wire.Agreement
import CauldronCalls.Proofs.Wire.Record
import CauldronCalls.Proofs.Wire.Intent
import CauldronCalls.Proofs.Wire.RoundTrip
import CauldronCalls.Proofs.Wire.Approval
import CauldronCalls.Proofs.Compiler.Approval
import CauldronCalls.Proofs.Compiler.Swapper
import CauldronCalls.Proofs.Digit
import CauldronCalls.Proofs.Json.Grammar
import CauldronCalls.Proofs.Json.Spelling
import CauldronCalls.Proofs.Wire.Object
import CauldronCalls.Proofs.Json.Skip
import CauldronCalls.Proofs.Wire.Steady
import CauldronCalls.Proofs.Wire.Direct
import CauldronCalls.Proofs.Wire.Tagged
import CauldronCalls.Proofs.Notation
import CauldronCalls.Proofs.Wire.Spelling
import CauldronCalls.Proofs.Wire.Meaning
import CauldronCalls.Proofs.Action.Data
import CauldronCalls.Proofs.Action.Misfit
import CauldronCalls.Proofs.Hex.Decoding
import CauldronCalls.Proofs.KeyText
import CauldronCalls.Proofs.Uint256.Literal
import CauldronCalls.Proofs.Wire.Deposit
import CauldronCalls.Proofs.Compiler.Deposit
import CauldronCalls.Proofs.Amount
import CauldronCalls.Proofs.Hex.Fixed
import CauldronCalls.Proofs.Asset
