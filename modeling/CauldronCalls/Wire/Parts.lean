import CauldronCalls.Intent
import CauldronCalls.Wire.ByteString
import CauldronCalls.Wire.Record

/-!
The JSON forms of the parts of an intent.
-/

namespace CauldronCalls

open Wire

def MasterContractApproval.record : Record MasterContractApproval where
  name := "MasterContractApproval"
  fields :=
    .cons (.required "user" Wire.address) <|
    .cons (.required "masterContract" Wire.address) <|
    .cons (.required "approved" Wire.boolean) <|
    .cons (.required "v" Wire.uint8) <|
    .cons (.required "r" Wire.word) <|
    .cons (.required "s" Wire.word) .nil
  build := fun (user, masterContract, approved, v, r, s, ()) => ⟨user, masterContract, approved, v, r, s⟩
  row a := (a.user, a.masterContract, a.approved, a.v, a.r, a.s, ())

def AddCollateral.record : Record AddCollateral where
  name := "AddCollateral"
  fields := .cons (.required "token" Wire.asset) (.cons (.required "amount" Wire.amount) .nil)
  build := fun (token, amount, ()) => ⟨token, amount⟩
  row a := (a.token, a.amount, ())

def Borrow.record : Record Borrow where
  name := "Borrow"
  fields := .cons (.required "amount" Wire.amount) (.cons (.optional "to" Wire.address) .nil)
  build := fun (amount, recipient, ()) => ⟨amount, recipient⟩
  row b := (b.amount, b.recipient, ())

def Repay.record : Record Repay where
  name := "Repay"
  fields :=
    .cons (.required "token" Wire.address) <|
    .cons (.required "amount" Wire.amount) <|
    .cons (.optional "to" Wire.address) .nil
  build := fun (token, amount, recipient, ()) => ⟨token, amount, recipient⟩
  row r := (r.token, r.amount, r.recipient, ())

def RemoveCollateral.record : Record RemoveCollateral where
  name := "RemoveCollateral"
  fields :=
    .cons (.required "token" Wire.asset) <|
    .cons (.required "amount" Wire.amount) <|
    .cons (.optional "to" Wire.address) .nil
  build := fun (token, amount, recipient, ()) => ⟨token, amount, recipient⟩
  row r := (r.token, r.amount, r.recipient, ())

def Leverage.record : Record Leverage where
  name := "Leverage"
  fields :=
    .cons (.required "amount" Wire.amount) <|
    .cons (.required "minShareOut" Wire.amount) <|
    .cons (.optional "to" Wire.address) .nil
  build := fun (amount, minShareOut, recipient, ()) => ⟨amount, minShareOut, recipient⟩
  row l := (l.amount, l.minShareOut, l.recipient, ())

end CauldronCalls
