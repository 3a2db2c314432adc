import CauldronCalls.Proofs.Action.RoundTrip
import CauldronCalls.Proofs.Compiler.Actions

/-!
Actions read back as invocations: the kind of action that the opcode names, and the arguments that the data
holds by that kind's schema. What a step of the catalog is bound to reads back as the step.
-/

namespace CauldronCalls

-- A kind of action with its arguments as they are given.
structure Invocation where
  kind : ActionKind
  args : List Argument
deriving DecidableEq

def Action.invocation? (a : Action) : Option Invocation := do
  let kind ← ActionKind.ofOpcode? a.opcode
  let args ← kind.descriptor.argsOfData? a.data
  pure ⟨kind, args⟩

theorem ActionKind.opcode_of_ofOpcode? {k : ActionKind} {o : UInt8} (h : ofOpcode? o = some k) : k.opcode = o :=
  beq_iff_eq.mp <| List.find?_some (p := fun k : ActionKind => k.opcode == o) h

theorem Action.invocation?_eq_some {a : Action} {i : Invocation} (h : a.invocation? = some i) :
    (a.opcode = i.kind.opcode) ∧ (i.kind.descriptor.argsOfData? a.data = some i.args) := by
  simp only [invocation?, Option.bind_eq_bind, Option.bind_eq_some_iff, Option.pure_def, Option.some.injEq] at h
  obtain ⟨kind, hk, args, ha, rfl⟩ := h
  exact ⟨ActionKind.opcode_of_ofOpcode? hk |>.symm, ha⟩

namespace Step

def invocation (s : Step) : Invocation :=
  ⟨s.descriptor.kind, s.args⟩

-- The step follows the schema of its kind.
def Catalogued (s : Step) : Prop :=
  s.descriptor = s.descriptor.kind.descriptor

variable {c : Cauldron} {s : Step} {a : Action}

theorem invocation?_bound (hs : s.Catalogued) (h : c.bound s = .ok a) (hl : a.data.length < 2 ^ 256) :
    a.invocation? = some s.invocation := by
  have hb := Cauldron.bind_of_bound h
  have hd := Descriptor.argsOfData?_bind hb hl
  obtain ⟨_, _, _, rfl⟩ := Descriptor.bind_ok hb
  rw [Catalogued] at hs
  rw [hs] at hd
  simp [Action.invocation?, Descriptor.opcode, ActionKind.ofOpcode?_opcode, hd, invocation]

end Step

end CauldronCalls
