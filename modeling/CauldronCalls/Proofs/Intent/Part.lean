import CauldronCalls.Proofs.Intent.Demand

/-!
The parts of an intent as data. Each part knows whom it acts for, stands for steps of its own, and makes a
demand that no longer depends on defaults. The steps of a part are the invocations of its demand.
-/

namespace CauldronCalls

inductive Part where
  | approval (a : MasterContractApproval)
  | add      (sender : Address) (a : AddCollateral)
  | borrow   (sender : Address) (b : Borrow)
  | repay    (sender : Address) (r : Repay)
  | remove   (sender : Address) (r : RemoveCollateral)
  | leverage (sender : Address) (l : Leverage)
deriving DecidableEq

namespace Part

def steps (w : Swapper) : Part → Except CompileError (List Step)
  | approval a   => .ok a.steps
  | add s a      => .ok (a.steps s)
  | borrow s b   => .ok (b.steps s)
  | repay s r    => .ok (r.steps s)
  | remove s r   => .ok (r.steps s)
  | leverage s l => l.steps s w

def demand : Part → Demand
  | approval a   => .approval a
  | add s a      => .add s a.token.slot a.amount
  | borrow s b   => .borrow b.amount (b.recipient.getD s)
  | repay s r    => .repay s r.token r.amount (r.recipient.getD s)
  | remove s r   => .remove s r.token.slot r.amount (r.recipient.getD s)
  | leverage s l => .leverage s l.amount l.minShareOut (l.recipient.getD s)

-- Whom the part acts for. An approval names its user itself.
def sender? : Part → Option Address
  | approval _   => none
  | add s _      => some s
  | borrow s _   => some s
  | repay s _    => some s
  | remove s _   => some s
  | leverage s _ => some s

end Part

def Operation.parts (sender : Address) : Operation → List Part
  | addCollateralAndBorrow add borrow     =>
    (add.map (.add sender)).toList ++ (borrow.map (.borrow sender)).toList
  | repayAndRemoveCollateral repay remove =>
    (repay.map (.repay sender)).toList ++ (remove.map (.remove sender)).toList
  | addCollateralAndLeverage add leverage =>
    (add.map (.add sender)).toList ++ (leverage.map (.leverage sender)).toList

theorem Operation.sender?_of_mem_parts {o : Operation} {sender : Address} {p : Part} (h : p ∈ o.parts sender) :
    p.sender? = some sender := by
  cases o <;> simp only [parts, List.mem_append, Option.mem_toList, Option.map_eq_some_iff] at h <;>
    obtain ⟨_, _, rfl⟩ | ⟨_, _, rfl⟩ := h <;> rfl

namespace Intent

-- The parts that are present, in the order in which they run.
def parts (i : Intent) : List Part :=
  (i.approval.map .approval).toList ++ i.operation.parts i.sender

def demands (i : Intent) : List Demand :=
  i.parts.map Part.demand

theorem groups_eq (w : Swapper) (i : Intent) : i.groups w = i.parts.map (Part.steps w) := by
  rcases i with ⟨_, _ | _, _ | _ | _⟩ <;> cases ‹Option _› <;> cases ‹Option _› <;> rfl

theorem isEmpty_iff {i : Intent} : i.isEmpty = true ↔ i.parts = [] := by
  rcases i with ⟨_, _ | _, _ | _ | _⟩ <;> cases ‹Option _› <;> cases ‹Option _› <;>
    simp [isEmpty, Operation.isEmpty, parts, Operation.parts]

-- All parts act for the intent's sender.
theorem sender_of_mem_parts {i : Intent} {p : Part} {s : Address} (hp : p ∈ i.parts) (hs : p.sender? = some s) :
    s = i.sender := by
  simp only [parts, List.mem_append, Option.mem_toList, Option.map_eq_some_iff] at hp
  obtain ⟨_, _, rfl⟩ | hp := hp
  case inl => contradiction
  case inr => exact Option.some.inj <| hs.symm.trans <| Operation.sender?_of_mem_parts hp

theorem length_parts_le (i : Intent) : i.parts.length ≤ 3 := by
  rcases i with ⟨_, _ | _, _ | _ | _⟩ <;> cases ‹Option _› <;> cases ‹Option _› <;>
    simp [parts, Operation.parts]

end Intent

namespace Part

variable {w : Swapper} {p : Part} {ss : List Step}

theorem steps_leverage {s : Address} {l : Leverage} (h : (leverage s l).steps w = .ok ss) :
    ss = [
      ActionKind.borrow.step [.amount (.literal l.amount), .address w.address],
      ActionKind.call.step [
        .address w.address, .bytes (Demand.swapCall s l.minShareOut), .bool false, .bool true, .uint 2],
      ActionKind.addCollateral.step [.amount (.prior .two), .address (l.recipient.getD s), .bool false]] := by
  simp only [steps, Leverage.steps, Outcome.bind_eq_ok, Outcome.pure_eq_ok] at h
  obtain ⟨bs, hb, rfl⟩ := h
  cases hk : w.kind <;> rw [hk] at hb <;> cases hb
  rfl

theorem invocation_steps (h : p.steps w = .ok ss) :
    ss.map Step.invocation = p.demand.invocations w.address := by
  cases p
  case leverage =>
    rw [steps_leverage h]
    rfl
  all_goals
    cases h
    rfl

theorem catalogued_steps (h : p.steps w = .ok ss) : ∀ s ∈ ss, s.Catalogued := by
  cases p
  case leverage =>
    rw [steps_leverage h]
    simp [Step.Catalogued, ActionKind.step, ActionKind.descriptor]
  all_goals
    cases h
    simp [Step.Catalogued, ActionKind.step, ActionKind.descriptor, MasterContractApproval.steps,
      AddCollateral.steps, Borrow.steps, Repay.steps, RemoveCollateral.steps]

end Part

end CauldronCalls
