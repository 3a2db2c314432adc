import CauldronCalls.Proofs.Action.Fit
import CauldronCalls.Proofs.Compiler.Groups

/-!
What stands where in a batch. Every place of a compiled batch belongs to the group of one part of the intent, and
the whole group stands around it, in the order of the part's steps.
-/

namespace CauldronCalls

open Outcome

theorem ActionKind.opcode_inj {k l : ActionKind} (h : k.opcode = l.opcode) : k = l := by
  have hk := ofOpcode?_opcode k
  rw [h, ofOpcode?_opcode] at hk
  exact Option.some.inj hk.symm

namespace Batch

-- The invocation stands at the place `k`: its opcode, and data that read back as its arguments.
structure Holds (b : Batch) (k : Nat) (i : Invocation) : Prop where
  opcode : b.actions[k]? = some i.kind.opcode
  data   : ∃ d, b.datas[k]? = some d ∧ i.kind.descriptor.argsOfData? d = some i.args

-- The invocation stands right before the place `k`.
def Follows (b : Batch) (k : Nat) (i : Invocation) : Prop :=
  ∃ m, k = m + 1 ∧ b.Holds m i

-- What the step is bound to stands at the place `k`.
def Runs (b : Batch) (c : Cauldron) (k : Nat) (s : Step) : Prop :=
  ∃ a, c.bound s = .ok a ∧
    b.actions[k]? = some a.opcode ∧ b.values[k]? = some a.value ∧ b.datas[k]? = some a.data

theorem runs_ofActions {as : List Action} {c : Cauldron} {k : Nat} {s : Step} {a : Action}
    (hs : c.bound s = .ok a) (ha : as[k]? = some a) : (ofActions as).Runs c k s :=
  ⟨a, hs, by simp [ofActions, ha]⟩

-- The group of the part `p` has the steps `ss` and stands in the batch from the place `o` on.
structure Hosts (b : Batch) (c : Cauldron) (o : Nat) (p : Part) (ss : List Step) : Prop where
  steps : p.steps c.leverageSwapper = .ok ss
  runs  : ∀ m s, ss[m]? = some s → b.Runs c (o + m) s

namespace Hosts

variable {b : Batch} {c : Cauldron} {o m : Nat} {p : Part} {ss : List Step} {s : Step}

theorem holds (h : b.Hosts c o p ss) (hm : ss[m]? = some s) : b.Holds (o + m) s.invocation := by
  have ⟨a, ha, ho, _, hd⟩ := h.runs m s hm
  have hr := Part.realizes_bound h.steps (List.mem_of_getElem? hm) ha
  have hb := Cauldron.bind_of_bound ha
  have hs := Part.catalogued_steps h.steps s (List.mem_of_getElem? hm)
  have hl := Nat.lt_of_le_of_lt hr.small (by decide : 512 < 2 ^ 256)
  refine ⟨?opcode, a.data, hd, ?data⟩
  case opcode =>
    obtain ⟨_, _, _, rfl⟩ := Descriptor.bind_ok hb
    exact ho
  case data =>
    rw [Step.invocation, ← hs]
    exact Descriptor.argsOfData?_bind hb hl

theorem value (h : b.Hosts c o p ss) (hm : ss[m]? = some s) :
    b.values[o + m]? = some (if s.descriptor.carriesNative then s.value else 0) := by
  have ⟨a, ha, _, hv, _⟩ := h.runs m s hm
  obtain ⟨_, _, _, rfl⟩ := Descriptor.bind_ok <| Cauldron.bind_of_bound ha
  exact hv

theorem fits (h : b.Hosts c o p ss) (hm : ss[m]? = some s) :
    s.args.Forall₂ (fun a p => a.Fits p.type) s.descriptor.params := by
  have ⟨a, ha, _⟩ := h.runs m s hm
  exact Descriptor.bind_ok_iff.mp ⟨a, Cauldron.bind_of_bound ha⟩

end Hosts

end Batch

-- A place of joined lists lies in one of them, and that list stands around it as a whole.
theorem exists_of_lt_length_flatten {α β : Type} {r : α → List β → Prop} {xs : List α} {bss : List (List β)}
    {k : Nat} (h : xs.Forall₂ r bss) (hk : k < bss.flatten.length) :
    ∃ x ∈ xs, ∃ bs o j, r x bs ∧ (j < bs.length) ∧ (k = o + j) ∧
      (∀ m b, bs[m]? = some b → bss.flatten[o + m]? = some b) := by
  induction h generalizing k
  case nil => contradiction
  case cons x bs xs bss hr _ hi =>
    rw [List.flatten_cons, List.length_append] at hk
    by_cases hl : k < bs.length
    case pos =>
      refine ⟨x, List.mem_cons_self, bs, 0, k, hr, hl, (Nat.zero_add k).symm, ?_⟩
      intro m b hm
      have ⟨hm', _⟩ := List.getElem?_eq_some_iff.mp hm
      rw [List.flatten_cons, Nat.zero_add, List.getElem?_append_left hm', hm]
    case neg =>
      obtain ⟨y, hy, cs, o, j, hs, hj, hk, ho⟩ := hi (k := k - bs.length) (by omega)
      refine ⟨y, List.mem_cons_of_mem _ hy, cs, bs.length + o, j, hs, hj, by omega, ?_⟩
      intro m b hm
      rw [List.flatten_cons, Nat.add_assoc, List.getElem?_append_right (Nat.le_add_right ..),
        Nat.add_sub_cancel_left, ho m b hm]

namespace Compiler

variable {c : Compiler} {i : Intent} {b : Batch} {k : Nat}

theorem exists_hosts_actions {as : List Action} (h : c.actions i = .ok as) (hk : k < as.length) :
    ∃ p ∈ i.parts, ∃ ss o j,
      (Batch.ofActions as).Hosts c.cauldron o p ss ∧ (j < ss.length) ∧ (k = o + j) := by
  rw [actions_eq_flatten] at h
  obtain ⟨ass, ha, rfl⟩ := map_eq_ok.mp h
  obtain ⟨p, hp, as, o, j, hg, hj, hk, ho⟩ := exists_of_lt_length_flatten (mapM_eq_ok ha) hk
  obtain ⟨ss, hs, hm⟩ := Cauldron.group_eq_ok.mp hg
  have hm := mapM_eq_ok hm
  refine ⟨p, hp, ss, o, j, ⟨hs, ?_⟩, hm.length_eq ▸ hj, hk⟩
  intro m s hs
  have ⟨a, ha, hb⟩ := getElem?_of_forall₂ hm hs
  exact Batch.runs_ofActions hb <| ho m a ha

theorem exists_hosts (h : c.compile i = .ok (.cook b)) (hk : k < b.actions.length) :
    ∃ p ∈ i.parts, ∃ ss o j, b.Hosts c.cauldron o p ss ∧ (j < ss.length) ∧ (k = o + j) := by
  obtain ⟨as, ha, rfl⟩ := actions_of_compile h
  rw [Batch.ofActions, List.length_map] at hk
  exact exists_hosts_actions ha hk

end Compiler

end CauldronCalls
