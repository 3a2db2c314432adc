import CauldronCalls.Proofs.Compiler.Refusal

/-!
Builders that are served requests one after the other, whatever each of them asks for and whether or not the ones
before it failed. The main statement is that each request either appends all of its actions or leaves the builder
as it was, and that no action ever gets into a batch whose cauldron is too old for it.
-/

namespace CauldronCalls

open Outcome

-- The opcode is that of an action in the catalog, and this revision has the action.
def Version.Understands (v : Version) (o : UInt8) : Prop :=
  ∃ d ∈ catalog, (d.opcode = o) ∧ (d.minVersion ≤ v)

namespace Cauldron

variable {c : Cauldron} {s : Step} {a : Action}

theorem minVersion_le_of_bound (h : c.bound s = .ok a) : s.descriptor.minVersion ≤ c.version := by
  rw [bound, Builder.bound] at h
  split at h
  case isTrue hv => exact hv
  case isFalse   => contradiction

theorem understands_of_bound (hs : s.Catalogued) (h : c.bound s = .ok a) : c.version.Understands a.opcode := by
  have hv := minVersion_le_of_bound h
  obtain ⟨_, _, _, rfl⟩ := Descriptor.bind_ok <| bind_of_bound h
  have hd : s.descriptor ∈ catalog := by
    rw [Step.Catalogued] at hs
    rw [hs]
    exact List.mem_map_of_mem <| ActionKind.mem_all _
  exact ⟨s.descriptor, hd, rfl, hv⟩

theorem bound_too_old (h : ¬s.descriptor.minVersion ≤ c.version) :
    c.bound s = .error (.unsupportedVersion s.descriptor.kind s.descriptor.minVersion c.version) :=
  if_neg h

end Cauldron

namespace Builder

namespace Request

-- How many actions the request stands for.
def size : Request → Nat
  | push ..             => 1
  | approval _          => 1
  | addCollateral ..    => 2
  | removeCollateral .. => 2
  | leverage ..         => 3

variable {c : Cauldron} {r : Request} {ss : List Step}

theorem length_group (h : r.group = .ok ss) : ss.length = r.size := by
  cases r
  case leverage s w l =>
    rw [Part.steps_leverage (s := s) (l := l) h]
    rfl
  all_goals
    cases h
    rfl

theorem catalogued_group (h : r.group = .ok ss) : ∀ s ∈ ss, s.Catalogued := by
  cases r
  case push =>
    cases h
    exact List.forall_mem_singleton.mpr rfl
  case approval a           => exact Part.catalogued_steps (p := .approval a) (w := ⟨.zero, .simpleSwap⟩) h
  case addCollateral s a    => exact Part.catalogued_steps (p := .add s a) (w := ⟨.zero, .simpleSwap⟩) h
  case removeCollateral s r => exact Part.catalogued_steps (p := .remove s r) (w := ⟨.zero, .simpleSwap⟩) h
  case leverage s w l       => exact Part.catalogued_steps (p := .leverage s l) h

-- Only the first step of a group takes an amount that may be too large for its slot, so the others are never refused.
theorem bound_tail_group (h : r.group = .ok ss) : ∀ s ∈ ss.tail, ∃ a, c.bound s = .ok a := by
  have hf : ∀ s ∈ ss.tail, (s.descriptor.minVersion = .v1) ∧
      s.args.Forall₂ (fun a p => a.Fits p.type) s.descriptor.params := by
    cases r
    case leverage s w l =>
      rw [Part.steps_leverage (s := s) (l := l) h]
      simp [ActionKind.step, ActionKind.descriptor, ActionKind.minVersion, ActionKind.params, Argument.Fits]
    all_goals
      cases h
      simp [AddCollateral.steps, RemoveCollateral.steps, MasterContractApproval.steps, ActionKind.step,
        ActionKind.descriptor, ActionKind.minVersion, ActionKind.params, Argument.Fits]
  intro s hs
  obtain ⟨hv, ha⟩ := hf s hs
  exact Cauldron.bound_ok_iff hv |>.mpr ha

end Request

-- What serving a request does to a builder.
structure Served (b : Builder) (r : Request) : Prop where
  grows  : b.actions <+: (b.serve r).1.actions
  -- Nothing is left of a request that fails, even if its group has several steps.
  failed : ∀ e, (b.serve r).2 = .error e → (b.serve r).1 = b
  done   : (b.serve r).2 = .ok () → ∃ as, ((b.serve r).1.actions = b.actions ++ as) ∧ (as.length = r.size)

-- The cauldron is not too old for any of the actions.
def Understood (b : Builder) : Prop :=
  ∀ a ∈ b.actions, b.cauldron.version.Understands a.opcode

variable {b : Builder} {r : Request} {ss : List Step} {e : CompileError}

theorem pushAll_refused {s : Step} (h : b.cauldron.bound s = .error e) : b.pushAll (s :: ss) = (b, .error e) := by
  simp only [pushAll, bound_eq, h]

theorem pushAll_error_of_tail (h : ss.mapM b.cauldron.bound = .error e)
    (ht : ∀ s ∈ ss.tail, ∃ a, b.cauldron.bound s = .ok a) : b.pushAll ss = (b, .error e) := by
  cases ss
  case nil => contradiction
  case cons s ss =>
    obtain hs | ⟨_, _, hs⟩ := mapM_cons_eq_error.mp h
    case inl => exact pushAll_refused hs
    case inr =>
      have ⟨_, ha⟩ := mapM_ok_iff.mpr ht
      rw [List.tail_cons, hs] at ha
      contradiction

-- All that can happen when a request is served.
theorem serve_cases (b : Builder) (r : Request) :
    (∃ e, b.serve r = (b, .error e)) ∨
    (∃ as, (b.serve r = ({ b with actions := b.actions ++ as }, .ok ())) ∧ (as.length = r.size) ∧
      (∀ a ∈ as, b.cauldron.version.Understands a.opcode)) := by
  rw [serve]
  obtain ⟨ss, hs⟩ | ⟨e, he⟩ := ok_or_error r.group
  case inr =>
    rw [he]
    exact .inl ⟨e, rfl⟩
  case inl =>
    rw [hs]
    obtain ⟨as, ha⟩ | ⟨e, he⟩ := ok_or_error (ss.mapM b.cauldron.bound)
    case inl =>
      refine .inr ⟨as, pushAll_ok ha, ?length, ?understood⟩
      case length => rw [← (mapM_eq_ok ha).length_eq, r.length_group hs]
      case understood =>
        intro a hm
        have ⟨s, hm, hb⟩ := exists_of_mem_mapM ha hm
        exact Cauldron.understands_of_bound (r.catalogued_group hs s hm) hb
    case inr => exact .inl ⟨e, pushAll_error_of_tail he <| r.bound_tail_group hs⟩

theorem served (b : Builder) (r : Request) : b.Served r := by
  obtain ⟨e, h⟩ | ⟨as, h, hl, _⟩ := b.serve_cases r
  case inl =>
    constructor
    case grows  => simp [h]
    case failed =>
      intro _ _
      rw [h]
    case done =>
      intro hd
      rw [h] at hd
      contradiction
  case inr =>
    constructor
    case grows  => simp [h]
    case failed =>
      intro _ he
      rw [h] at he
      contradiction
    case done =>
      intro _
      exact ⟨as, by rw [h], hl⟩

theorem cauldron_serve (b : Builder) (r : Request) : (b.serve r).1.cauldron = b.cauldron := by
  obtain ⟨_, h⟩ | ⟨_, h, _⟩ := b.serve_cases r <;> rw [h]

theorem understood_serve (h : b.Understood) (r : Request) : (b.serve r).1.Understood := by
  obtain ⟨_, hs⟩ | ⟨as, hs, _, ha⟩ := b.serve_cases r <;> rw [hs]
  case inl => exact h
  case inr => exact List.forall_mem_append.mpr ⟨h, ha⟩

-- What every request leaves true is still true after a run, however many of the requests failed.
theorem run_preserves {P : Builder → Prop} (hs : ∀ b r, P b → P (b.serve r).1) (h : P b) (rs : List Request) :
    P (b.run rs) := by
  induction rs generalizing b
  case nil         => exact h
  case cons r _ hi => exact hi <| hs b r h

theorem cauldron_run (b : Builder) (rs : List Request) : (b.run rs).cauldron = b.cauldron :=
  run_preserves (P := (·.cauldron = b.cauldron)) (fun b' r h => (b'.cauldron_serve r).trans h) rfl rs

theorem understood_run (h : b.Understood) (rs : List Request) : (b.run rs).Understood :=
  run_preserves (P := Understood) (fun _ r h => understood_serve h r) h rs

theorem prefix_run (b : Builder) (rs : List Request) : b.actions <+: (b.run rs).actions :=
  run_preserves (P := (b.actions <+: ·.actions)) (fun b' r h => h.trans (b'.served r).grows) (List.prefix_refl _) rs

-- Whatever a builder has been asked for before, and whatever of it has failed.
theorem run_atomic {c : Cauldron} {rs : List Request} {b : Builder} (h : (empty c).run rs = b) :
    (∀ r, b.Served r) ∧
    (∀ rs, b.actions <+: (b.run rs).actions) ∧
    (∀ a ∈ b.actions, c.version.Understands a.opcode) ∧
    (∀ k v as, ¬k.minVersion ≤ c.version →
      (b.serve (.push k v as)).2 = .error (.unsupportedVersion k k.minVersion c.version)) := by
  have hc : b.cauldron = c := h ▸ cauldron_run _ _
  refine ⟨b.served, b.prefix_run, ?understood, ?old⟩
  case understood =>
    have hu : (empty c).Understood := fun _ ha => nomatch ha
    exact hc ▸ h ▸ understood_run hu rs
  case old =>
    intro k v as hk
    subst hc
    have hb := Cauldron.bound_too_old (s := ⟨k.descriptor, v, as⟩) hk
    exact congrArg Prod.snd <| pushAll_refused hb

-- A withdrawal and a leverage are refused for their amounts, one before and one after a deposit, and a liquidation
-- for the revision although it lacks its arguments as well.
theorem run_atomic_deposit :
    ∃ b a d,
      ((empty ⟨"", 1, 0, ⟨.zero, .v1⟩, ⟨.zero, .simpleSwap⟩⟩).run [
        .removeCollateral .zero ⟨.native, BitVec.ofNat 256 (2 ^ 255), none⟩,
        .addCollateral .zero ⟨.native, 5⟩] = b) ∧
      (b.actions = [a, d]) ∧
      ((b.serve (.leverage .zero ⟨.zero, .simpleSwap⟩ ⟨BitVec.ofNat 256 (2 ^ 255), 4, none⟩)).1 = b) ∧
      ((b.serve (.push .liquidate 0 [])).2 = .error (.unsupportedVersion .liquidate .v4 .v1)) := by
  obtain ⟨b, hb⟩ : ∃ b, (empty ⟨"", 1, 0, ⟨.zero, .v1⟩, ⟨.zero, .simpleSwap⟩⟩).run [
        .removeCollateral .zero ⟨.native, BitVec.ofNat 256 (2 ^ 255), none⟩,
        .addCollateral .zero ⟨.native, 5⟩] = b := ⟨_, rfl⟩
  have ⟨hs, _, _, hv⟩ := run_atomic hb
  have ⟨a, d, ha⟩ : ∃ a d, b.actions = [a, d] := by
    subst hb
    exact ⟨_, _, rfl⟩
  have he : (b.serve (.leverage .zero ⟨.zero, .simpleSwap⟩ ⟨BitVec.ofNat 256 (2 ^ 255), 4, none⟩)).2 =
      .error (.argumentMismatch .borrow (.oversizedLiteral "amount")) := by
    subst hb
    rfl
  exact ⟨b, a, d, hb, ha, hs _ |>.failed _ he, hv .liquidate 0 [] (by decide)⟩

end Builder

end CauldronCalls
