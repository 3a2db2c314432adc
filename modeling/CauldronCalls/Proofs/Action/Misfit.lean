import CauldronCalls.Proofs.Action.Data

/-!
What is said of arguments that do not fit a schema. Their number is looked at first; if it is right, then the leftmost
argument that does not fit its slot is the one reported, whatever is wrong with those after it.
-/

namespace CauldronCalls

open Outcome

-- What is wrong with an argument in a slot that it does not fit, and how it is put.
inductive Argument.Misfits (p : Param) : Argument → Misfit → String → Prop
  | literal {n : Uint256} (ht : p.type = .int256) (hn : 2 ^ 255 ≤ n.toNat) :
    Misfits p (.amount (.literal n)) (.oversizedLiteral p.name) s!"`{p.name}` literal does not fit int256"
  -- An amount in a signed slot has the right shape.
  | shape {a : Argument} (hf : ¬a.Fits p.type) (hs : a.shape = .amount → p.type ≠ .int256) :
    Misfits p a (.shape p.name p.type a.shape) s!"`{p.name}` expects {p.type.name}, got {a.shape.name}"

-- Why arguments are refused, and how it is put. Slots and arguments are taken in pairs, from left to right.
inductive Param.Refuses (ps : List Param) (as : List Argument) : Misfit → String → Prop
  | count (hl : as.length ≠ ps.length) :
    Refuses ps as (.count ps.length as.length) s!"expected {ps.length} arguments, got {as.length}"
  | slot {before after : List (Param × Argument)} {p : Param} {a : Argument} {m : Misfit} {s : String}
      (hl : as.length = ps.length) (hz : ps.zip as = before ++ (p, a) :: after)
      (hf : ∀ x ∈ before, x.2.Fits x.1.type) (hm : a.Misfits p m s) :
    Refuses ps as m s

namespace Param

variable {p : Param} {ps : List Param} {a : Argument} {as : List Argument} {m : Misfit}

theorem misfits_of_fit (h : p.fit a = .error m) : a.Misfits p m m.message := by
  have hf : ¬a.Fits p.type := by
    intro hf
    obtain ⟨i, hi⟩ := fit_ok_iff.mpr hf
    rw [hi] at h
    contradiction
  cases a <;> simp only [fit] at h <;> split at h <;> try contradiction
  case amount.isTrue x ht =>
    split at h <;> cases h
    cases x
    case prior   => contradiction
    case literal =>
      rw [ht] at hf
      exact .literal ht <| Nat.le_of_not_lt hf
  case amount.isFalse ht =>
    cases h
    exact .shape hf fun _ => ht
  all_goals
    cases h
    exact .shape hf fun hs => by contradiction

theorem fit_eq_error_iff : p.fit a = .error m ↔ a.Misfits p m m.message := by
  refine ⟨misfits_of_fit, ?mpr⟩
  case mpr =>
    intro h
    generalize m.message = s at h
    cases h
    case literal ht hn  => exact fit_oversized ht hn
    case shape hf hs =>
      obtain hi | ⟨m, hm⟩ := ok_or_error (p.fit a)
      case inl => exact absurd (fit_ok_iff.mp hi) hf
      case inr =>
        have h := misfits_of_fit hm
        generalize m.message = s at h
        cases h
        case literal ht _ => exact absurd ht (hs rfl)
        case shape        => exact hm

theorem fitAll_eq_mapM : fitAll ps as = (ps.zip as).mapM fun x => x.1.fit x.2 := by
  induction ps generalizing as <;> cases as
  case cons.cons p ps hi a as => rw [fitAll, List.zip_cons_cons, List.mapM_cons, hi]
  all_goals rfl

theorem fitAll_eq_error_iff (hl : as.length = ps.length) : fitAll ps as = .error m ↔ Refuses ps as m m.message := by
  rw [fitAll_eq_mapM, mapM_eq_error_iff]
  constructor
  case mp =>
    rintro ⟨before, x, after, hz, hb, hm⟩
    exact .slot hl hz (fun y hy => fit_ok_iff.mp (hb y hy)) (fit_eq_error_iff.mp hm)
  case mpr =>
    intro h
    generalize hs : m.message = s at h
    cases h
    case count hn => exact absurd hl hn
    case slot before after p a _ hz hf hm =>
      exact ⟨before, (p, a), after, hz, fun y hy => fit_ok_iff.mpr (hf y hy), fit_eq_error_iff.mpr (hs ▸ hm)⟩

end Param

namespace Descriptor

variable {d : Descriptor} {v : Uint256} {as : List Argument}

theorem bind_eq_error_iff {e : CompileError} : d.bind v as = .error e ↔
    ∃ m, (e = .argumentMismatch d.kind m) ∧ Param.Refuses d.params as m m.message := by
  rw [bind]
  split
  case isTrue hl =>
    constructor
    case mp =>
      intro h
      cases h
      exact ⟨_, rfl, .count hl⟩
    case mpr =>
      rintro ⟨m, rfl, h⟩
      generalize m.message = s at h
      cases h
      case count => rfl
      case slot  => contradiction
  case isFalse hl =>
    have hl := Decidable.not_not.mp hl
    simp only [← Param.fitAll_eq_error_iff hl]
    cases Param.fitAll d.params as
    case ok      => simp
    case error m =>
      constructor
      case mp =>
        intro h
        cases h
        exact ⟨m, rfl, rfl⟩
      case mpr =>
        rintro ⟨_, rfl, h⟩
        cases h
        rfl

-- Arguments are bound if there is one for each slot and each of them fits. Otherwise their number is reported, or the
-- leftmost of those that do not fit.
theorem bind_reports (d : Descriptor) (v : Uint256) (as : List Argument) :
    ((∃ a, d.bind v as = .ok a) ↔ as.Forall₂ (fun a p => a.Fits p.type) d.params) ∧
    (∀ a, d.bind v as = .ok a → (a.opcode = d.opcode) ∧ (a.value = if d.carriesNative then v else 0)) ∧
    (∀ e, d.bind v as = .error e ↔
      ∃ m, (e = .argumentMismatch d.kind m) ∧ Param.Refuses d.params as m m.message) := by
  refine ⟨bind_ok_iff, ?bound, fun _ => bind_eq_error_iff⟩
  case bound =>
    intro a h
    obtain ⟨_, rfl⟩ := bind_eq_ok_iff.mp h
    exact ⟨rfl, rfl⟩

-- The number that is too large for a byte comes before the flag in the place of a word.
theorem bind_reports_leftmost :
    ActionKind.bentoSetApproval.descriptor.bind 0
      [.address .zero, .address .zero, .bool true, .uint 256, .bool false, .word (.zero 32)] =
        .error (.argumentMismatch .bentoSetApproval (.shape "v" .uint8 .uint)) := by
  refine bind_reports _ _ _ |>.right.right _ |>.mpr ⟨_, rfl, ?_⟩
  let before : List (Param × Argument) :=
    [(⟨"user", .address⟩, .address .zero), (⟨"masterContract", .address⟩, .address .zero),
      (⟨"approved", .bool⟩, .bool true)]
  refine @Param.Refuses.slot _ _ before _ ⟨"v", .uint8⟩ (.uint 256) _ _ rfl rfl ?fits ?misfits
  case fits    => simp [before, Argument.Fits]
  case misfits => exact .shape (by simp [Argument.Fits]) (by simp [Argument.shape])

end Descriptor

end CauldronCalls
