import CauldronCalls.Proofs.Outcome
import CauldronCalls.Wire.Record
import Mathlib.Order.Nat

/-!
What an object makes of its entries, in memory or in a text. An entry is looked at with the names in mind that came
before it: the first one that is wrong ends the reading, and only an object without such an entry can lack a field. The
main statement says which values, and which errors, come of which entries.
-/

namespace CauldronCalls.Wire

open Outcome

-- How a field gets its value out of an entry, and how a fault of the object itself is told.
structure Access (β ε : Type) where
  get   : {α : Type} → Wire α → β → Except ε α
  fault : Mismatch → ε

section Specification

variable {β ε α ρ : Type} {αs : List Type} (r : Access β ε)

-- The entries give the field its value: its name comes once at most, and what is absent has to have a meaning.
structure Field.GivenBy (f : Field α) (xs : List (String × β)) (a : α) : Prop where
  once   : (xs.map Prod.fst).count f.name ≤ 1
  value  : ∀ x, (f.name, x) ∈ xs → r.get f.wire x = .ok a
  absent : f.name ∉ xs.map Prod.fst → f.absent = some a

namespace Fields

def names : {αs : List Type} → Fields αs → List String
  | _, nil       => []
  | _, cons f fs => f.name :: fs.names

def All (P : {α : Type} → Field α → Prop) : {αs : List Type} → Fields αs → Prop
  | _, nil       => True
  | _, cons f fs => P f ∧ fs.All P

def Any (P : {α : Type} → Field α → Prop) : {αs : List Type} → Fields αs → Prop
  | _, nil       => False
  | _, cons f fs => P f ∨ fs.Any P

-- Every field and its value in a row.
def Each (P : {α : Type} → Field α → α → Prop) : {αs : List Type} → Fields αs → Row αs → Prop
  | _, nil, _              => True
  | _, cons f fs, (a, row) => P f a ∧ fs.Each P row

-- The names of the fields that have to occur, in the order of declaration.
def required : {αs : List Type} → Fields αs → List String
  | _, nil       => []
  | _, cons f fs => if f.absent.isSome then fs.required else f.name :: fs.required

-- What is wrong with an entry behind others of the names `seen`. If its name came before, its value does not matter.
inductive Offends (fs : Fields αs) (seen : List String) (k : String) (x : β) : ε → Prop
  | twice (hk : k ∈ fs.names) (hs : k ∈ seen) : Offends fs seen k x (r.fault (.duplicateField k))
  | value {e : ε} (hs : k ∉ seen) (he : fs.Any fun f => f.name = k ∧ r.get f.wire x = .error e) :
    Offends fs seen k x e

-- The error is that of the first entry with which something is wrong.
inductive FirstOffence (fs : Fields αs) : List String → List (String × β) → ε → Prop
  | here {seen : List String} {k : String} {x : β} {xs : List (String × β)} {e : ε} (h : fs.Offends r seen k x e) :
    FirstOffence fs seen ((k, x) :: xs) e
  | later {seen : List String} {k : String} {x : β} {xs : List (String × β)} {e : ε}
      (hk : ∀ d, ¬fs.Offends r seen k x d) (h : FirstOffence fs (seen ++ [k]) xs e) :
    FirstOffence fs seen ((k, x) :: xs) e

-- The outcome is that of an object with these entries.
structure Decides (fs : Fields αs) (build : Row αs → ρ) (xs : List (String × β)) (o : Except ε ρ) : Prop where
  accepts : (∃ a, o = .ok a) ↔
    (∀ k ∈ fs.names, (xs.map Prod.fst).count k ≤ 1) ∧
    (fs.All fun f => ∀ x, (f.name, x) ∈ xs → ∃ a, r.get f.wire x = .ok a) ∧
    (∀ k ∈ fs.required, k ∈ xs.map Prod.fst)
  value   : ∀ a, o = .ok a ↔ ∃ row, a = build row ∧ fs.Each (fun f b => f.GivenBy r xs b) row
  refuses : ∀ e, o = .error e ↔
    (fs.FirstOffence r [] xs e) ∨
    ((∀ d, ¬fs.FirstOffence r [] xs d) ∧
      ∃ k, fs.required.find? (· ∉ xs.map Prod.fst) = some k ∧ e = r.fault (.missingField k))

end Fields

end Specification

variable {β ε α ρ : Type} {αs : List Type} {r : Access β ε} {f : Field α} {fs : Fields αs} {k : String} {x : β}
  {xs ys : List (String × β)} {e : ε} {a b : α} {slot : Option α} {slots slots' : Slots αs} {row row' : Row αs}
  {seen : List String}

-- The slot holds what the entries so far have for its field.
def Field.Holds (r : Access β ε) (f : Field α) (xs : List (String × β)) : Option α → Prop
  | none   => f.name ∉ xs.map Prod.fst
  | some a => (xs.map Prod.fst).count f.name = 1 ∧ ∀ x, (f.name, x) ∈ xs → r.get f.wire x = .ok a

namespace Fields

-- One entry more: its value goes into the slot of its field, and an unknown name changes nothing.
def advance (r : Access β ε) (fs : Fields αs) (slots : Slots αs) (k : String) (x : β) : Except ε (Slots αs) :=
  match fs.store k (r.fault (.duplicateField k)) (fun w => (·, ()) <$> r.get w x) slots with
  | some stored => Prod.fst <$> stored
  | none        => .ok slots

def gather (r : Access β ε) (fs : Fields αs) : Slots αs → List (String × β) → Except ε (Slots αs)
  | slots, []           => .ok slots
  | slots, (k, x) :: xs => do fs.gather r (← fs.advance r slots k x) xs

def gatherObject (r : Access β ε) (fs : Fields αs) (xs : List (String × β)) : Except ε (Row αs) := do
  let slots ← fs.gather r fs.noneYet xs
  (fs.complete slots).mapError r.fault

def Hold (r : Access β ε) (xs : List (String × β)) : {αs : List Type} → Fields αs → Slots αs → Prop
  | _, nil, _                      => True
  | _, cons f fs, (slot, slots) => f.Holds r xs slot ∧ fs.Hold r xs slots

end Fields

section Step

theorem Field.Holds.append_ne (h : f.Holds r xs slot) (hk : f.name ≠ k) : f.Holds r (xs ++ [(k, x)]) slot := by
  have hn : f.name ∉ [k] := by simpa using hk
  cases slot
  case none =>
    rw [Holds, List.map_append]
    exact fun hm => List.mem_append.mp hm |>.elim h hn
  case some a =>
    refine ⟨?count, fun y hy => ?value⟩
    case count => rw [List.map_append, List.count_append, h.left, List.map_singleton, List.count_eq_zero_of_not_mem hn]
    case value =>
      rcases List.mem_append.mp hy with hy | hy
      · exact h.right y hy
      · cases List.mem_singleton.mp hy
        contradiction

theorem Field.holds_append_own (hk : f.name ∉ xs.map Prod.fst) (ha : r.get f.wire x = .ok a) :
    f.Holds r (xs ++ [(f.name, x)]) (some a) := by
  refine ⟨?count, fun y hy => ?value⟩
  case count => simp [List.count_eq_zero_of_not_mem hk]
  case value =>
    rcases List.mem_append.mp hy with hy | hy
    · exact absurd (List.mem_map_of_mem hy) hk
    · cases List.mem_singleton.mp hy
      exact ha

theorem Field.Holds.mem_iff (h : f.Holds r xs slot) : f.name ∈ xs.map Prod.fst ↔ slot.isSome := by
  cases slot
  case none   => exact iff_of_false h nofun
  case some a =>
    refine iff_of_true ?_ rfl
    exact List.count_pos_iff.mp <| h.left ▸ Nat.one_pos

namespace Fields

theorem any_name_mem (h : fs.Any fun f => f.name = k ∧ r.get f.wire x = .error e) : k ∈ fs.names := by
  induction fs
  case nil          => contradiction
  case cons f fs hi =>
    obtain ⟨rfl, _⟩ | h := h
    · exact List.mem_cons_self
    · exact List.mem_cons_of_mem _ <| hi h

theorem Hold.append_unknown (h : fs.Hold r xs slots) (hk : k ∉ fs.names) : fs.Hold r (xs ++ [(k, x)]) slots := by
  induction fs
  case nil          => trivial
  case cons f fs hi =>
    have ⟨hf, hk⟩ := List.ne_and_not_mem_of_not_mem_cons hk
    exact ⟨h.left.append_ne hf.symm, hi h.right hk⟩

theorem advance_own (hk : f.name = k) : (cons f fs).advance r (slot, slots) k x =
    match slot with
    | some _ => .error (r.fault (.duplicateField k))
    | none   => (some ·, slots) <$> r.get f.wire x := by
  simp only [advance, store, if_pos hk]
  cases slot
  case some => rfl
  case none => cases r.get f.wire x <;> rfl

theorem advance_other (hk : f.name ≠ k) :
    (cons f fs).advance r (slot, slots) k x = (slot, ·) <$> fs.advance r slots k x := by
  simp only [advance, store, if_neg hk]
  rcases fs.store k _ _ slots with _ | _ | _ <;> rfl

-- What one entry more keeps.
theorem Hold.advance (h : fs.Hold r xs slots) (hn : fs.names.Nodup) (hs : fs.advance r slots k x = .ok slots') :
    fs.Hold r (xs ++ [(k, x)]) slots' := by
  induction fs
  case nil          => trivial
  case cons f fs hi =>
    obtain ⟨slot, slots⟩ := slots
    have ⟨hf, hn⟩ := List.nodup_cons.mp hn
    by_cases hk : f.name = k
    case pos =>
      rw [advance_own hk] at hs
      cases slot
      case some => cases hs
      case none =>
        obtain ⟨a, ha, rfl⟩ := map_eq_ok.mp hs
        subst hk
        exact ⟨Field.holds_append_own h.left ha, h.right.append_unknown hf⟩
    case neg =>
      rw [advance_other hk] at hs
      obtain ⟨_, ha, rfl⟩ := map_eq_ok.mp hs
      exact ⟨h.left.append_ne hk, hi h.right hn ha⟩

theorem offends_own (hk : f.name = k) (hf : f.name ∉ fs.names) : (cons f fs).Offends r seen k x e ↔
    (k ∈ seen ∧ e = r.fault (.duplicateField k)) ∨ (k ∉ seen ∧ r.get f.wire x = .error e) := by
  constructor
  case mp =>
    rintro (⟨_, hs⟩ | ⟨hs, ⟨_, he⟩ | he⟩)
    · exact .inl ⟨hs, rfl⟩
    · exact .inr ⟨hs, he⟩
    · exact absurd (hk ▸ any_name_mem he) hf
  case mpr =>
    rintro (⟨hs, rfl⟩ | ⟨hs, he⟩)
    · exact .twice (hk ▸ List.mem_cons_self) hs
    · exact .value hs <| .inl ⟨hk, he⟩

theorem offends_other (hk : f.name ≠ k) : (cons f fs).Offends r seen k x e ↔ fs.Offends r seen k x e := by
  constructor
  case mp =>
    rintro (⟨hm, hs⟩ | ⟨hs, ⟨hf, _⟩ | he⟩)
    · exact .twice (List.mem_of_ne_of_mem hk.symm hm) hs
    · contradiction
    · exact .value hs he
  case mpr =>
    rintro (⟨hm, hs⟩ | ⟨hs, he⟩)
    · exact .twice (List.mem_cons_of_mem _ hm) hs
    · exact .value hs <| .inr he

theorem advance_eq_error (h : fs.Hold r xs slots) (hn : fs.names.Nodup) :
    fs.advance r slots k x = .error e ↔ fs.Offends r (xs.map Prod.fst) k x e := by
  induction fs
  case nil          => exact iff_of_false nofun fun | .twice hk _ => nomatch hk
  case cons f fs hi =>
    obtain ⟨slot, slots⟩ := slots
    have ⟨hf, hn⟩ := List.nodup_cons.mp hn
    by_cases hk : f.name = k
    case pos =>
      have hm := h.left.mem_iff
      rw [hk] at hm
      rw [advance_own hk, offends_own hk hf, hm]
      cases slot
      case some => simp [eq_comm]
      case none => simp [map_eq_error]
    case neg => rw [advance_other hk, map_eq_error, offends_other hk, hi h.right hn]

end Fields

end Step

section Run

namespace Fields

theorem Hold.gather (h : fs.Hold r ys slots) (hn : fs.names.Nodup) (hs : fs.gather r slots xs = .ok slots') :
    fs.Hold r (ys ++ xs) slots' := by
  induction xs generalizing ys slots
  case nil =>
    cases hs
    rwa [List.append_nil]
  case cons hi =>
    have ⟨_, ha, hs⟩ := bind_eq_ok.mp hs
    have h := hi (h.advance hn ha) hs
    rwa [List.append_assoc, List.singleton_append] at h

theorem firstOffence_cons : fs.FirstOffence r seen ((k, x) :: xs) e ↔
    fs.Offends r seen k x e ∨ ((∀ d, ¬fs.Offends r seen k x d) ∧ fs.FirstOffence r (seen ++ [k]) xs e) := by
  constructor
  case mp =>
    rintro (h | ⟨hk, h⟩)
    · exact .inl h
    · exact .inr ⟨hk, h⟩
  case mpr =>
    rintro (h | ⟨hk, h⟩)
    · exact .here h
    · exact .later hk h

theorem gather_eq_error (h : fs.Hold r ys slots) (hn : fs.names.Nodup) :
    fs.gather r slots xs = .error e ↔ fs.FirstOffence r (ys.map Prod.fst) xs e := by
  induction xs generalizing ys slots
  case nil          => exact iff_of_false nofun nofun
  case cons kx xs hi =>
    obtain ⟨k, x⟩ := kx
    have hk {d : ε} : fs.advance r slots k x = .error d ↔ fs.Offends r (ys.map Prod.fst) k x d := advance_eq_error h hn
    simp only [gather, bind_eq_error, firstOffence_cons, ← hk]
    refine or_congr Iff.rfl ?_
    cases ha : fs.advance r slots k x
    case error d     => simp
    case ok slots' =>
      have hi := hi (h.advance hn ha)
      rw [List.map_append, List.map_singleton] at hi
      simp [hi]

theorem hold_noneYet : fs.Hold r [] fs.noneYet := by
  induction fs
  case nil     => trivial
  case cons hi => exact ⟨List.not_mem_nil, hi⟩

end Fields

end Run

section Fields

namespace Fields

variable {P Q : {α : Type} → Field α → Prop}

theorem All.imp (h : fs.All P) (hi : ∀ {α : Type} (f : Field α), P f → Q f) : fs.All Q := by
  induction fs
  case nil          => trivial
  case cons f fs hc => exact ⟨hi f h.left, hc h.right⟩

theorem all_names {P : String → Prop} : (fs.All fun f => P f.name) ↔ ∀ k ∈ fs.names, P k := by
  induction fs
  case nil     => simp [All, names]
  case cons hi => simp [All, names, hi]

theorem all_of_each {P : {α : Type} → Field α → α → Prop} (h : fs.Each P row)
    (hi : ∀ {α : Type} (f : Field α) (a : α), P f a → Q f) : fs.All Q := by
  induction fs
  case nil          => trivial
  case cons f fs hc => exact ⟨hi f _ h.left, hc h.right⟩

theorem Hold.all (h : fs.Hold r xs slots)
    (hi : ∀ {α : Type} (f : Field α) (slot : Option α), f.Holds r xs slot → Q f) : fs.All Q := by
  induction fs
  case nil          => trivial
  case cons f fs hc => exact ⟨hi f _ h.left, hc h.right⟩

theorem not_any_of_all (h : fs.All P) (hc : ∀ {α : Type} (f : Field α), P f → ¬Q f) : ¬fs.Any Q := by
  induction fs
  case nil          => exact id
  case cons f fs hi => exact fun hq => hq.elim (hc f h.left) (hi h.right)

end Fields

end Fields

section Outcome

theorem Field.Holds.count_le (h : f.Holds r xs slot) : (xs.map Prod.fst).count f.name ≤ 1 := by
  cases slot
  case none => exact List.count_eq_zero_of_not_mem h |>.trans_le (Nat.zero_le _)
  case some => exact h.left.le

theorem Field.Holds.accepted (h : f.Holds r xs slot) (x : β) (hx : (f.name, x) ∈ xs) :
    ∃ a, r.get f.wire x = .ok a := by
  cases slot
  case none   => exact absurd (List.mem_map_of_mem hx) h
  case some a => exact ⟨a, h.right x hx⟩

theorem Field.Holds.given_iff (h : f.Holds r xs slot) : (slot <|> f.absent) = some a ↔ f.GivenBy r xs a := by
  cases slot
  case none =>
    refine ⟨fun ha => ⟨h.count_le, fun x hx => ?_, fun _ => ha⟩, fun ha => ha.absent h⟩
    exact absurd (List.mem_map_of_mem hx) h
  case some b =>
    have hm : f.name ∈ xs.map Prod.fst := h.mem_iff.mpr rfl
    constructor
    case mp =>
      intro ha
      cases ha
      exact ⟨h.count_le, h.right, fun hn => absurd hm hn⟩
    case mpr =>
      intro ha
      have ⟨⟨_, x⟩, hx, hk⟩ := List.mem_map.mp hm
      cases hk
      exact (h.right x hx).symm.trans (ha.value x hx) |> Except.ok.inj |> congrArg some

theorem Field.GivenBy.accepted (h : f.GivenBy r xs a) (x : β) (hx : (f.name, x) ∈ xs) : ∃ a, r.get f.wire x = .ok a :=
  ⟨a, h.value x hx⟩

namespace Fields

theorem complete_eq_ok (h : fs.Hold r xs slots) :
    fs.complete slots = .ok row ↔ fs.Each (fun f a => f.GivenBy r xs a) row := by
  induction fs
  case nil          => exact iff_of_true rfl trivial
  case cons f fs hi =>
    rw [Each, ← h.left.given_iff, ← hi h.right, complete]
    cases slots.1 <|> f.absent <;> simp [bind_eq_ok, Prod.ext_iff, and_comm]

theorem complete_eq_error {m : Mismatch} (h : fs.Hold r xs slots) :
    fs.complete slots = .error m ↔
      ∃ k, fs.required.find? (· ∉ xs.map Prod.fst) = some k ∧ m = .missingField k := by
  induction fs
  case nil          => simp [complete, required]
  case cons α _ f fs hi =>
    obtain ⟨slot, slots⟩ := slots
    have hi := hi h.right
    have hm := h.left.mem_iff
    have hc {a : α} : (do let row ← fs.complete slots; .ok (a, row) : Except Mismatch _) = .error m ↔
        fs.complete slots = .error m := by simp [bind_eq_error]
    rw [complete, required]
    cases slot <;> cases ha : f.absent <;> simp_all [eq_comm]

theorem FirstOffence.absurd (h : fs.FirstOffence r seen xs e)
    (hc : ∀ k ∈ fs.names, (seen ++ xs.map Prod.fst).count k ≤ 1)
    (ha : fs.All fun f => ∀ x, (f.name, x) ∈ xs → ∃ a, r.get f.wire x = .ok a) : False := by
  induction h
  case here seen k x xs e h =>
    cases h
    case twice hk hs =>
      have hp : 0 < seen.count k := List.count_pos_iff.mpr hs
      have hc := hc k hk
      rw [List.map_cons, List.count_append, List.count_cons_self] at hc
      omega
    case value he =>
      refine not_any_of_all ha (fun f hf ⟨hk, he⟩ => ?_) he
      have ⟨a, ha⟩ := hf x (hk ▸ List.mem_cons_self)
      cases ha.symm.trans he
  case later hi =>
    refine hi (fun k hk => ?_) <| ha.imp fun f hf x hx => hf x (List.mem_cons_of_mem _ hx)
    have hc := hc k hk
    rwa [List.map_cons, ← List.singleton_append, ← List.append_assoc] at hc

variable (hn : fs.names.Nodup)
include hn

theorem no_firstOffence_iff : (∀ e, ¬fs.FirstOffence r [] xs e) ↔
    (∀ k ∈ fs.names, (xs.map Prod.fst).count k ≤ 1) ∧
    (fs.All fun f => ∀ x, (f.name, x) ∈ xs → ∃ a, r.get f.wire x = .ok a) := by
  constructor
  case mpr => exact fun ⟨hc, ha⟩ e h => h.absurd hc ha
  case mp  =>
    intro h
    obtain ⟨slots, hs⟩ | ⟨e, he⟩ := ok_or_error <| fs.gather r fs.noneYet xs
    case inr => exact absurd (gather_eq_error hold_noneYet hn |>.mp he) (h e)
    case inl =>
      have hs := hold_noneYet.gather hn hs
      exact ⟨all_names.mp <| hs.all fun _ _ h => h.count_le, hs.all fun _ _ h => h.accepted⟩

theorem gatherObject_eq_ok :
    fs.gatherObject r xs = .ok row ↔ fs.Each (fun f a => f.GivenBy r xs a) row := by
  rw [gatherObject, bind_eq_ok]
  constructor
  case mp =>
    intro ⟨slots, hs, hc⟩
    exact complete_eq_ok (hold_noneYet.gather hn hs) |>.mp <| mapError_eq_ok.mp hc
  case mpr =>
    intro h
    have hf := no_firstOffence_iff hn |>.mpr
      ⟨all_names.mp <| all_of_each h fun _ _ h => h.once, all_of_each h fun _ _ h => h.accepted⟩
    obtain ⟨slots, hs⟩ | ⟨e, he⟩ := ok_or_error <| fs.gather r fs.noneYet xs
    case inr => exact absurd (gather_eq_error hold_noneYet hn |>.mp he) (hf e)
    case inl => exact ⟨slots, hs, mapError_eq_ok.mpr <| complete_eq_ok (hold_noneYet.gather hn hs) |>.mpr h⟩

theorem gatherObject_eq_error : fs.gatherObject r xs = .error e ↔
    (fs.FirstOffence r [] xs e) ∨
    ((∀ d, ¬fs.FirstOffence r [] xs d) ∧
      ∃ k, fs.required.find? (· ∉ xs.map Prod.fst) = some k ∧ e = r.fault (.missingField k)) := by
  have hg {d : ε} : fs.gather r fs.noneYet xs = .error d ↔ fs.FirstOffence r [] xs d := gather_eq_error hold_noneYet hn
  simp only [gatherObject, bind_eq_error, ← hg]
  refine or_congr Iff.rfl ?_
  cases hs : fs.gather r fs.noneYet xs
  case error     => simp
  case ok slots =>
    have hc {m : Mismatch} := complete_eq_error (m := m) <| hold_noneYet.gather hn hs
    rw [List.nil_append] at hc
    simp only [Except.ok.injEq, exists_eq_left', reduceCtorEq, not_false_eq_true, implies_true, true_and,
      mapError_eq_error, hc]
    constructor
    case mp =>
      rintro ⟨_, ⟨k, hk, rfl⟩, rfl⟩
      exact ⟨k, hk, rfl⟩
    case mpr =>
      rintro ⟨k, hk, rfl⟩
      exact ⟨_, ⟨k, hk, rfl⟩, rfl⟩

-- An object with these entries is accepted, or refused, for what the entries are.
theorem decides_gatherObject (build : Row αs → ρ) : fs.Decides r build xs (build <$> fs.gatherObject r xs) where
  accepts := by
    rw [map_ok_iff, ok_iff_ne_error, ← and_assoc, ← no_firstOffence_iff hn]
    simp only [ne_eq, gatherObject_eq_error hn]
    constructor
    case mp =>
      intro h
      have hf e : ¬fs.FirstOffence r [] xs e := fun he => h e (.inl he)
      refine ⟨hf, fun k hk => by_contra fun hm => ?_⟩
      have hs : (fs.required.find? (· ∉ xs.map Prod.fst)).isSome := List.find?_isSome.mpr ⟨k, hk, decide_eq_true hm⟩
      have ⟨j, hj⟩ := Option.isSome_iff_exists.mp hs
      exact h _ (.inr ⟨hf, j, hj, rfl⟩)
    case mpr =>
      rintro ⟨hf, hm⟩ e (he | ⟨_, k, hk, _⟩)
      · exact hf e he
      · have hn := List.find?_some hk
        simp [hm k (List.mem_of_find?_eq_some hk)] at hn
  value a := by
    rw [map_eq_ok]
    exact exists_congr fun row => by rw [gatherObject_eq_ok hn, and_comm, eq_comm]
  refuses e := map_eq_error.trans <| gatherObject_eq_error hn

end Fields

end Outcome

end CauldronCalls.Wire
