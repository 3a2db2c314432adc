import CauldronCalls.Proofs.Wire.Object

/-!
Objects whose entries are kept in memory: decoding one is going through its entries, each value being decoded as it
comes.
-/

namespace CauldronCalls.Wire

open Outcome

-- The value of an entry is decoded from what is kept in memory.
def Access.inMemory : Access Json Mismatch where
  get   := fun w => w.decode
  fault := id

def Access.mapError {β ε ε' : Type} (r : Access β ε) (f : ε → ε') : Access β ε' where
  get   := fun w x => (r.get w x).mapError f
  fault := fun m => f (r.fault m)

namespace Fields

variable {β ε ε' : Type} {r : Access β ε} {f : ε → ε'} {αs : List Type} {fs : Fields αs} {slots : Slots αs} {k : String}
  {x : β} {xs : List (String × β)} {entries : List (String × Json)}

theorem store_mapError {σ : Type} {twice : ε} {get : {α : Type} → Wire α → Except ε (α × σ)} :
    fs.store k (f twice) (fun w => (get w).mapError f) slots =
      (fs.store k twice get slots).map (·.mapError f) := by
  induction fs
  case nil          => rfl
  case cons g fs hi =>
    obtain ⟨slot, slots⟩ := slots
    by_cases hk : g.name = k
    case pos =>
      simp only [store, if_pos hk, Option.map_some]
      cases slot
      case some => rfl
      case none => cases get g.wire <;> rfl
    case neg =>
      simp only [store, if_neg hk, hi]
      rcases fs.store k twice get slots with _ | _ | _ <;> rfl

theorem advance_mapError : fs.advance (r.mapError f) slots k x = (fs.advance r slots k x).mapError f := by
  have hg : (fun {α} (w : Wire α) => (·, ()) <$> (r.mapError f).get w x) =
      fun {α} (w : Wire α) => ((·, ()) <$> r.get w x).mapError f := by
    funext α w
    simp only [Access.mapError]
    cases r.get w x <;> rfl
  have hf : (r.mapError f).fault (.duplicateField k) = f (r.fault (.duplicateField k)) := rfl
  rw [advance, hg, hf, store_mapError, advance]
  rcases fs.store k _ _ slots with _ | _ | _ <;> rfl

theorem gather_mapError : fs.gather (r.mapError f) slots xs = (fs.gather r slots xs).mapError f := by
  induction xs generalizing slots
  case nil => rfl
  case cons e xs hi =>
    rw [gather, gather, advance_mapError]
    cases fs.advance r slots e.1 e.2
    case error => rfl
    case ok    => exact hi

theorem gatherObject_mapError : fs.gatherObject (r.mapError f) xs = (fs.gatherObject r xs).mapError f := by
  rw [gatherObject, gatherObject, gather_mapError]
  cases fs.gather r fs.noneYet xs
  case error    => rfl
  case ok slots =>
    simp only [ok_bind, Except.mapError, Access.mapError]
    cases fs.complete slots <;> rfl

theorem decodeEntries_eq_gather : fs.decodeEntries slots entries = fs.gather .inMemory slots entries := by
  induction entries generalizing slots
  case nil            => rfl
  case cons e entries hi =>
    rw [decodeEntries, gather, advance]
    simp only [Access.inMemory, id]
    rcases fs.store e.1 _ _ slots with _ | _ | _
    · exact hi
    · rfl
    · exact hi

theorem decodeObject_eq_gatherObject : fs.decodeObject entries = fs.gatherObject .inMemory entries := by
  rw [decodeObject, gatherObject, decodeEntries_eq_gather]
  refine congrArg _ <| funext fun slots => ?_
  cases fs.complete slots <;> rfl

end Fields

end CauldronCalls.Wire

