import CauldronCalls.Proofs.Json.Spelling
import CauldronCalls.Proofs.Outcome
import CauldronCalls.Wire.Enumeration
import CauldronCalls.Wire.ByteString

/-!
Reading a form straight from a text against decoding it from the value that the text holds. The two agree, on the
value and on what is wrong with it, wherever the text is well formed.
-/

namespace CauldronCalls.Wire

open Outcome

variable {α β : Type} {w : Wire α} {x : Json} {cs mid rest : List Char} {depth : Nat}

-- The reader ends as the decoder does: with its value and before `rest`, or with what is wrong.
def Settles (r : Json.Scan ReadError (α × List Char)) (o : Except Mismatch α) (rest : List Char) : Prop :=
  match o with
  | .ok a    => r = .ok (a, rest)
  | .error m => ∃ cs, r = .error ⟨.mismatch m, cs⟩

theorem settles_settle (o : Except Mismatch α) : Settles (settle rest o) o rest := by
  cases o
  case ok    => rfl
  case error => exact ⟨_, rfl⟩

theorem Settles.bind {r : Json.Scan ReadError (α × List Char)} {o : Except Mismatch α}
    {f : α × List Char → Json.Scan ReadError (β × List Char)} {g : α → Except Mismatch β} (h : Settles r o mid)
    (hf : ∀ a, o = .ok a → Settles (f (a, mid)) (g a) rest) : Settles (r >>= f) (o >>= g) rest := by
  cases o
  case ok a    =>
    have h : r = .ok (a, mid) := h
    exact h ▸ hf a rfl
  case error m =>
    obtain ⟨cs, rfl⟩ := h
    exact ⟨cs, rfl⟩

theorem Settles.map {r : Json.Scan ReadError (α × List Char)} {o : Except Mismatch α} (f : α → β)
    (h : Settles r o rest) : Settles (do let (a, cs) ← r; .ok (f a, cs)) (f <$> o) rest := by
  cases o
  case ok a    =>
    have h : r = .ok (a, rest) := h
    exact h ▸ rfl
  case error m =>
    obtain ⟨cs, rfl⟩ := h
    exact ⟨cs, rfl⟩

theorem scan_ok {a : α} : scan (.ok a) = .ok a :=
  rfl

-- The reader ends with the value and before `rest`, or with the error, whatever error that is.
def Ends (r : Json.Scan ReadError (α × List Char)) (o : Except ReadError α) (rest : List Char) : Prop :=
  r.mapError Json.Failure.cause = (·, rest) <$> o

theorem ends_error {e : ReadError} : Ends (.error ⟨e, cs⟩) (.error e : Except ReadError α) rest :=
  rfl

theorem ends_settle {o : Except Mismatch α} : Ends (settle rest o) (o.mapError .mismatch) rest := by
  cases o <;> rfl

theorem settles_iff_ends {r : Json.Scan ReadError (α × List Char)} {o : Except Mismatch α} :
    Settles r o rest ↔ Ends r (o.mapError .mismatch) rest := by
  cases o
  case ok a    => cases r <;> simp [Settles, Ends, Except.mapError, Functor.map, Except.map]
  case error m =>
    simp only [Settles, Ends]
    constructor
    case mp =>
      rintro ⟨_, rfl⟩
      rfl
    case mpr =>
      intro h
      obtain ⟨d, rfl, hd⟩ := mapError_eq_error.mp h
      exact ⟨d.rest, by rw [hd]⟩

theorem Ends.bind {r : Json.Scan ReadError (α × List Char)} {o : Except ReadError α}
    {f : α × List Char → Json.Scan ReadError (β × List Char)} {g : α → Except ReadError β} (h : Ends r o mid)
    (hf : ∀ a, Ends (f (a, mid)) (g a) rest) : Ends (r >>= f) (o >>= g) rest := by
  cases o <;> cases r <;> cases h
  case error.error.refl => rfl
  case ok.ok.refl       => exact hf _

theorem Ends.map {r : Json.Scan ReadError (α × List Char)} {o : Except ReadError α} (f : α → β) (h : Ends r o rest) :
    Ends (do let (a, cs) ← r; .ok (f a, cs)) (f <$> o) rest := by
  cases o <;> cases r <;> cases h <;> rfl

theorem Ends.parse_eq {s : String} {o : Except ReadError α} (h : Ends (w.read s.toList) o rest)
    (hf : Json.finish rest = .ok ()) : w.parse s = o := by
  rw [parse]
  cases hr : w.read s.toList <;> rw [hr] at h <;> cases o <;> cases h
  case error.error.refl => rfl
  case ok.ok.refl       => simp [ok_bind, hf, scan_ok, Except.mapError, Pure.pure, Except.pure]

-- Where the text begins with the value, the form is read as it is decoded.
def Agrees (w : Wire α) (depth : Nat) (x : Json) : Prop :=
  ∀ cs rest, Json.ValueAt depth cs x rest → Settles (w.read cs) (w.decode x) rest

-- Where the text begins with the value, the outcome is this one.
def Reads (w : Wire α) (depth : Nat) (x : Json) (o : Except ReadError α) : Prop :=
  ∀ cs rest, Json.ValueAt depth cs x rest → Ends (w.read cs) o rest

theorem Agrees.reads (h : w.Agrees depth x) : w.Reads depth x ((w.decode x).mapError .mismatch) :=
  fun _ _ hx => settles_iff_ends.mp <| h _ _ hx

theorem Reads.parse_eq {s : String} {o : Except ReadError α} (h : w.Reads depth x o)
    (hs : Json.Spells depth x s.toList) : w.parse s = o :=
  have ⟨_, hv, hf⟩ := hs.valueAt
  h _ _ hv |>.parse_eq hf

theorem Agrees.parse_eq {s : String} (h : w.Agrees 127 x) (hs : Json.parse s = .ok x) :
    w.parse s = (w.decode x).mapError .mismatch :=
  have ⟨_, hv, hf⟩ := Json.parse_eq_ok.mp hs
  h.reads _ _ hv |>.parse_eq hf

section Shapes

variable {interpret : Json.Shape → Except Mismatch α} {encode : α → Json}

theorem agrees_ofShape (hx : x.IsScalar) : (ofShape interpret encode).Agrees depth x := by
  intro cs rest h
  have hs := Json.valueAt_scalar hx |>.mp h
  simp only [ofShape, hs, scan_ok]
  exact settles_settle _

theorem agrees_byteString {n : Nat} (hx : x.IsScalar) : (byteString n).Agrees depth x := by
  intro cs rest h
  have hs := Json.valueAt_scalar hx |>.mp h
  have hd : (byteString n).decode x = ByteString.asHex n x.shape := by
    cases x <;> first | contradiction | rfl
  rw [hd]
  simp only [byteString]
  split
  case h_1 hb =>
    have hq := Json.readShape_sequence.mpr ⟨_, hb, rfl⟩
    rw [hs] at hq
    cases x <;> first | contradiction | cases hq
  case h_2 =>
    rw [Json.readShape_congr Json.skipBlanks_skipBlanks, hs]
    exact settles_settle _

theorem agrees_enumeration {all : List α} {name : α → String} {k : String} :
    (enumeration all name).Agrees depth (.string k) := by
  intro cs rest h
  have ⟨ds, hb, hr⟩ := Json.shapeAt_of_readShape <| Json.valueAt_scalar (by trivial) |>.mp h
  simp only [enumeration, hb, hr, scan_ok]
  exact settles_settle _

theorem agrees_null : w.optional.Agrees depth .null := by
  intro cs rest hx
  have ⟨ds, hb, hw⟩ := Json.shapeAt_of_readShape <| Json.valueAt_scalar (by trivial) |>.mp hx
  simp only [Wire.optional, hb, hw, scan_ok]
  rfl

theorem Agrees.optional (h : w.Agrees depth x) : w.optional.Agrees depth x := by
  intro cs rest hx
  cases x
  case null => exact agrees_null _ _ hx
  all_goals
    simp only [Wire.optional]
    split
    case h_1 hb =>
      have ⟨_, hs⟩ := hx.shape
      cases Json.shape_of_skipBlanks hb hs
    case h_2 => exact h _ _ (hx.congr Json.skipBlanks_skipBlanks.symm) |>.map some

end Shapes

end CauldronCalls.Wire
