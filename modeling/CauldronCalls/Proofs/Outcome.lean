import Mathlib.Data.List.Forall2

/-!
Taking outcomes apart: what has to have happened when a computation of several steps ends with a value, or with
an error. And comparing them: two outcomes are the same to a caller who does not look at the value.
-/

namespace CauldronCalls.Outcome

variable {ε α β : Type}

theorem bind_eq_ok {x : Except ε α} {f : α → Except ε β} {b : β} :
    (x >>= f) = .ok b ↔ ∃ a, x = .ok a ∧ f a = .ok b := by
  cases x <;> simp [bind, Except.bind]

theorem ok_bind {a : α} {f : α → Except ε β} : (.ok a >>= f) = f a :=
  rfl

theorem bind_eq_error {x : Except ε α} {f : α → Except ε β} {e : ε} :
    (x >>= f) = .error e ↔ (x = .error e) ∨ (∃ a, x = .ok a ∧ f a = .error e) := by
  cases x <;> simp [bind, Except.bind]

theorem pure_eq_ok {a b : α} : (pure a : Except ε α) = .ok b ↔ a = b := by
  simp [pure, Except.pure]

theorem pure_ne_error {a : α} {e : ε} : (pure a : Except ε α) ≠ .error e := by
  simp [pure, Except.pure]

theorem map_eq_ok {f : α → β} {x : Except ε α} {b : β} : f <$> x = .ok b ↔ ∃ a, x = .ok a ∧ f a = b := by
  cases x <;> simp [Functor.map, Except.map]

theorem map_eq_error {f : α → β} {x : Except ε α} {e : ε} : f <$> x = .error e ↔ x = .error e := by
  cases x <;> simp [Functor.map, Except.map]

theorem map_ok_iff {f : α → β} {x : Except ε α} : (∃ b, f <$> x = .ok b) ↔ ∃ a, x = .ok a := by
  cases x <;> simp [Functor.map, Except.map]

theorem mapError_eq_ok {ε' : Type} {f : ε → ε'} {x : Except ε α} {a : α} : x.mapError f = .ok a ↔ x = .ok a := by
  cases x <;> simp [Except.mapError]

theorem mapError_eq_error {ε' : Type} {f : ε → ε'} {x : Except ε α} {e : ε'} :
    x.mapError f = .error e ↔ ∃ d, x = .error d ∧ e = f d := by
  cases x <;> simp [Except.mapError, eq_comm]

theorem ok_or_error (x : Except ε α) : (∃ a, x = .ok a) ∨ (∃ e, x = .error e) := by
  cases x
  case ok a    => exact .inl ⟨a, rfl⟩
  case error e => exact .inr ⟨e, rfl⟩

theorem ok_iff_ne_error {x : Except ε α} : (∃ a, x = .ok a) ↔ ∀ e, x ≠ .error e := by
  cases x <;> simp

-- Either both computations end with a value, or both end with the same error.
structure Same (x y : Except ε α) : Prop where
  ok    : (∃ a, x = .ok a) ↔ (∃ b, y = .ok b)
  error : ∀ e, (x = .error e) ↔ (y = .error e)

theorem same_ok (a b : α) : Same (.ok a : Except ε α) (.ok b) where
  ok    := ⟨fun _ => ⟨b, rfl⟩, fun _ => ⟨a, rfl⟩⟩
  error := fun _ => ⟨fun h => (nomatch h), fun h => (nomatch h)⟩

theorem same_refl (x : Except ε α) : Same x x where
  ok    := Iff.rfl
  error := fun _ => Iff.rfl

theorem not_same_ok_error (a : α) (e : ε) : ¬Same (.ok a) (.error e) := by
  intro h
  have h := h.error e |>.mpr rfl
  contradiction

variable {f : α → Except ε β} {x : α} {xs : List α}

theorem mapM_cons_eq_ok {bs : List β} :
    (x :: xs).mapM f = .ok bs ↔ ∃ b cs, f x = .ok b ∧ xs.mapM f = .ok cs ∧ b :: cs = bs := by
  simp only [List.mapM_cons, bind_eq_ok, pure_eq_ok]
  constructor
  case mp  => exact fun ⟨b, hb, cs, hcs, h⟩ => ⟨b, cs, hb, hcs, h⟩
  case mpr => exact fun ⟨b, cs, hb, hcs, h⟩ => ⟨b, hb, cs, hcs, h⟩

theorem mapM_cons_eq_error {e : ε} :
    (x :: xs).mapM f = .error e ↔ (f x = .error e) ∨ (∃ b, f x = .ok b ∧ xs.mapM f = .error e) := by
  simp only [List.mapM_cons, bind_eq_error, pure_ne_error, and_false, exists_false, or_false]

theorem mapM_eq_ok {bs : List β} (h : xs.mapM f = .ok bs) : xs.Forall₂ (fun x b => f x = .ok b) bs := by
  induction xs generalizing bs
  case nil =>
    cases h
    exact .nil
  case cons hi =>
    obtain ⟨b, cs, hb, hcs, rfl⟩ := mapM_cons_eq_ok.mp h
    exact .cons hb (hi hcs)

theorem exists_of_mem_mapM {b : β} {bs : List β} (h : xs.mapM f = .ok bs) (hb : b ∈ bs) :
    ∃ x ∈ xs, f x = .ok b := by
  induction xs generalizing bs
  case nil =>
    cases h
    contradiction
  case cons hi =>
    obtain ⟨c, cs, hc, hcs, rfl⟩ := mapM_cons_eq_ok.mp h
    cases hb
    case head => exact ⟨_, List.mem_cons_self, hc⟩
    case tail hb =>
      have ⟨x, hx, hf⟩ := hi hcs hb
      exact ⟨x, List.mem_cons_of_mem _ hx, hf⟩

theorem map_of_mapM {γ : Type} {g : β → γ} {h : α → γ} {bs : List β} (hf : ∀ x b, f x = .ok b → g b = h x)
    (hb : xs.mapM f = .ok bs) : bs.map g = xs.map h := by
  rw [← List.forall₂_eq_eq_eq, List.forall₂_map_left_iff, List.forall₂_map_right_iff]
  exact (mapM_eq_ok hb).imp hf |>.flip

theorem getElem?_of_forall₂ {r : α → β → Prop} {bs : List β} {k : Nat} (h : xs.Forall₂ r bs)
    (hk : xs[k]? = some x) : ∃ b, bs[k]? = some b ∧ r x b := by
  induction h generalizing k
  case nil => contradiction
  case cons hr _ hi =>
    cases k
    case zero =>
      cases hk
      exact ⟨_, rfl, hr⟩
    case succ => exact hi hk

theorem mapM_ok_iff : (∃ bs, xs.mapM f = .ok bs) ↔ ∀ x ∈ xs, ∃ b, f x = .ok b := by
  induction xs
  case nil         => exact iff_of_true ⟨[], rfl⟩ (fun _ h => nomatch h)
  case cons x xs hi =>
    rw [List.forall_mem_cons, ← hi]
    constructor
    case mp =>
      intro ⟨_, h⟩
      have ⟨b, bs, hb, hbs, _⟩ := mapM_cons_eq_ok.mp h
      exact ⟨⟨b, hb⟩, ⟨bs, hbs⟩⟩
    case mpr =>
      intro ⟨⟨b, hb⟩, ⟨bs, hbs⟩⟩
      exact ⟨b :: bs, mapM_cons_eq_ok.mpr ⟨b, bs, hb, hbs, rfl⟩⟩

theorem mapM_eq_map {γ : Type} {g : α → Except ε γ} {h : γ → β} (hf : ∀ x ∈ xs, f x = h <$> g x) :
    xs.mapM f = List.map h <$> xs.mapM g := by
  induction xs
  case nil => rfl
  case cons x xs hi =>
    have ⟨hx, hxs⟩ := List.forall_mem_cons.mp hf
    rw [List.mapM_cons, List.mapM_cons, hx, hi hxs]
    cases g x <;> cases xs.mapM g <;> rfl

-- `x` is the first element on which `f` fails, and `e` is its error.
def FirstError (f : α → Except ε β) (xs : List α) (e : ε) : Prop :=
  ∃ before x after, xs = before ++ x :: after ∧ (∀ y ∈ before, ∃ b, f y = .ok b) ∧ f x = .error e

theorem firstError_cons {e : ε} :
    FirstError f (x :: xs) e ↔ (f x = .error e) ∨ (∃ b, f x = .ok b) ∧ FirstError f xs e := by
  constructor
  case mp =>
    intro ⟨before, y, after, hs, hb, he⟩
    cases before <;> cases hs
    case nil  => exact .inl he
    case cons =>
      have ⟨hx, hb⟩ := List.forall_mem_cons.mp hb
      exact .inr ⟨hx, _, _, _, rfl, hb, he⟩
  case mpr =>
    intro h
    obtain he | ⟨hx, before, y, after, rfl, hb, he⟩ := h
    · exact ⟨[], x, xs, rfl, fun _ h => (nomatch h), he⟩
    · exact ⟨x :: before, y, after, rfl, List.forall_mem_cons.mpr ⟨hx, hb⟩, he⟩

theorem mapM_eq_error_iff {e : ε} : xs.mapM f = .error e ↔ FirstError f xs e := by
  induction xs
  case nil =>
    refine iff_of_false (fun h => nomatch h) ?_
    intro ⟨before, _, _, hs, _⟩
    cases before <;> contradiction
  case cons hi => rw [mapM_cons_eq_error, firstError_cons, ← hi, exists_and_right]

end CauldronCalls.Outcome
