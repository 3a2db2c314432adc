import CauldronCalls.Proofs.Hex.Fixed

/-!
Assets as text. The main statement says how an asset is written, that it is read back from what is written, and which
other texts are read: the native currency by its name and a token by the digits of its address, in any case. The
checksum in the case of the letters is written, but it is not looked at.
-/

namespace CauldronCalls

namespace Address

variable {v g : Nat}

-- The digits of the address in lower case, which are hashed for the checksum.
def lowerDigits (a : Address) : List Char :=
  (Hex.halves a.toList).map Nat.digitChar

-- The digits of the hash, one for each digit of the address and some more.
def guide (a : Address) : List Nat :=
  Hex.halves (Keccak.hash (Bytes.ofText a.lowerDigits)).toList

-- The text with the checksum. Letters are in upper case where the digit of the hash at the same place is at least
-- eight, and in lower case elsewhere.
inductive ChecksumText (a : Address) : List Char → Prop
  | mk {ds : List Char} (hd : ds.Forall₂ (IsDigitIn 16) (Hex.halves a.toList))
      (hu : ∀ (k : Nat) (c : Char) (v g : Nat), ds[k]? = some c → (Hex.halves a.toList)[k]? = some v →
        a.guide[k]? = some g → (c.isUpper ↔ 10 ≤ v ∧ 8 ≤ g)) :
    ChecksumText a ('0' :: 'x' :: ds)

theorem digit_eq_digitChar (h : v < 16) : Hex.digit v = Nat.digitChar v := by
  interval_cases v <;> rfl

theorem isAlpha_digit (h : v < 16) : (Hex.digit v).isAlpha ↔ 10 ≤ v := by
  interval_cases v <;> decide

theorem eight_le_digit (h : v < 16) : '8' ≤ Hex.digit v ↔ 8 ≤ v := by
  interval_cases v <;> decide

theorem not_isUpper_digit (h : v < 16) : ¬(Hex.digit v).isUpper := by
  interval_cases v <;> decide

theorem isUpper_toUpper_digit (h : v < 16) (hl : 10 ≤ v) : (Hex.digit v).toUpper.isUpper := by
  interval_cases v <;> decide

theorem isUpper_raise (hv : v < 16) (hg : g < 16) :
    (raise (Hex.digit v) (Hex.digit g)).isUpper ↔ 10 ≤ v ∧ 8 ≤ g := by
  simp only [raise, Bool.and_eq_true, decide_eq_true_eq, isAlpha_digit hv, eight_le_digit hg]
  split
  case isTrue h  => exact iff_of_true (isUpper_toUpper_digit hv h.left) h
  case isFalse h => exact iff_of_false (not_isUpper_digit hv) h

theorem digits_eq_lowerDigits (a : Address) : Hex.digits a.toList = a.lowerDigits := by
  rw [Hex.digits_eq, lowerDigits]
  exact List.map_congr_left fun _ h => digit_eq_digitChar <| Hex.lt_of_mem_halves h

theorem toList_checksummed (a : Address) :
    a.checksummed.toList = '0' :: 'x' ::
      List.zipWith raise ((Hex.halves a.toList).map Hex.digit) (a.guide.map Hex.digit) := by
  rw [checksummed, String.toList_ofList, guide, ← digits_eq_lowerDigits, ← Hex.digits_eq, ← Hex.digits_eq]

theorem length_halves_le_guide (a : Address) : (Hex.halves a.toList).length ≤ a.guide.length := by
  rw [guide, Hex.length_halves, Hex.length_halves, a.length_toList, FixedBytes.length_toList]
  decide

theorem checksumText_checksummed (a : Address) : a.ChecksumText a.checksummed.toList := by
  rw [toList_checksummed]
  refine .mk ?digits ?upper
  case digits =>
    have hl : (Hex.halves a.toList).length ≤ (a.guide.map Hex.digit).length := by
      rw [List.length_map]
      exact a.length_halves_le_guide
    exact isDigit_zipWith_raise (fun _ => Hex.lt_of_mem_halves) hl |>.imp fun _ _ => Hex.IsDigit.isDigitIn
  case upper =>
    intro k c v g hc hv hg
    have hc : some (raise (Hex.digit v) (Hex.digit g)) = some c := by
      rw [← hc, List.getElem?_zipWith, List.getElem?_map, List.getElem?_map, hv, hg]
      rfl
    rw [← Option.some.inj hc]
    have hv := Hex.lt_of_mem_halves <| List.mem_of_getElem? hv
    have hg := Hex.lt_of_mem_halves <| List.mem_of_getElem? hg
    exact isUpper_raise hv hg

end Address

namespace Asset

variable {a : Asset} {s : String} {u : Unknown}

-- Why a text names no asset, and how it is put.
inductive Refuses (s : String) : Unknown → String → Prop
  | mk {ds : List Char} {f : Hex.Fault} {why : String} (hn : ¬NameText .native s.toList)
      (hu : Hex.Unmarked s.toList ds) (hf : Hex.Misread 20 (Bytes.ofText ds) f why) :
    Refuses s ⟨s, f⟩ s!"invalid asset `{s}`: {why}"

theorem eq_toLower_or_eq_toUpper (c : Char) : (c = c.toLower) ∨ (c = c.toLower.toUpper) := by
  by_cases h : c.val ≥ 'A'.val ∧ c.val ≤ 'Z'.val
  case pos =>
    have hc : Char.ofNat c.toNat = c := Char.ofNat_toNat c
    have hl : 65 ≤ c.toNat := UInt32.le_iff_toNat_le.mp h.left
    have hr : c.toNat ≤ 90 := UInt32.le_iff_toNat_le.mp h.right
    clear h
    generalize c.toNat = n at hc hl hr
    subst hc
    right
    interval_cases n <;> rfl
  case neg =>
    have hn : c.toLower = c := dif_neg h
    exact .inl hn.symm

theorem nameText_native_iff {cs : List Char} : NameText .native cs ↔ cs.map Char.toLower = ['e', 't', 'h'] := by
  refine ⟨NameText.map_toLower, ?mpr⟩
  case mpr =>
    intro h
    refine .native ?_
    rw [← h, List.forall₂_map_right_iff, List.forall₂_same]
    exact fun c _ => eq_toLower_or_eq_toUpper c

theorem ofString_of_not_native (hn : ¬NameText .native s.toList) :
    ofString s = (token <$> Address.ofString s).mapError (⟨s, ·⟩) := by
  rw [nameText_native_iff] at hn
  rw [ofString, if_neg hn]
  cases Address.ofString s <;> rfl

theorem ofString_eq_ok_iff : ofString s = .ok a ↔ a.NameText s.toList := by
  refine ⟨?mp, ofString_nameText⟩
  case mp =>
    intro h
    by_cases hn : NameText .native s.toList
    case pos =>
      rw [ofString_nameText hn, Except.ok.injEq] at h
      exact h ▸ hn
    case neg =>
      rw [ofString_of_not_native hn, Outcome.mapError_eq_ok] at h
      obtain ⟨t, ht, rfl⟩ := Outcome.map_eq_ok.mp h
      exact .token <| Hex.ofString_eq_ok_iff.mp ht

theorem refuses_iff (hn : ¬NameText .native s.toList) :
    Refuses s u u.message ↔ ∃ f, (Address.ofString s = .error f) ∧ u = ⟨s, f⟩ := by
  obtain ⟨ds, hu⟩ := Hex.exists_unmarked s.toList
  constructor
  case mp =>
    generalize u.message = m
    rintro ⟨_, hu, hf⟩
    obtain rfl := hf.message_eq
    exact ⟨_, Hex.ofString_eq_error_iff hu |>.mpr hf, rfl⟩
  case mpr =>
    rintro ⟨f, hf, rfl⟩
    exact .mk hn hu <| Hex.ofString_eq_error_iff hu |>.mp hf

theorem ofString_eq_error_iff : ofString s = .error u ↔ Refuses s u u.message := by
  by_cases hn : NameText .native s.toList
  case pos =>
    rw [ofString_nameText hn]
    refine iff_of_false (by simp) ?_
    generalize u.message = m
    rintro ⟨hn', _⟩
    exact hn' hn
  case neg =>
    rw [ofString_of_not_native hn, Outcome.mapError_eq_error, refuses_iff hn]
    simp only [Outcome.map_eq_error]

theorem exists_token_iff : (∃ t, ofString s = .ok (token t)) ↔
    ∃ mark ds vs, (s.toList = mark ++ ds) ∧ mark ∈ [[], ['0', 'x'], ['0', 'X']] ∧ (ds.length = 40) ∧
      ds.Forall₂ (IsDigitIn 16) vs := by
  have ht : ∀ t, ofString s = .ok (token t) ↔ Hex.ofString 20 s = .ok t := by
    intro t
    rw [ofString_eq_ok_iff, Hex.ofString_eq_ok_iff]
    exact ⟨fun | .token h => h, .token⟩
  simp only [ht]
  exact Hex.exists_ofString_iff

-- The native currency is written by its name and a token by its address with the checksum, and each asset is read back
-- from what is written. Any other text is an asset if it is one of these but for the case of letters and the mark; if
-- it is none, it is refused for the length of what follows the mark, or else for the first byte of it that is no digit.
theorem ofString_reads :
    (native.text = "ETH") ∧ (∀ t : Address, t.ChecksumText (token t).text.toList) ∧
    (∀ a : Asset, ofString a.text = .ok a) ∧
    (∀ s (a : Asset), ofString s = .ok a ↔ a.NameText s.toList) ∧
    (∀ s, (∃ t, ofString s = .ok (token t)) ↔
      ∃ mark ds vs, (s.toList = mark ++ ds) ∧ mark ∈ [[], ['0', 'x'], ['0', 'X']] ∧ (ds.length = 40) ∧
        ds.Forall₂ (IsDigitIn 16) vs) ∧
    (∀ s u, ofString s = .error u ↔ Refuses s u u.message) :=
  ⟨rfl, Address.checksumText_checksummed, ofString_text, fun _ _ => ofString_eq_ok_iff, fun _ => exists_token_iff,
    fun _ _ => ofString_eq_error_iff⟩

-- The mark of hexadecimal digits may be in upper case.
theorem not_ofString_lower_mark :
    ¬∀ s t, ofString s = .ok (token t) ↔
      ∃ mark ds, (s.toList = mark ++ ds) ∧ mark ∈ [[], ['0', 'x']] ∧ (ds.length = 40) ∧
        ds.Forall₂ (IsDigitIn 16) (Hex.halves t.toList) := by
  intro h
  let ds := List.replicate 40 '0'
  have hs : (String.ofList ('0' :: 'X' :: ds)).toList = ['0', 'X'] ++ ds := String.toList_ofList
  have hd : ds.Forall₂ (IsDigitIn 16) (Hex.halves Address.zero.toList) := by decide
  have hr : ofString (String.ofList ('0' :: 'X' :: ds)) = .ok (token .zero) :=
    ofString_nameText <| .token <| hs ▸ .mk (by decide) hd
  obtain ⟨mark, es, he, hm, hl, _⟩ := h _ _ |>.mp hr
  rw [hs] at he
  simp only [List.mem_cons, List.not_mem_nil, or_false] at hm
  obtain rfl | rfl := hm
  case inl =>
    rw [List.nil_append] at he
    rw [← he] at hl
    exact absurd hl (by decide)
  case inr => exact absurd (List.cons.inj he).right (by simp)

end Asset

end CauldronCalls
