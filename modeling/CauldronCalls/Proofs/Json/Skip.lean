import CauldronCalls.Json.Skip
import CauldronCalls.Proofs.Json.Value

/-!
Passing over a value that could have been read: the same text is left behind it. The converse does not hold.
-/

namespace CauldronCalls.Json

variable {c : Char} {cs bs ds es rest : List Char} {n depth bound : Nat} {k : String} {x : Json} {xs : List Json}
  {entries : List (String × Json)} {isFirst : Bool}

section Strings

theorem skipStringBody_backslash (he : skipEscape cs = .ok ds) (hs : skipStringBody bound ds = .ok rest) :
    skipStringBody (bound + 1) ('\\' :: cs) = .ok rest := by
  simp [skipStringBody, he, hs, Outcome.ok_bind]

theorem skipEscape_unit (h : codeUnit cs = .ok (n, ds)) : skipEscape ('u' :: cs) = .ok ds := by
  simp [skipEscape, h, Outcome.ok_bind]

-- The halves of a surrogate pair are passed over one by one.
theorem skipStringBody_unicode (h : unicodeEscape cs = .ok (c, ds))
    (hs : ∀ bound, ds.length < bound → skipStringBody bound ds = .ok rest) (hb : cs.length < bound) :
    skipStringBody (bound + 1) ('\\' :: 'u' :: cs) = .ok rest := by
  obtain ⟨⟨n, es⟩, hu, h⟩ := Outcome.bind_eq_ok.mp h
  have hl := length_of_codeUnit hu
  refine skipStringBody_backslash (skipEscape_unit hu) ?_
  dsimp only at h
  split at h
  case isTrue  => cases h
  case isFalse =>
    split at h
    case isFalse =>
      cases h
      exact hs _ (by omega)
    case isTrue  =>
      rw [trailingUnit.eq_def] at h
      split at h
      case h_3 =>
        obtain ⟨⟨_, _⟩, hv, h⟩ := Outcome.bind_eq_ok.mp h
        have hl' := length_of_codeUnit hv
        dsimp only at h
        split at h
        case isFalse => cases h
        case isTrue  =>
          obtain ⟨-, rfl⟩ := Prod.mk.inj <| Except.ok.inj h
          simp only [List.length_cons] at hl
          cases bound
          case zero   => contradiction
          case succ _ => exact skipStringBody_backslash (skipEscape_unit hv) <| hs _ (by omega)
      all_goals cases h

theorem skipStringBody_escape (h : escape cs = .ok (c, ds))
    (hs : ∀ bound, ds.length < bound → skipStringBody bound ds = .ok rest) (hb : cs.length < bound) :
    skipStringBody (bound + 1) ('\\' :: cs) = .ok rest := by
  cases cs
  case nil       => cases h
  case cons l cs =>
    rw [List.length_cons] at hb
    rw [escape] at h
    split at h
    case isTrue hl =>
      subst hl
      exact skipStringBody_unicode h hs (by omega)
    case isFalse hl =>
      split at h
      case h_2 => cases h
      case h_1 hc =>
        cases h
        exact skipStringBody_backslash (by simp [skipEscape, hl, hc]) <| hs _ (by omega)

theorem skipStringBody_of_stringBody {ys : List Char} (h : stringBody n cs = .ok (ys, rest)) :
    ∀ bound, cs.length < bound → skipStringBody bound cs = .ok rest := by
  induction n generalizing cs ys
  case zero      => cases h
  case succ n hi =>
    rintro (_ | bound) hb
    case zero => contradiction
    case succ =>
      cases cs
      case nil       => cases h
      case cons c cs =>
        have hb : cs.length < bound := Nat.lt_of_succ_lt_succ hb
        rw [stringBody] at h
        split at h
        case isTrue hq =>
          cases h
          rw [skipStringBody, if_pos hq]
        case isFalse hq =>
          split at h
          case isTrue hc =>
            obtain ⟨⟨_, _⟩, he, h⟩ := Outcome.bind_eq_ok.mp h
            obtain ⟨⟨_, _⟩, hs, h⟩ := Outcome.bind_eq_ok.mp h
            cases h
            exact hc ▸ skipStringBody_escape he (hi hs) hb
          case isFalse hc =>
            split at h
            case isTrue     => cases h
            case isFalse hp =>
              obtain ⟨⟨_, _⟩, hs, h⟩ := Outcome.bind_eq_ok.mp h
              cases h
              rw [skipStringBody, if_neg hq, if_neg hc, if_neg hp]
              exact hi hs _ hb

theorem skipString_of_readString (h : readString cs = .ok (k, rest)) : skipString cs = .ok rest := by
  have ⟨⟨_, _⟩, hs, h⟩ := Outcome.bind_eq_ok.mp h
  cases h
  exact skipStringBody_of_stringBody hs _ (Nat.lt_succ_self _)

end Strings

section Pieces

theorem skipNumber_of_readNumber {isNegative : Bool} {v : Number} (h : readNumber isNegative cs = .ok (v, rest)) :
    skipNumber cs = .ok rest := by
  have ⟨⟨_, _⟩, hn, h⟩ := Outcome.bind_eq_ok.mp h
  rw [skipNumber, hn]
  dsimp only at h ⊢
  split at h <;> cases h
  rfl

theorem skipValue_congr (h : skipBlanks cs = skipBlanks ds) : skipValue (n + 1) cs = skipValue (n + 1) ds := by
  rw [skipValue, skipValue, h]

theorem skipValue_scalar (hx : x.IsScalar) (h : readShape cs = .ok (x.shape, rest)) :
    skipValue (n + 1) cs = .ok rest := by
  replace h := shapeAt_of_readShape h
  rw [skipValue]
  cases x
  case array | object => contradiction
  case null =>
    have ⟨_, hs, hw⟩ := h
    rw [hs]
    exact hw
  case boolean b =>
    cases b
    all_goals
      have ⟨_, hs, hw⟩ := h
      rw [hs]
      exact hw
  case string =>
    have ⟨_, hs, hk⟩ := h
    rw [hs]
    exact skipString_of_readString hk
  case number =>
    obtain ⟨_, hs, hn⟩ | ⟨c, ds, hs, hd, hn⟩ := h
    case inl =>
      rw [hs]
      exact skipNumber_of_readNumber hn
    case inr =>
      rw [hs]
      split
      case h_9 he =>
        cases he
        rw [if_pos hd]
        exact skipNumber_of_readNumber hn
      all_goals
        rename_i he
        cases he <;> contradiction

theorem nextItem_end (h : nextItem isFirst cs = .ok (false, ds)) :
    ∃ es, skipBlanks cs = ']' :: es ∧ ds = ']' :: es := by
  rw [nextItem.eq_def] at h
  split at h
  case h_1    => cases h
  case h_2 hs =>
    cases h
    exact ⟨_, hs, rfl⟩
  case h_3 =>
    split at h
    case isTrue  => cases h
    case isFalse =>
      split at h
      case isFalse => cases h
      case isTrue  => split at h <;> cases h

theorem nextItem_first (h : nextItem true cs = .ok (true, ds)) :
    skipBlanks cs = ds ∧ ∃ c es, ds = c :: es ∧ c ≠ ']' := by
  rw [nextItem.eq_def] at h
  split at h
  case h_1 | h_2 => cases h
  case h_3 hc hs =>
    cases h
    exact ⟨hs, _, _, rfl, hc⟩

theorem nextItem_later (h : nextItem false cs = .ok (true, ds)) :
    ∃ es, skipBlanks cs = ',' :: es ∧ skipBlanks es = ds := by
  rw [nextItem.eq_def] at h
  split at h
  case h_1 | h_2 => cases h
  case h_3 hs =>
    split at h
    case isTrue  => contradiction
    case isFalse =>
      split at h
      case isFalse   => cases h
      case isTrue hc =>
        subst hc
        split at h
        case h_1 | h_2 => cases h
        case h_3       =>
          cases h
          exact ⟨_, hs, rfl⟩

theorem key_eq_ok {key? : Option String} (h : nextKey.key cs = .ok (key?, bs)) :
    ∃ es k, cs = '"' :: es ∧ readString es = .ok (k, bs) ∧ key? = some k := by
  rw [nextKey.key.eq_def] at h
  split at h
  case h_2 => cases h
  case h_1 =>
    obtain ⟨_, hk, h⟩ := Outcome.bind_eq_ok.mp h
    cases h
    exact ⟨_, _, rfl, hk, rfl⟩

theorem nextKey_end (h : nextKey isFirst cs = .ok (none, ds)) : ∃ es, skipBlanks cs = '}' :: es ∧ ds = '}' :: es := by
  rw [nextKey.eq_def] at h
  split at h
  case h_1    => cases h
  case h_2 hs =>
    cases h
    exact ⟨_, hs, rfl⟩
  case h_3 =>
    split at h
    case isTrue  =>
      obtain ⟨_, _, _, _, hk⟩ := key_eq_ok h
      cases hk
    case isFalse =>
      split at h
      case isFalse => cases h
      case isTrue  =>
        split at h
        case h_1 | h_2 => cases h
        case h_3       =>
          obtain ⟨_, _, _, _, hk⟩ := key_eq_ok h
          cases hk

theorem nextKey_first (h : nextKey true cs = .ok (some k, bs)) :
    ∃ es, skipBlanks cs = '"' :: es ∧ readString es = .ok (k, bs) := by
  rw [nextKey.eq_def] at h
  split at h
  case h_1 | h_2 => cases h
  case h_3 hs    =>
    obtain ⟨es, _, he, hk, hr⟩ := key_eq_ok h
    cases hr
    exact ⟨es, hs.trans he, hk⟩

theorem nextKey_later (h : nextKey false cs = .ok (some k, bs)) :
    ∃ ds es, skipBlanks cs = ',' :: ds ∧ skipBlanks ds = '"' :: es ∧ readString es = .ok (k, bs) := by
  rw [nextKey.eq_def] at h
  split at h
  case h_1 | h_2 => cases h
  case h_3 hs    =>
    split at h
    case isTrue  => contradiction
    case isFalse =>
      split at h
      case isFalse   => cases h
      case isTrue hc =>
        subst hc
        split at h
        case h_1 | h_2 => cases h
        case h_3       =>
          obtain ⟨es, _, he, hk, hr⟩ := key_eq_ok h
          cases hr
          exact ⟨_, es, hs, he, hk⟩

end Pieces

section Values

-- What is passed over before the first item of a list, and what behind an item.
def skipList (bound : Nat) (isFirst : Bool) (cs : List Char) : Scan Malformed (List Char) :=
  match isFirst, skipBlanks cs with
  | _, []            => .error ⟨.endInList, []⟩
  | _, ']' :: cs     => .ok cs
  | true, cs         => skipItems bound cs
  | false, ',' :: cs => skipItems bound cs
  | false, cs        => .error ⟨.expectedCommaOrBracket, cs⟩

def skipObject (bound : Nat) (isFirst : Bool) (cs : List Char) : Scan Malformed (List Char) :=
  match isFirst, skipBlanks cs with
  | _, []            => .error ⟨.endInObject, []⟩
  | _, '}' :: cs     => .ok cs
  | true, cs         => skipEntries bound cs
  | false, ',' :: cs => skipEntries bound cs
  | false, cs        => .error ⟨.expectedCommaOrBrace, cs⟩

theorem skipItems_succ : skipItems (n + 1) cs = skipValue n cs >>= skipList n false := by
  rw [skipItems]
  refine congrArg _ <| funext fun ds => ?_
  rw [skipList.eq_def]
  split <;> simp_all

theorem skipEntries_succ :
    skipEntries (n + 1) cs = (skipKey cs >>= fun cs => skipValue n cs >>= skipObject n false) := by
  rw [skipEntries]
  refine congrArg _ <| funext fun ds => congrArg _ <| funext fun ds => ?_
  rw [skipObject.eq_def]
  split <;> simp_all

theorem skipValue_array (h : skipBlanks cs = '[' :: ds) : skipValue (n + 1) cs = skipList n true ds := by
  simp only [skipValue, h]
  rw [skipList.eq_def]
  split <;> simp_all

theorem skipValue_object (h : skipBlanks cs = '{' :: ds) : skipValue (n + 1) cs = skipObject n true ds := by
  simp only [skipValue, h]
  rw [skipObject.eq_def]
  split <;> simp_all

theorem skipList_end (h : nextItem isFirst cs = .ok (false, ds)) : skipList n isFirst cs = .ok (ds.drop 1) := by
  obtain ⟨es, hs, rfl⟩ := nextItem_end h
  rw [skipList.eq_def, hs]
  cases isFirst <;> rfl

theorem skipList_more (h : nextItem isFirst cs = .ok (true, ds)) :
    ∃ es, skipBlanks es = ds ∧ es.length ≤ cs.length ∧ skipList n isFirst cs = skipItems n es := by
  cases isFirst
  case true =>
    obtain ⟨rfl, c, es, hs, hc⟩ := nextItem_first h
    refine ⟨_, skipBlanks_skipBlanks, length_skipBlanks_le cs, ?_⟩
    rw [skipList.eq_def, hs]
    split <;> simp_all
  case false =>
    obtain ⟨es, hs, rfl⟩ := nextItem_later h
    refine ⟨es, rfl, length_of_skipBlanks hs |>.le, ?_⟩
    rw [skipList.eq_def, hs]
    rfl

theorem skipObject_end (h : nextKey isFirst cs = .ok (none, ds)) : skipObject n isFirst cs = .ok (ds.drop 1) := by
  obtain ⟨es, hs, rfl⟩ := nextKey_end h
  rw [skipObject.eq_def, hs]
  cases isFirst <;> rfl

theorem skipObject_more (h : nextKey isFirst cs = .ok (some k, bs)) (hc : colon bs = .ok ds) :
    ∃ es, skipKey es = .ok ds ∧ skipObject n isFirst cs = skipEntries n es := by
  have hk {fs es : List Char} (hs : skipBlanks fs = '"' :: es) (hk : readString es = .ok (k, bs)) :
      skipKey fs = .ok ds := by
    rw [skipKey, hs]
    simp [skipString_of_readString hk, hc, Outcome.ok_bind]
  cases isFirst
  case true =>
    have ⟨es, hs, hr⟩ := nextKey_first h
    refine ⟨skipBlanks cs, hk (skipBlanks_skipBlanks.trans hs) hr, ?_⟩
    rw [skipObject.eq_def, hs]
    rfl
  case false =>
    have ⟨fs, es, hs, he, hr⟩ := nextKey_later h
    refine ⟨fs, hk he hr, ?_⟩
    rw [skipObject.eq_def, hs]
    rfl

-- Whatever bound is large enough for what is passed over, `rest` is left.
structure Skips (skip : Nat → Scan Malformed (List Char)) (more : Nat) (cs rest : List Char) : Prop where
  length_lt : rest.length < cs.length
  skip_eq   : ∀ bound, 2 * cs.length + more ≤ bound + 2 * rest.length → skip bound = .ok rest

theorem Skips.of_succ {skip : Nat → Scan Malformed (List Char)} {more : Nat} (hl : rest.length < cs.length)
    (h : ∀ bound, 2 * cs.length + more ≤ bound + 1 + 2 * rest.length → skip (bound + 1) = .ok rest) :
    Skips skip more cs rest := by
  refine ⟨hl, fun bound hb => ?_⟩
  cases bound
  case zero       => omega
  case succ bound => exact h bound hb

theorem skips_scalar (hx : x.IsScalar) (h : readShape cs = .ok (x.shape, rest)) : Skips (skipValue · cs) 0 cs rest :=
  .of_succ (length_of_readShape hx h) fun _ _ => skipValue_scalar hx h

theorem skips_array (hs : skipBlanks cs = '[' :: ds) (h : Skips (skipList · true ds) 1 ds rest) :
    Skips (skipValue · cs) 0 cs rest := by
  have hl := length_of_skipBlanks hs
  have hr := h.length_lt
  exact .of_succ (by omega) fun bound hb => skipValue_array hs |>.trans <| h.skip_eq bound (by omega)

theorem skips_object (hs : skipBlanks cs = '{' :: ds) (h : Skips (skipObject · true ds) 1 ds rest) :
    Skips (skipValue · cs) 0 cs rest := by
  have hl := length_of_skipBlanks hs
  have hr := h.length_lt
  exact .of_succ (by omega) fun bound hb => skipValue_object hs |>.trans <| h.skip_eq bound (by omega)

theorem skips_list_end (h : nextItem isFirst cs = .ok (false, ds)) :
    Skips (skipList · isFirst cs) 1 cs (ds.drop 1) := by
  have ⟨hl, hp⟩ := length_of_nextItem h
  exact .of_succ (by rw [List.length_drop]; omega) fun _ _ => skipList_end h

theorem Skips.of_skipBlanks (h : Skips (skipValue · (skipBlanks cs)) 0 (skipBlanks cs) rest) :
    Skips (skipValue · cs) 0 cs rest := by
  have hl := length_skipBlanks_le cs
  refine .of_succ (h.length_lt.trans_le hl) fun bound hb => ?_
  rw [← skipValue_congr skipBlanks_skipBlanks]
  exact h.skip_eq _ (by omega)

theorem skips_list_more (hn : nextItem isFirst cs = .ok (true, ds)) (hx : Skips (skipValue · ds) 0 ds es)
    (hxs : Skips (skipList · false es) 1 es rest) : Skips (skipList · isFirst cs) 1 cs rest := by
  have ⟨hd, _⟩ := length_of_nextItem hn
  have he := hx.length_lt
  have hr := hxs.length_lt
  refine .of_succ (by omega) fun bound hb => ?_
  obtain ⟨bs, rfl, hl, hs⟩ := skipList_more (n := bound + 1) hn
  rw [hs, skipItems_succ, hx.of_skipBlanks.skip_eq bound (by omega)]
  exact hxs.skip_eq bound (by omega)

theorem skips_object_end (h : nextKey isFirst cs = .ok (none, ds)) :
    Skips (skipObject · isFirst cs) 1 cs (ds.drop 1) := by
  obtain hl | ⟨_, hl, hp⟩ := length_of_nextKey h
  all_goals exact .of_succ (by rw [List.length_drop]; omega) fun _ _ => skipObject_end h

theorem skips_object_more (hn : nextKey isFirst cs = .ok (some k, bs)) (hc : colon bs = .ok ds)
    (hx : Skips (skipValue · ds) 0 ds es) (hxs : Skips (skipObject · false es) 1 es rest) :
    Skips (skipObject · isFirst cs) 1 cs rest := by
  obtain hb | ⟨hb, _⟩ := length_of_nextKey hn
  case inr => contradiction
  have hd := length_of_colon hc
  have he := hx.length_lt
  have hr := hxs.length_lt
  refine .of_succ (by omega) fun bound hb => ?_
  have ⟨fs, hk, hs⟩ := skipObject_more (n := bound + 1) hn hc
  rw [hs, skipEntries_succ, hk, Outcome.ok_bind, hx.skip_eq bound (by omega)]
  exact hxs.skip_eq bound (by omega)

theorem skips_of_read :
    (∀ depth cs x rest, readValue n depth cs = .ok (x, rest) → Skips (skipValue · cs) 0 cs rest) ∧
    (∀ depth isFirst cs xs rest, readItems n depth isFirst cs = .ok (xs, rest) →
      Skips (skipList · isFirst cs) 1 cs rest) ∧
    (∀ depth isFirst cs entries rest, readEntries n depth isFirst cs = .ok (entries, rest) →
      Skips (skipObject · isFirst cs) 1 cs rest) := by
  induction n
  case zero      => exact ⟨nofun, nofun, nofun⟩
  case succ n hi =>
    have ⟨hv, hi, he⟩ := hi
    refine ⟨?value, ?items, ?entries⟩
    case value =>
      intro depth cs x rest h
      cases x
      case array xs =>
        have ⟨_, _, _, hs, hxs⟩ := readValue_array.mp h
        exact skips_array hs <| hi _ _ _ _ _ hxs
      case object entries =>
        have ⟨_, _, _, hs, hxs⟩ := readValue_object.mp h
        exact skips_object hs <| he _ _ _ _ _ hxs
      all_goals exact skips_scalar (by trivial) <| readValue_scalar (by trivial) |>.mp h
    case items =>
      intro depth isFirst cs xs rest h
      cases xs
      case nil =>
        obtain ⟨_, hn, rfl⟩ := readItems_nil.mp h
        exact skips_list_end hn
      case cons x xs =>
        have ⟨_, _, hn, hx, hxs⟩ := readItems_cons.mp h
        exact skips_list_more hn (hv _ _ _ _ hx) (hi _ _ _ _ _ hxs)
    case entries =>
      intro depth isFirst cs entries rest h
      cases entries
      case nil =>
        obtain ⟨_, hn, rfl⟩ := readEntries_nil.mp h
        exact skips_object_end hn
      case cons e entries =>
        have ⟨_, _, _, hn, hc, hx, hxs⟩ := readEntries_cons.mp h
        exact skips_object_more hn hc (hv _ _ _ _ hx) (he _ _ _ _ _ hxs)

theorem ValueAt.skip_eq (h : ValueAt depth cs x rest) : skip cs = .ok rest :=
  have ⟨_, h⟩ := h
  skips_of_read.left _ _ _ _ h |>.skip_eq _ <| by rw [Json.bound]; omega

end Values

end CauldronCalls.Json
