import KeyManagement.Envelope
import Mathlib.Algebra.Group.Nat.Defs
import Mathlib.Data.List.Basic
import Mathlib.Data.List.Induction

/-! # Reading envelopes

An envelope is read back as it was written, and no two payloads are read as the same name
and body; every other payload is refused for a reason that can be read off it. Big-endian numbers
and UTF-8 texts are the same in both directions, too.
-/

namespace KeyManagement

namespace Bytes

@[simp] theorem toNat_append_singleton (bytes : Bytes) (b : UInt8) :
    toNat (bytes ++ [b]) = toNat bytes * 256 + b.toNat := by
  simp [toNat]

theorem toNat_ofNat (width : Nat) {n : Nat} (h : n < 256 ^ width) :
    toNat (ofNat width n) = n := by
  induction width generalizing n with
  | zero =>
    rw [pow_zero, Nat.lt_one_iff] at h
    rw [h]
    rfl
  | succ width ih =>
    have hn : n / 256 < 256 ^ width := Nat.div_lt_of_lt_mul (by rwa [← pow_succ'])
    rw [ofNat, toNat_append_singleton, ih hn, UInt8.toNat_ofNat']
    omega

theorem toNat_lt (bytes : Bytes) : toNat bytes < 256 ^ bytes.length := by
  induction bytes using List.reverseRecOn with
  | nil => exact Nat.one_pos
  | append_singleton bytes b ih =>
    have hb := b.toNat_lt
    rw [toNat_append_singleton, List.length_append, List.length_singleton, pow_succ]
    omega

theorem ofNat_toNat (bytes : Bytes) : ofNat bytes.length (toNat bytes) = bytes := by
  induction bytes using List.reverseRecOn with
  | nil => rfl
  | append_singleton bytes b ih =>
    have hb := b.toNat_lt
    have hq : (toNat bytes * 256 + b.toNat) / 256 = toNat bytes := by omega
    have hr : (toNat bytes * 256 + b.toNat).toUInt8 = b := by
      apply UInt8.toNat_inj.mp
      rw [UInt8.toNat_ofNat']
      omega
    rw [toNat_append_singleton, List.length_append, List.length_singleton, ofNat, hq, hr, ih]

theorem toText?_ofText (s : String) : toText? (ofText s) = some s := by
  have hs : (⟨(ofText s).toArray⟩ : ByteArray) = s.toByteArray := by simp [ofText]
  rw [toText?, hs, String.fromUTF8?, dif_pos s.isValidUTF8]
  rfl

theorem ofText_of_toText? {bytes : Bytes} {s : String} (h : toText? bytes = some s) :
    ofText s = bytes := by
  unfold toText? String.fromUTF8? at h
  split at h
  · cases h
    rfl
  · contradiction

theorem toText?_eq_some_iff {bytes : Bytes} {s : String} :
    toText? bytes = some s ↔ ofText s = bytes := by
  constructor
  · exact ofText_of_toText?
  · rintro rfl
    exact toText?_ofText s

theorem toText?_eq_none_iff {bytes : Bytes} : toText? bytes = none ↔ ∀ s, ofText s ≠ bytes := by
  simp only [Option.eq_none_iff_forall_ne_some, ne_eq, toText?_eq_some_iff]

end Bytes

namespace Envelope

variable {name : String} {body payload : Bytes}

theorem wrap_eq_ok_iff :
    wrap name body = .ok payload ↔ (Bytes.ofText name).length ≤ maxNameSize ∧
      payload = Bytes.ofNat 2 (Bytes.ofText name).length ++ Bytes.ofText name ++ body := by
  unfold wrap
  dsimp only
  split
  · next h => simp [h, eq_comm]
  · next h => simp [h]

theorem wrap_cases (name : String) :
    (∀ body, wrap name body =
      .ok (Bytes.ofNat 2 (Bytes.ofText name).length ++ Bytes.ofText name ++ body)) ∨
    ∃ e, ∀ body, wrap name body = .error e := by
  by_cases hn : (Bytes.ofText name).length ≤ maxNameSize
  · exact .inl fun body => if_pos hn
  · exact .inr ⟨_, fun body => if_neg hn⟩

theorem unwrap_eq_ok_iff :
    unwrap payload = .ok (name, body) ↔ ∃ hi lo,
      Bytes.toNat [hi, lo] = (Bytes.ofText name).length ∧
      payload = hi :: lo :: (Bytes.ofText name ++ body) := by
  constructor
  · intro h
    unfold unwrap at h
    split at h
    · next hi lo rest =>
      dsimp only at h
      split at h
      · contradiction
      · next hlen =>
        split at h
        · contradiction
        · next s hs =>
          cases h
          have ht := Bytes.toText?_eq_some_iff.mp hs
          refine ⟨hi, lo, ?_, ?_⟩
          · rw [ht, List.length_take]
            omega
          · rw [ht, List.take_append_drop]
    · contradiction
  · rintro ⟨hi, lo, hn, rfl⟩
    unfold unwrap
    dsimp only
    rw [hn, if_neg (by simp), List.take_left, List.drop_left, Bytes.toText?_ofText]

/-- Unwrapping reads exactly what wrapping writes. -/
theorem unwrap_eq_ok_iff_wrap :
    unwrap payload = .ok (name, body) ↔ wrap name body = .ok payload := by
  have hmax : 256 ^ 2 = maxNameSize + 1 := by decide
  rw [unwrap_eq_ok_iff, wrap_eq_ok_iff, ← Nat.lt_add_one_iff, ← hmax]
  constructor
  · rintro ⟨hi, lo, hn, rfl⟩
    have hlt := Bytes.toNat_lt [hi, lo]
    have ho := Bytes.ofNat_toNat [hi, lo]
    rw [hn] at hlt ho
    refine ⟨hlt, ?_⟩
    change _ = Bytes.ofNat [hi, lo].length _ ++ _ ++ _
    rw [ho]
    rfl
  · rintro ⟨hlt, rfl⟩
    obtain ⟨hi, lo, ho⟩ := List.length_eq_two.mp (Bytes.length_ofNat 2 (Bytes.ofText name).length)
    refine ⟨hi, lo, ?_, ?_⟩
    · rw [← ho, Bytes.toNat_ofNat 2 hlt]
    · rw [ho]
      rfl

section Refusals

variable {hi lo : UInt8} {rest : Bytes}

/-- The size of the name as the first two bytes state it. -/
def statedSize (hi lo : UInt8) : Nat := hi.toNat * 256 + lo.toNat

theorem toNat_pair : Bytes.toNat [hi, lo] = statedSize hi lo := by
  simp [Bytes.toNat, statedSize]

theorem unwrap_cons : unwrap (hi :: lo :: rest) =
    if rest.length < statedSize hi lo then .error .truncated
    else match Bytes.toText? (rest.take (statedSize hi lo)) with
      | none => .error .invalidName
      | some name => .ok (name, rest.drop (statedSize hi lo)) := by
  simp only [← toNat_pair]
  rfl

theorem unwrap_eq_tooShort_iff : unwrap payload = .error .tooShort ↔ payload.length < 2 := by
  match payload with
  | [] | [_] => simp [unwrap]
  | hi :: lo :: rest =>
    rw [unwrap_cons]
    split
    · simp
    · split <;> simp

theorem unwrap_eq_truncated_iff : unwrap payload = .error .truncated ↔
    ∃ hi lo rest, payload = hi :: lo :: rest ∧ rest.length < statedSize hi lo := by
  match payload with
  | [] | [_] => simp [unwrap]
  | hi :: lo :: rest =>
    rw [unwrap_cons]
    split
    · next h => simp [h]
    · next h => split <;> simp [h]

theorem unwrap_eq_invalidName_iff : unwrap payload = .error .invalidName ↔
    ∃ hi lo bytes body, payload = hi :: lo :: (bytes ++ body) ∧
      bytes.length = statedSize hi lo ∧ ∀ name, Bytes.ofText name ≠ bytes := by
  constructor
  · intro h
    match payload with
    | [] | [_] => simp [unwrap] at h
    | hi :: lo :: rest =>
      rw [unwrap_cons] at h
      split at h
      · contradiction
      · next hlen =>
        split at h
        · next ht =>
          refine ⟨hi, lo, rest.take (statedSize hi lo), rest.drop (statedSize hi lo), ?_, ?_, ?_⟩
          · rw [List.take_append_drop]
          · exact List.length_take_of_le (Nat.le_of_not_lt hlen)
          · exact Bytes.toText?_eq_none_iff.mp ht
        · contradiction
  · rintro ⟨hi, lo, bytes, body, rfl, hlen, hname⟩
    rw [unwrap_cons, ← hlen, if_neg (by simp), List.take_left,
      Bytes.toText?_eq_none_iff.mpr hname]

end Refusals

/-- Wrapping is possible for all names whose size can be stated, and unwrapping is its inverse in
both directions: no two payloads hold the same name and body. All other payloads are refused, for
the first of three reasons that applies: the size is not there, it states more bytes than follow,
or these bytes encode no text. -/
theorem unwrap_inverts_wrap :
    (∀ name body, (∃ payload, wrap name body = .ok payload) ↔
      (Bytes.ofText name).length ≤ 65535) ∧
    (∀ name body payload, wrap name body = .ok payload ↔ unwrap payload = .ok (name, body)) ∧
    (∀ name body payload payload', unwrap payload = .ok (name, body) →
      unwrap payload' = .ok (name, body) → payload = payload') ∧
    (∀ name body payload, unwrap payload = .ok (name, body) ↔ ∃ hi lo,
      statedSize hi lo = (Bytes.ofText name).length ∧
      payload = hi :: lo :: (Bytes.ofText name ++ body)) ∧
    ∀ payload,
      (unwrap payload = .error .tooShort ↔ payload.length < 2) ∧
      (unwrap payload = .error .truncated ↔
        ∃ hi lo rest, payload = hi :: lo :: rest ∧ rest.length < statedSize hi lo) ∧
      (unwrap payload = .error .invalidName ↔
        ∃ hi lo bytes body, payload = hi :: lo :: (bytes ++ body) ∧
          bytes.length = statedSize hi lo ∧ ∀ name, Bytes.ofText name ≠ bytes) := by
  refine ⟨fun name body => ?_, fun name body payload => unwrap_eq_ok_iff_wrap.symm, ?_,
    fun name body payload => ?_, fun payload => ⟨unwrap_eq_tooShort_iff, unwrap_eq_truncated_iff,
      unwrap_eq_invalidName_iff⟩⟩
  · simp only [wrap_eq_ok_iff, exists_and_left, exists_eq, and_true, maxNameSize]
  · intro name body payload payload' h h'
    have hw := unwrap_eq_ok_iff_wrap.mp h
    rw [unwrap_eq_ok_iff_wrap.mp h', Except.ok.injEq] at hw
    exact hw.symm
  · simp only [unwrap_eq_ok_iff, toNat_pair]

/-- A name of one character and two bytes. -/
theorem sample_unwraps : unwrap [0, 2, 0xc3, 0xa9, 7] = .ok ("é", [7]) ∧
    ∀ payload, unwrap payload = .ok ("é", [7]) → payload = [0, 2, 0xc3, 0xa9, 7] := by
  have h : unwrap [0, 2, 0xc3, 0xa9, 7] = .ok ("é", [7]) := by decide +kernel
  exact ⟨h, fun payload hp => unwrap_inverts_wrap.2.2.1 _ _ _ _ hp h⟩

end Envelope

end KeyManagement
