import KeyManagement.Proofs.Text.Utf8
import KeyManagement.Text.Base64

/-! # Reading base64

Six bits are one digit, and a digit is never the padding. What is written for three bytes is
four characters, whose bits are put together again as they were cut.
-/

namespace KeyManagement.Base64

theorem value?_digit : ∀ n < 64, value? (digit n) = some n := by
  decide

theorem digit_ne_padding : ∀ n < 64, digit n ≠ '=' := by
  decide

section Bits

variable (a b c : UInt8)

theorem first_byte (n : Nat) (h : n < 16) :
    (a.toNat / 4 * 4 + (a.toNat % 4 * 16 + n) / 16).toUInt8 = a := by
  apply UInt8.toNat_inj.mp
  rw [UInt8.toNat_ofNat']
  have := a.toNat_lt
  omega

theorem second_byte (m n : Nat) (h : n < 4) :
    ((m * 16 + b.toNat / 16) % 16 * 16 + (b.toNat % 16 * 4 + n) / 4).toUInt8 = b := by
  apply UInt8.toNat_inj.mp
  rw [UInt8.toNat_ofNat']
  have := b.toNat_lt
  omega

theorem third_byte (m : Nat) : ((m * 4 + c.toNat / 64) % 4 * 64 + c.toNat % 64).toUInt8 = c := by
  apply UInt8.toNat_inj.mp
  rw [UInt8.toNat_ofNat']
  have := c.toNat_lt
  omega

end Bits

theorem decodeChars_encodeChars (bytes : Bytes) :
    decodeChars (encodeChars bytes) = some bytes := by
  fun_induction encodeChars bytes with
  | case1 => rfl
  | case2 a =>
    have ha := a.toNat_lt
    have hx := value?_digit (a.toNat / 4) (by omega)
    have hy := value?_digit (a.toNat % 4 * 16) (by omega)
    have hz : a.toNat % 4 * 16 % 16 = 0 := Nat.mul_mod_left _ _
    have h₁ := first_byte a 0 (by decide)
    simp only [decodeChars, hx, hy, Option.bind_eq_bind, Option.bind_some, hz, if_true]
    rw [Nat.add_zero] at h₁
    rw [h₁]
  | case3 a b =>
    have ha := a.toNat_lt
    have hb := b.toNat_lt
    have hx := value?_digit (a.toNat / 4) (by omega)
    have hy := value?_digit (a.toNat % 4 * 16 + b.toNat / 16) (by omega)
    have hz := value?_digit (b.toNat % 16 * 4) (by omega)
    have hp := digit_ne_padding (b.toNat % 16 * 4) (by omega)
    have h₁ := first_byte a (b.toNat / 16) (by omega)
    have h₂ := second_byte b (a.toNat % 4) 0 (by decide)
    rw [Nat.add_zero] at h₂
    rw [decodeChars]
    · simp only [hx, hy, hz, Option.bind_eq_bind, Option.bind_some, Nat.mul_mod_left, if_true, h₁,
        h₂]
    · exact hp
  | case4 a b c rest ih =>
    have ha := a.toNat_lt
    have hb := b.toNat_lt
    have hc := c.toNat_lt
    have hx := value?_digit (a.toNat / 4) (by omega)
    have hy := value?_digit (a.toNat % 4 * 16 + b.toNat / 16) (by omega)
    have hz := value?_digit (b.toNat % 16 * 4 + c.toNat / 64) (by omega)
    have hw := value?_digit (c.toNat % 64) (by omega)
    have hp := digit_ne_padding (c.toNat % 64) (by omega)
    have h₁ := first_byte a (b.toNat / 16) (by omega)
    have h₂ := second_byte b (a.toNat % 4) (c.toNat / 64) (by omega)
    have h₃ := third_byte c (b.toNat % 16)
    rw [decodeChars]
    · simp only [hx, hy, hz, hw, ih, Option.bind_eq_bind, Option.bind_some, h₁, h₂, h₃]
    · exact fun _ h _ => hp h
    · exact fun h _ => hp h

theorem length_le_encodeChars (bytes : Bytes) : bytes.length ≤ (encodeChars bytes).length := by
  fun_induction encodeChars bytes with
  | case1 => exact Nat.le_refl 0
  | case2 a | case3 a b => simp
  | case4 a b c rest ih =>
    simp only [List.length_cons]
    omega

theorem length_encodeChars_le (bytes : Bytes) :
    (encodeChars bytes).length ≤ 2 * bytes.length + 2 := by
  fun_induction encodeChars bytes with
  | case1 | case2 a | case3 a b => simp
  | case4 a b c rest ih =>
    simp only [List.length_cons]
    omega

theorem decode?_encode (bytes : Bytes) : decode? (encode bytes) = some bytes := by
  rw [decode?, encode, String.toList_ofList, decodeChars_encodeChars]

theorem length_le_encode (bytes : Bytes) : bytes.length ≤ (Bytes.ofText (encode bytes)).length := by
  have h := Bytes.length_toList_le (encode bytes)
  rw [encode, String.toList_ofList] at h
  exact Nat.le_trans (length_le_encodeChars bytes) h

end KeyManagement.Base64
