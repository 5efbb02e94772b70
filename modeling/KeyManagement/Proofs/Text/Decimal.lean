import KeyManagement.Text.Decimal
import Mathlib.Data.List.Basic
import Mathlib.Data.List.Induction
import Mathlib.Logic.Function.Basic

/-! # Canonical numerals

Reading a numeral that was written gives the number back, so that different numbers have
different numerals. The digits that are written for a positive number are the only ones for it
that do not start with a zero.
-/

namespace KeyManagement.Decimal

theorem toList_render (n : Nat) : (render n).toList = Nat.toDigits 10 n := by
  simp [render]

theorem isDigit_of_mem_render {n : Nat} {c : Char} (h : c ∈ (render n).toList) :
    c.isDigit = true := by
  rw [toList_render] at h
  exact Nat.isDigit_of_mem_toDigits (by decide) (by decide) h

theorem render_ne_empty (n : Nat) : render n ≠ "" := by
  intro h
  have hl := congrArg String.toList h
  rw [toList_render] at hl
  exact Nat.toDigits_ne_nil hl

theorem value_toDigits (n : Nat) : value (Nat.toDigits 10 n) = n := by
  have h := @Nat.ofDigitChars_ten_toDigits n
  rw [Nat.ofDigitChars_eq_foldl] at h
  simpa only [value, digitValue, Nat.mul_comm] using h

theorem value_replicate_append (zeros : Nat) (digits : List Char) :
    value (List.replicate zeros '0' ++ digits) = value digits := by
  induction zeros with
  | zero => rfl
  | succ zeros ih => exact ih

@[simp] theorem parse?_render (n : Nat) : parse? (render n) = some n := by
  have hd : (render n).toList.all Char.isDigit = true :=
    List.all_eq_true.mpr fun _ hc => isDigit_of_mem_render hc
  have he : (render n).isEmpty = false := by simp [render_ne_empty n]
  rw [parse?, he, hd, toList_render, value_toDigits]
  rfl

theorem render_injective : Function.Injective render := by
  intro m n h
  have hp := congrArg parse? h
  rw [parse?_render, parse?_render] at hp
  exact Option.some.inj hp

theorem head_toDigits_ne_zero {n : Nat} (h : 0 < n) : (Nat.toDigits 10 n).head? ≠ some '0' := by
  induction n using Nat.strongRecOn with
  | _ n ih =>
    by_cases hn : n < 10
    · rw [Nat.toDigits_of_lt_base hn]
      have hd : ∀ d < 10, 0 < d → [Nat.digitChar d].head? ≠ some '0' := by decide
      exact hd n hn h
    · rw [Nat.toDigits_of_base_le (by decide) (Nat.le_of_not_lt hn),
        List.head?_append_of_ne_nil _ Nat.toDigits_ne_nil]
      exact ih _ (by omega) (by omega)

/-- A numeral of a positive number: ASCII digits, the first of which is not a zero. -/
structure IsNumeral (s : String) (n : Nat) : Prop where
  digits : ∀ c ∈ s.toList, '0' ≤ c ∧ c ≤ '9'
  leading : s.toList.head? ≠ some '0'
  value : value s.toList = n
  pos : 0 < n

section Canonical

theorem digitChar_digitValue {c : Char} (h : '0' ≤ c ∧ c ≤ '9') :
    digitValue c < 10 ∧ Nat.digitChar (digitValue c) = c := by
  have hlow : 48 ≤ c.toNat := UInt32.le_iff_toNat_le.mp h.1
  have hhigh : c.toNat ≤ 57 := UInt32.le_iff_toNat_le.mp h.2
  have hchar : ∀ d < 10, Nat.digitChar d = Char.ofNat (48 + d) := by decide
  have hlt : digitValue c < 10 := by
    change c.toNat - 48 < 10
    omega
  refine ⟨hlt, ?_⟩
  rw [hchar _ hlt]
  change Char.ofNat (48 + (c.toNat - 48)) = c
  rw [Nat.add_sub_cancel' hlow, Char.ofNat_toNat]

theorem value_append_singleton (digits : List Char) (c : Char) :
    Decimal.value (digits ++ [c]) = Decimal.value digits * 10 + digitValue c := by
  simp [Decimal.value]

theorem toDigits_value {digits : List Char} (hne : digits ≠ [])
    (hd : ∀ c ∈ digits, '0' ≤ c ∧ c ≤ '9') (hl : digits.head? ≠ some '0') :
    0 < Decimal.value digits ∧ Nat.toDigits 10 (Decimal.value digits) = digits := by
  induction digits using List.reverseRecOn with
  | nil => contradiction
  | append_singleton digits c ih =>
    obtain ⟨hlt, hc⟩ := digitChar_digitValue (hd c (by simp))
    rw [value_append_singleton]
    by_cases hnil : digits = []
    · subst hnil
      have hpos : 0 < digitValue c := by
        rw [Nat.pos_iff_ne_zero]
        intro h
        rw [h] at hc
        exact hl (congrArg some hc.symm)
      have hv : Decimal.value [] * 10 + digitValue c = digitValue c := Nat.zero_add _
      rw [hv, Nat.toDigits_of_lt_base hlt, hc]
      exact ⟨hpos, rfl⟩
    · have hl' : digits.head? ≠ some '0' := by
        rwa [List.head?_append_of_ne_nil _ hnil] at hl
      obtain ⟨hpos, he⟩ := ih hnil (fun c hc => hd c (List.mem_append_left _ hc)) hl'
      have happend := Nat.toDigits_append_toDigits (b := 10) (by decide) hpos hlt
      rw [he, Nat.toDigits_of_lt_base hlt, hc, Nat.mul_comm] at happend
      exact ⟨by omega, happend.symm⟩

theorem isNumeral_iff {s : String} {n : Nat} : IsNumeral s n ↔ 0 < n ∧ s = render n := by
  constructor
  · rintro ⟨hd, hl, rfl, hpos⟩
    have hne : s.toList ≠ [] := by
      intro h
      rw [h] at hpos
      contradiction
    refine ⟨hpos, String.toList_inj.mp ?_⟩
    rw [toList_render, (toDigits_value hne hd hl).2]
  · rintro ⟨hpos, rfl⟩
    have hdigit : ∀ c ∈ (render n).toList, '0' ≤ c ∧ c ≤ '9' := fun c hc => by
      have h := isDigit_of_mem_render hc
      simp only [Char.isDigit, Bool.and_eq_true, decide_eq_true_eq] at h
      exact h
    exact ⟨hdigit, toList_render n ▸ head_toDigits_ne_zero hpos,
      toList_render n ▸ value_toDigits n, hpos⟩

end Canonical

end KeyManagement.Decimal
