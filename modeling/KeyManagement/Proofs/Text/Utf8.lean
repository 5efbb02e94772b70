import KeyManagement.Bytes
import Mathlib.Data.String.Basic
import Mathlib.Tactic.SplitIfs

/-! # UTF-8 encodings

A text is encoded character by character, and ASCII characters only give bytes of ASCII. Texts
compare character by character, and their encodings compare byte by byte to the same end: a
leading byte tells how many follow it, and those are digits in base 64. So no encoding ends in
the middle of another character, either, and prefixes of texts are those of their encodings.
-/

namespace KeyManagement.Bytes

open String (utf8EncodeChar)

theorem ofText_eq_flatMap (s : String) : ofText s = s.toList.flatMap utf8EncodeChar := by
  conv_lhs => rw [← String.ofList_toList (s := s)]
  rw [ofText, String.toByteArray_ofList, List.utf8Encode, List.toList_data_toByteArray]

@[simp] theorem ofText_append (s t : String) : ofText (s ++ t) = ofText s ++ ofText t := by
  rw [ofText_eq_flatMap, ofText_eq_flatMap, ofText_eq_flatMap, String.toList_append,
    List.flatMap_append]

theorem length_ofText (s : String) : (ofText s).length = s.utf8ByteSize := rfl

theorem length_ofText_toString_le (c : Char) : (ofText c.toString).length ≤ 4 := by
  rw [length_ofText, Char.toString_eq_singleton, String.utf8ByteSize_singleton]
  exact c.utf8Size_le_four

theorem length_toList_le (s : String) : s.toList.length ≤ (ofText s).length := by
  rw [ofText_eq_flatMap]
  induction s.toList with
  | nil => exact Nat.le_refl 0
  | cons c cs ih =>
    have hc := c.utf8Size_pos
    rw [List.flatMap_cons, List.length_append, String.length_utf8EncodeChar, List.length_cons]
    omega

theorem eq_of_mem_utf8EncodeChar {b : UInt8} {c : Char} (hb : b < 0x80)
    (h : b ∈ utf8EncodeChar c) : c.val.toNat = b.toNat := by
  have hn : b.toNat < 128 := UInt8.lt_iff_toNat_lt.mp hb
  simp only [utf8EncodeChar] at h
  split_ifs at h <;> simp only [List.mem_cons, List.not_mem_nil, or_false, ← UInt8.toNat_inj,
    UInt8.toNat_ofNat'] at h <;> omega

theorem utf8EncodeChar_append_lt {c d : Char} (h : c < d) (x y : Bytes) :
    utf8EncodeChar c ++ x < utf8EncodeChar d ++ y := by
  have hlt : c.val.toNat < d.val.toNat := UInt32.lt_iff_toNat_lt.mp h
  have hlast : d.val.toNat < 0x110000 := by
    rcases d.valid with h | h <;> omega
  have hdigits : ∀ n : Nat, n / 4096 = n / 64 / 64 ∧ n / 262144 = n / 64 / 64 / 64 := by omega
  simp only [utf8EncodeChar, hdigits]
  generalize c.val.toNat = m at hlt
  generalize d.val.toNat = n at hlt hlast
  split_ifs <;> simp only [List.cons_append, List.nil_append, List.cons_lt_cons_iff,
    UInt8.lt_iff_toNat_lt, UInt8.toNat_ofNat', ← UInt8.toNat_inj] <;> omega

theorem flatMap_utf8EncodeChar_lt {l l' : List Char} (h : l < l') :
    l.flatMap utf8EncodeChar < l'.flatMap utf8EncodeChar := by
  induction h with
  | @nil d rest =>
    obtain ⟨b, bytes, hb⟩ := List.exists_cons_of_ne_nil (String.utf8EncodeChar_ne_nil (c := d))
    rw [List.flatMap_cons, hb]
    exact .nil
  | rel h =>
    simp only [List.flatMap_cons]
    exact utf8EncodeChar_append_lt h _ _
  | cons _ ih =>
    simp only [List.flatMap_cons]
    exact List.append_left_lt ih

theorem ofText_lt {s t : String} (h : s < t) : ofText s < ofText t := by
  rw [ofText_eq_flatMap, ofText_eq_flatMap]
  exact flatMap_utf8EncodeChar_lt (String.lt_iff.mp h)

theorem ofText_lt_iff {s t : String} : ofText s < ofText t ↔ s < t := by
  refine ⟨fun h => ?_, ofText_lt⟩
  rcases lt_trichotomy s t with hst | rfl | hst
  · exact hst
  · exact absurd h (List.lt_irrefl _)
  · exact absurd (ofText_lt hst) (List.lt_asymm h)

theorem utf8EncodeChar_append_isPrefix_iff {c d : Char} {x y : Bytes} :
    utf8EncodeChar c ++ x <+: utf8EncodeChar d ++ y ↔ c = d ∧ x <+: y := by
  constructor
  · rintro ⟨z, h⟩
    rw [List.append_assoc] at h
    rcases lt_trichotomy c d with hcd | rfl | hcd
    · exact absurd (h ▸ utf8EncodeChar_append_lt hcd _ _) (List.lt_irrefl _)
    · exact ⟨rfl, z, List.append_cancel_left h⟩
    · exact absurd (h ▸ utf8EncodeChar_append_lt hcd _ _) (List.lt_irrefl _)
  · rintro ⟨rfl, h⟩
    exact (List.prefix_append_right_inj _).mpr h

theorem flatMap_utf8EncodeChar_isPrefix_iff : ∀ {l l' : List Char},
    l.flatMap utf8EncodeChar <+: l'.flatMap utf8EncodeChar ↔ l <+: l'
  | [], l' => by simp
  | c :: l, [] => by simp
  | c :: l, d :: l' => by
    rw [List.flatMap_cons, List.flatMap_cons, utf8EncodeChar_append_isPrefix_iff,
      List.cons_prefix_cons, flatMap_utf8EncodeChar_isPrefix_iff]

/-- A text begins another exactly if its bytes do. -/
theorem ofText_isPrefix_iff {s t : String} : ofText s <+: ofText t ↔ s.toList <+: t.toList := by
  rw [ofText_eq_flatMap, ofText_eq_flatMap, flatMap_utf8EncodeChar_isPrefix_iff]

end KeyManagement.Bytes
