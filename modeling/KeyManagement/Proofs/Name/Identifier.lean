import KeyManagement.Proofs.Name.Grammar

/-! # Identifiers

The letters, digits and marks of an identifier are one byte each, so that its size in bytes is
its length.
-/

namespace KeyManagement

/-- An ASCII letter or digit, an underscore or a hyphen. -/
def IdentifierChar (c : Char) : Prop :=
  ('A' ≤ c ∧ c ≤ 'Z') ∨ ('a' ≤ c ∧ c ≤ 'z') ∨ ('0' ≤ c ∧ c ≤ '9') ∨ c = '_' ∨ c = '-'

/-- A text of 1 to 63 such characters. -/
structure IsIdentifier (s : String) : Prop where
  pos : 1 ≤ s.length
  le : s.length ≤ 63
  chars : ∀ c ∈ s.toList, IdentifierChar c

/-- A text of ASCII digits, of which there is at least one. -/
structure IsDigits (s : String) : Prop where
  pos : 1 ≤ s.length
  chars : ∀ c ∈ s.toList, '0' ≤ c ∧ c ≤ '9'

theorem isIdChar_iff {c : Char} : isIdChar c = true ↔ IdentifierChar c := by
  have hupper : c.isUpper = decide ('A' ≤ c ∧ c ≤ 'Z') := rfl
  have hlower : c.isLower = (decide ('a' ≤ c) && decide (c ≤ 'z')) := rfl
  have hdigit : c.isDigit = (decide ('0' ≤ c) && decide (c ≤ '9')) := rfl
  have halphanum : c.isAlphanum = (c.isUpper || c.isLower || c.isDigit) := rfl
  simp [isIdChar, IdentifierChar, halphanum, hupper, hlower, hdigit, or_assoc]

theorem IdentifierChar.val_le {c : Char} (h : IdentifierChar c) : c.val ≤ 0x7f := by
  rcases h with h | h | h | rfl | rfl
  · exact UInt32.le_trans h.2 (by decide)
  · exact UInt32.le_trans h.2 (by decide)
  · exact UInt32.le_trans h.2 (by decide)
  · decide
  · decide

theorem IdentifierChar.utf8Size_eq {c : Char} (h : IdentifierChar c) : c.utf8Size = 1 :=
  if_pos h.val_le

theorem utf8ByteSize_of_identifierChars {s : String} (h : ∀ c ∈ s.toList, IdentifierChar c) :
    s.utf8ByteSize = s.length := by
  obtain ⟨l, rfl⟩ : ∃ l, s = String.ofList l := ⟨s.toList, by simp⟩
  rw [String.toList_ofList] at h
  induction l with
  | nil => rfl
  | cons c l ih =>
    obtain ⟨hc, hl⟩ := List.forall_mem_cons.mp h
    rw [String.ofList_cons, String.utf8ByteSize_append, String.utf8ByteSize_singleton, ih hl,
      hc.utf8Size_eq, String.length_append, String.length_singleton]

theorem not_isEmpty_iff {s : String} : s.isEmpty = false ↔ 1 ≤ s.length := by
  rw [← Bool.not_eq_true, String.isEmpty_iff, ← String.length_eq_zero_iff]
  omega

theorem isId_iff {s : String} : isId s = true ↔ IsIdentifier s := by
  simp only [isId, Bool.and_eq_true, Bool.not_eq_true', not_isEmpty_iff, List.all_eq_true,
    isIdChar_iff, decide_eq_true_eq]
  constructor
  · rintro ⟨⟨hpos, hchars⟩, hle⟩
    exact ⟨hpos, utf8ByteSize_of_identifierChars hchars ▸ hle, hchars⟩
  · rintro ⟨hpos, hle, hchars⟩
    exact ⟨⟨hpos, hchars⟩, utf8ByteSize_of_identifierChars hchars ▸ hle⟩

theorem isVersionId_iff {s : String} : isVersionId s = true ↔ IsDigits s := by
  simp only [isVersionId, Bool.and_eq_true, Bool.not_eq_true', not_isEmpty_iff,
    List.all_eq_true, Char.isDigit, decide_eq_true_eq]
  exact ⟨fun h => ⟨h.1, h.2⟩, fun h => ⟨h.pos, h.chars⟩⟩

end KeyManagement
