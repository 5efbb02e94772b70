import KeyManagement.Json.Writer
import KeyManagement.Json.Reader
import KeyManagement.Proofs.Envelope
import KeyManagement.Proofs.Text.Decimal
import KeyManagement.Proofs.Text.Utf8
import Mathlib.Data.List.TakeWhile

/-! # Tokens of written values

What the lexer makes of punctuation, words, numbers and strings as they are written. A number or
a word is settled by the punctuation that follows it, or by the end of the text.
-/

namespace KeyManagement

namespace Json

open String (utf8EncodeChar)

/-- The lexer reads the text as the tokens, whatever it has read before. -/
def Spells (text : Bytes) (tokens : List Token) : Prop :=
  ∀ before, ∃ l, text.foldlM Lexer.step ⟨.between, before⟩ = some l ∧
    l.settle = some ⟨.between, tokens.reverse ++ before⟩

/-- A byte that ends numbers and words, and is a token of its own. -/
structure Marks (b : UInt8) (token : Token) : Prop where
  start : ∀ before, Lexer.start before b = some ⟨.between, token :: before⟩
  notNumber : Lexer.isNumberByte (Char.ofNat b.toNat) = false
  notLower : (Char.ofNat b.toNat).isLower = false

section Marks

theorem marks_comma : Marks 0x2c .comma := ⟨fun _ => rfl, by decide, by decide⟩

theorem marks_colon : Marks 0x3a .colon := ⟨fun _ => rfl, by decide, by decide⟩

theorem marks_beginArray : Marks 0x5b .beginArray := ⟨fun _ => rfl, by decide, by decide⟩

theorem marks_endArray : Marks 0x5d .endArray := ⟨fun _ => rfl, by decide, by decide⟩

theorem marks_beginObject : Marks 0x7b .beginObject := ⟨fun _ => rfl, by decide, by decide⟩

theorem marks_endObject : Marks 0x7d .endObject := ⟨fun _ => rfl, by decide, by decide⟩

variable {b : UInt8} {token : Token} {l : Lexer} {before tokens tokens' : List Token}
  {text text' : Bytes}

theorem Marks.step (hb : Marks b token) (h : l.settle = some ⟨.between, before⟩) :
    l.step b = some ⟨.between, token :: before⟩ := by
  obtain ⟨mode, reversed⟩ := l
  cases mode with
  | between =>
    cases h
    exact hb.start before
  | inNumber literal =>
    simp only [Lexer.step, hb.notNumber, Bool.false_eq_true, if_false, h, Option.bind_some]
    exact hb.start before
  | inWord letters =>
    simp only [Lexer.step, hb.notLower, Bool.false_eq_true, if_false, h, Option.bind_some]
    exact hb.start before
  | inString pieces => nomatch h
  | afterBackslash pieces => nomatch h
  | inUnit pieces value digits => nomatch h

theorem spells_nil : Spells [] [] := fun before => ⟨⟨.between, before⟩, rfl, rfl⟩

theorem Spells.mark (h : Spells text tokens) (hb : Marks b token)
    (h' : Spells text' tokens') : Spells (text ++ b :: text') (tokens ++ token :: tokens') := by
  intro before
  obtain ⟨l, hl, hs⟩ := h before
  obtain ⟨l', hl', hs'⟩ := h' (token :: (tokens.reverse ++ before))
  refine ⟨l', ?_, ?_⟩
  · rw [List.foldlM_append, hl, Option.bind_eq_bind, Option.bind_some, List.foldlM_cons, hb.step hs]
    exact hl'
  · rw [hs']
    simp

end Marks

section Words

theorem spells_null : Spells (Bytes.ofText "null") [.scalar .null] := fun _ => ⟨_, rfl, rfl⟩

theorem spells_bool (b : Bool) :
    Spells (Bytes.ofText (Json.bool b).render) [.scalar (.bool b)] := by
  cases b with
  | false => exact fun _ => ⟨_, rfl, rfl⟩
  | true => exact fun _ => ⟨_, rfl, rfl⟩

end Words

section Strings

variable {b : UInt8} {pieces : List Piece} {before : List Token}

/-- A byte that stands for itself in a string. -/
def StandsForItself (b : UInt8) : Prop := 0x20 ≤ b ∧ b ≠ 0x22 ∧ b ≠ 0x5c

theorem StandsForItself.step (h : StandsForItself b) :
    Lexer.step ⟨.inString pieces, before⟩ b = some ⟨.inString (.byte b :: pieces), before⟩ := by
  have hb : ∀ n < 256, (Char.ofNat n = '"' → n = 0x22) ∧ (Char.ofNat n = '\\' → n = 0x5c) := by
    decide +kernel
  obtain ⟨hquote, hslash⟩ := hb b.toNat b.toNat_lt
  have h₁ : Char.ofNat b.toNat ≠ '"' := fun he => h.2.1 (UInt8.toNat_inj.mp (hquote he))
  have h₂ : Char.ofNat b.toNat ≠ '\\' := fun he => h.2.2 (UInt8.toNat_inj.mp (hslash he))
  have h₃ : ¬ b < 0x20 := by
    have := UInt8.le_iff_toNat_le.mp h.1
    rw [UInt8.lt_iff_toNat_lt]
    omega
  simp only [Lexer.step, h₁, h₂, h₃, if_false]

theorem foldlM_standsForItself {bytes : Bytes} (h : ∀ b ∈ bytes, StandsForItself b) :
    bytes.foldlM Lexer.step ⟨.inString pieces, before⟩ =
      some ⟨.inString ((bytes.map .byte).reverse ++ pieces), before⟩ := by
  induction bytes generalizing pieces with
  | nil => rfl
  | cons b bytes ih =>
    rw [List.foldlM_cons, (h b List.mem_cons_self).step, Option.bind_eq_bind, Option.bind_some,
      ih fun b hb => h b (List.mem_cons_of_mem _ hb)]
    simp

theorem encode_byte_append (bytes : Bytes) (rest : List Piece) :
    Piece.encode (bytes.map .byte ++ rest) = (bytes ++ ·) <$> Piece.encode rest := by
  induction bytes with
  | nil => simp
  | cons b bytes ih =>
    rw [List.map_cons, List.cons_append, Piece.encode, ih]
    cases Piece.encode rest <;> rfl

theorem digit?_digitChar : ∀ d < 16,
    Hexadecimal.digit? (Char.ofNat (Nat.digitChar d).val.toUInt8.toNat) = some d := by
  decide +kernel

theorem ofText_escape_control : ∀ n < 0x20,
    Char.ofNat n ∉ ['\x08', '\x0c', '\n', '\r', '\t'] →
    Bytes.ofText (escape (Char.ofNat n)) = [0x5c, 0x75, 0x30, 0x30,
      (Nat.digitChar (n / 16)).val.toUInt8, (Nat.digitChar (n % 16)).val.toUInt8] := by
  decide +kernel

theorem foldlM_unit {n : Nat} (h : n < 0x20) : List.foldlM Lexer.step ⟨.inString pieces, before⟩
    [0x5c, 0x75, 0x30, 0x30, (Nat.digitChar (n / 16)).val.toUInt8,
      (Nat.digitChar (n % 16)).val.toUInt8] =
      some ⟨.inString (.unit n :: pieces), before⟩ := by
  have h₁ := digit?_digitChar (n / 16) (by omega)
  have h₂ := digit?_digitChar (n % 16) (by omega)
  have hn : n / 16 * 16 + n % 16 = n := by omega
  change (Lexer.step ⟨.inUnit pieces 0 2, before⟩ _).bind (fun l => (Lexer.step l _).bind some) = _
  simp only [Lexer.step, h₁, h₂, Option.map_some, Option.bind_some]
  simp [hn]

theorem encode_unit_append {n : Nat} (h : n < 0x20) (rest : List Piece) :
    Piece.encode (.unit n :: rest) =
      (utf8EncodeChar (Char.ofNat n) ++ ·) <$> Piece.encode rest := by
  have hhigh : ¬ (0xd800 ≤ n ∧ n < 0xdc00) := by omega
  have hlow : ¬ (0xdc00 ≤ n ∧ n < 0xe000) := by omega
  have htext : Bytes.ofText (Char.ofNat n).toString = utf8EncodeChar (Char.ofNat n) := by
    rw [Bytes.ofText_eq_flatMap]
    simp
  cases rest with
  | nil => simp only [Piece.encode, hhigh, hlow, if_false, htext]
  | cons piece rest => cases piece <;> simp only [Piece.encode, hhigh, hlow, if_false, htext]

theorem standsForItself_of_mem {c : Char} (hcontrol : 0x20 ≤ c.toNat) (hquote : c ≠ '"')
    (hslash : c ≠ '\\') : ∀ b ∈ utf8EncodeChar c, StandsForItself b := by
  intro b hb
  by_cases hlt : b < 0x80
  · have hv : c.val.toNat = b.toNat := Bytes.eq_of_mem_utf8EncodeChar hlt hb
    refine ⟨?_, ?_, ?_⟩
    · rw [UInt8.le_iff_toNat_le, ← hv]
      exact hcontrol
    · rintro rfl
      exact hquote (Char.ext (UInt32.toNat_inj.mp hv))
    · rintro rfl
      exact hslash (Char.ext (UInt32.toNat_inj.mp hv))
  · rw [UInt8.lt_iff_toNat_lt] at hlt
    refine ⟨UInt8.le_iff_toNat_le.mpr (Nat.le_trans (by decide) (Nat.le_of_not_lt hlt)), ?_, ?_⟩
    · rintro rfl
      exact hlt (by decide)
    · rintro rfl
      exact hlt (by decide)

theorem exists_pieces (c : Char) : ∃ pieces : List Piece,
    (∀ read before, (Bytes.ofText (escape c)).foldlM Lexer.step ⟨.inString read, before⟩ =
      some ⟨.inString (pieces.reverse ++ read), before⟩) ∧
    ∀ rest, Piece.encode (pieces ++ rest) = (utf8EncodeChar c ++ ·) <$> Piece.encode rest := by
  by_cases hc : c.toNat < 0x20 ∧ c ∉ ['\x08', '\x0c', '\n', '\r', '\t']
  · refine ⟨[.unit c.toNat], fun read before => ?_, fun rest => ?_⟩
    · have he := ofText_escape_control c.toNat hc.1
      rw [Char.ofNat_toNat] at he
      rw [he hc.2, foldlM_unit hc.1]
      rfl
    · have he := encode_unit_append hc.1 rest
      rwa [Char.ofNat_toNat] at he
  unfold escape
  split
  case h_1 | h_2 | h_3 | h_4 | h_5 | h_6 | h_7 => exact ⟨[.byte _], fun _ _ => rfl, fun _ => rfl⟩
  case h_8 hquote hslash hb hf hn hr ht =>
    have hcontrol : ¬ c.toNat < 0x20 := fun h => hc ⟨h, by
      simpa using ⟨hb, hf, hn, hr, ht⟩⟩
    have hself := standsForItself_of_mem (Nat.le_of_not_lt hcontrol) hquote hslash
    refine ⟨(utf8EncodeChar c).map .byte, fun read before => ?_, fun rest => ?_⟩
    · rw [if_neg hcontrol, Bytes.ofText_eq_flatMap]
      simpa using foldlM_standsForItself hself
    · exact encode_byte_append _ rest

theorem exists_pieces_flatMap (cs : List Char) : ∃ pieces : List Piece,
    (∀ read before, (cs.flatMap fun c => Bytes.ofText (escape c)).foldlM Lexer.step
      ⟨.inString read, before⟩ = some ⟨.inString (pieces.reverse ++ read), before⟩) ∧
    Piece.encode pieces = some (cs.flatMap utf8EncodeChar) := by
  induction cs with
  | nil => exact ⟨[], fun _ _ => rfl, rfl⟩
  | cons c cs ih =>
    obtain ⟨first, hf, hfe⟩ := exists_pieces c
    obtain ⟨rest, hr, hre⟩ := ih
    refine ⟨first ++ rest, fun read before => ?_, ?_⟩
    · rw [List.flatMap_cons, List.foldlM_append, hf, Option.bind_eq_bind, Option.bind_some, hr]
      simp
    · rw [hfe, hre, List.flatMap_cons]
      rfl

theorem ofText_join (texts : List String) :
    Bytes.ofText (String.join texts) = texts.flatMap Bytes.ofText := by
  induction texts with
  | nil => rfl
  | cons text texts ih => rw [String.join_cons, Bytes.ofText_append, ih, List.flatMap_cons]

/-- Each text is read back as it was written. -/
theorem spells_renderText (s : String) :
    Spells (Bytes.ofText (renderText s)) [.scalar (.text s)] := by
  obtain ⟨pieces, hl, he⟩ := exists_pieces_flatMap s.toList
  have htext : Piece.text? pieces = some s := by
    rw [Piece.text?, he, Option.bind_some, ← Bytes.ofText_eq_flatMap, Bytes.toText?_ofText]
  have hbytes : Bytes.ofText (renderText s) =
      0x22 :: (s.toList.flatMap fun c => Bytes.ofText (escape c)) ++ [0x22] := by
    simp only [renderText, Bytes.ofText_append, ofText_join, List.flatMap_map]
    rfl
  intro before
  refine ⟨⟨.between, .scalar (.text s) :: before⟩, ?_, rfl⟩
  rw [hbytes, List.cons_append, List.foldlM_cons]
  change List.foldlM Lexer.step ⟨.inString [], before⟩ _ = _
  rw [List.foldlM_append, hl, List.append_nil, Option.bind_eq_bind, Option.bind_some]
  -- The closing quote ends the string, whose pieces were gathered in reverse.
  change some (Lexer.mk .between
    (.scalar (.string (Piece.text? pieces.reverse.reverse)) :: before)) = _
  rw [List.reverse_reverse, htext]
  rfl

end Strings

section Numbers

theorem takeWhile_isDigit_toDigits (n : Nat) :
    (Nat.toDigits 10 n).takeWhile Char.isDigit = Nat.toDigits 10 n :=
  List.takeWhile_eq_self_iff.mpr fun _ hc => Nat.isDigit_of_mem_toDigits (by decide) (by decide) hc

theorem dropWhile_isDigit_toDigits (n : Nat) :
    (Nat.toDigits 10 n).dropWhile Char.isDigit = [] :=
  List.dropWhile_eq_nil_iff.mpr fun _ hc => Nat.isDigit_of_mem_toDigits (by decide) (by decide) hc

theorem wellFormed_toDigits (n : Nat) : ((Nat.toDigits 10 n).isEmpty ||
    (1 < (Nat.toDigits 10 n).length && (Nat.toDigits 10 n).head? == some '0')) = false := by
  have hne : (Nat.toDigits 10 n).isEmpty = false := by simp [Nat.toDigits_ne_nil]
  rw [hne, Bool.false_or]
  rcases Nat.eq_zero_or_pos n with rfl | h
  · rfl
  · simp [Decimal.head_toDigits_ne_zero h]

theorem number?_toDigits (n : Nat) : Lexer.number? (Nat.toDigits 10 n) = some (.integer n) := by
  have hsign : ∀ rest, Nat.toDigits 10 n ≠ '-' :: rest := by
    intro rest h
    have hd : Char.isDigit '-' = true :=
      Nat.isDigit_of_mem_toDigits (by decide) (by decide) (h ▸ List.mem_cons_self)
    exact absurd hd (by decide)
  unfold Lexer.number?
  split
  next negative s hs =>
  split at hs
  · next rest h => exact absurd h (hsign rest)
  · cases hs
    simp only [takeWhile_isDigit_toDigits, dropWhile_isDigit_toDigits, wellFormed_toDigits,
      Decimal.value_toDigits]
    rfl

theorem number?_neg_toDigits {n : Nat} (h : 0 < n) :
    Lexer.number? ('-' :: Nat.toDigits 10 n) = some (.integer (-n)) := by
  have hzero : (Nat.toDigits 10 n == ['0']) = false := by
    rw [beq_eq_false_iff_ne]
    intro he
    exact Decimal.head_toDigits_ne_zero h (he ▸ rfl)
  simp only [Lexer.number?, takeWhile_isDigit_toDigits, dropWhile_isDigit_toDigits,
    wellFormed_toDigits, Decimal.value_toDigits, hzero]
  rfl

theorem digit_cases {c : Char} (h : c.isDigit = true) : c = '0' ∨ c = '1' ∨ c = '2' ∨ c = '3' ∨
    c = '4' ∨ c = '5' ∨ c = '6' ∨ c = '7' ∨ c = '8' ∨ c = '9' := by
  have hmem : ∀ n < 58, 48 ≤ n →
      Char.ofNat n ∈ ['0', '1', '2', '3', '4', '5', '6', '7', '8', '9'] := by decide
  simp only [Char.isDigit, Bool.and_eq_true, decide_eq_true_eq] at h
  have hlo : 48 ≤ c.toNat := UInt32.le_iff_toNat_le.mp h.1
  have hhi : c.toNat ≤ 57 := UInt32.le_iff_toNat_le.mp h.2
  have hc := hmem c.toNat (by omega) hlo
  rw [Char.ofNat_toNat] at hc
  simpa using hc

theorem start_digit {c : Char} (h : c.isDigit = true) (before : List Token) :
    Lexer.start before c.val.toUInt8 = some ⟨.inNumber [c], before⟩ := by
  rcases digit_cases h with rfl | rfl | rfl | rfl | rfl | rfl | rfl | rfl | rfl | rfl <;> rfl

theorem step_digit {c : Char} (h : c.isDigit = true) (read : List Char) (before : List Token) :
    Lexer.step ⟨.inNumber read, before⟩ c.val.toUInt8 = some ⟨.inNumber (c :: read), before⟩ := by
  rcases digit_cases h with rfl | rfl | rfl | rfl | rfl | rfl | rfl | rfl | rfl | rfl <;> rfl

theorem utf8EncodeChar_digit {c : Char} (h : c.isDigit = true) :
    utf8EncodeChar c = [c.val.toUInt8] := by
  rcases digit_cases h with rfl | rfl | rfl | rfl | rfl | rfl | rfl | rfl | rfl | rfl <;> rfl

theorem foldlM_digits {cs : List Char} (h : ∀ c ∈ cs, c.isDigit = true) (read : List Char)
    (before : List Token) : (cs.map (·.val.toUInt8)).foldlM Lexer.step ⟨.inNumber read, before⟩ =
      some ⟨.inNumber (cs.reverse ++ read), before⟩ := by
  induction cs generalizing read with
  | nil => rfl
  | cons c cs ih =>
    rw [List.map_cons, List.foldlM_cons, step_digit (h c List.mem_cons_self), Option.bind_eq_bind,
      Option.bind_some, ih fun c hc => h c (List.mem_cons_of_mem _ hc)]
    simp

theorem ofText_render (n : Nat) :
    Bytes.ofText (Decimal.render n) = (Nat.toDigits 10 n).map (·.val.toUInt8) := by
  rw [Bytes.ofText_eq_flatMap, Decimal.toList_render, List.map_eq_flatMap]
  exact List.flatMap_congr fun c hc =>
    utf8EncodeChar_digit (Nat.isDigit_of_mem_toDigits (by decide) (by decide) hc)

theorem spells_of_number? {c : Char} {cs : List Char} {v : Json}
    (hc : ∀ before, Lexer.start before c.val.toUInt8 = some ⟨.inNumber [c], before⟩)
    (hcs : ∀ c ∈ cs, c.isDigit = true) (h : Lexer.number? (c :: cs) = some v) :
    Spells ((c :: cs).map (·.val.toUInt8)) [.scalar v] := by
  intro before
  refine ⟨⟨.inNumber (cs.reverse ++ [c]), before⟩, ?_, ?_⟩
  · rw [List.map_cons, List.foldlM_cons]
    change (Lexer.start before _).bind _ = _
    rw [hc, Option.bind_some, foldlM_digits hcs]
  · simp [Lexer.settle, h]

theorem spells_renderInteger (n : Int) :
    Spells (Bytes.ofText (renderInteger n)) [.scalar (.integer n)] := by
  have hdigits : ∀ k, ∀ c ∈ Nat.toDigits 10 k, c.isDigit = true :=
    fun k c hc => Nat.isDigit_of_mem_toDigits (by decide) (by decide) hc
  unfold renderInteger
  split
  · next h =>
    rw [ofText_render]
    have hn := number?_toDigits n.toNat
    rw [Int.toNat_of_nonneg h] at hn
    have hd := hdigits n.toNat
    cases hcs : Nat.toDigits 10 n.toNat with
    | nil => exact absurd hcs Nat.toDigits_ne_nil
    | cons c cs =>
      rw [hcs] at hn hd
      obtain ⟨hc, hcs⟩ := List.forall_mem_cons.mp hd
      exact spells_of_number? (start_digit hc) hcs hn
  · next h =>
    have hn := number?_neg_toDigits (n := (-n).toNat) (by omega)
    rw [Int.toNat_of_nonneg (by omega), Int.neg_neg] at hn
    rw [Bytes.ofText_append, ofText_render]
    exact spells_of_number? (fun _ => rfl) (hdigits _) hn

end Numbers

end Json

end KeyManagement
