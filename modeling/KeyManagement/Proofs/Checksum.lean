import KeyManagement.Checksum
import Mathlib.Logic.Function.Iterate

/-! # Bursts of errors

The checksum is linear over exclusive or, and no step of its register loses anything. Data of up
to four bytes are fed into as many places of the register, and so two words of this size leave it
in the same state only if they are the same. Hence data that differ within four consecutive bytes
have different checksums.
-/

namespace KeyManagement.Checksum

section Register

variable {x : BitVec 32}

theorem shift_xor (x y : BitVec 32) : shift (x ^^^ y) = shift x ^^^ shift y := by
  unfold shift
  rw [BitVec.getLsbD_xor, BitVec.ushiftRight_xor_distrib]
  cases x.getLsbD 0 with
  | false =>
    cases y.getLsbD 0 with
    | false => rfl
    | true => exact BitVec.xor_assoc _ _ _
  | true =>
    cases y.getLsbD 0 with
    | false =>
      change x >>> 1 ^^^ y >>> 1 ^^^ polynomial = x >>> 1 ^^^ polynomial ^^^ y >>> 1
      rw [BitVec.xor_assoc, BitVec.xor_comm (y >>> 1), BitVec.xor_assoc]
    | true =>
      change x >>> 1 ^^^ y >>> 1 = x >>> 1 ^^^ polynomial ^^^ (y >>> 1 ^^^ polynomial)
      rw [BitVec.xor_comm (y >>> 1) polynomial, BitVec.xor_assoc,
        ← BitVec.xor_assoc polynomial polynomial, BitVec.xor_self, BitVec.zero_xor]

theorem eq_zero_of_shift (h : shift x = 0) : x = 0 := by
  unfold shift at h
  split at h
  · have htop := congrArg (BitVec.getLsbD · 31) h
    simp [polynomial] at htop
  · next hlow =>
    refine BitVec.eq_of_getLsbD_eq fun i _ => ?_
    cases i with
    | zero => simpa using hlow
    | succ i =>
      have hi := congrArg (BitVec.getLsbD · i) h
      simpa [Nat.add_comm] using hi

theorem shift_injective : Function.Injective shift := by
  intro x y h
  rw [← BitVec.xor_eq_zero_iff] at h ⊢
  exact eq_zero_of_shift (shift_xor x y ▸ h)

theorem shiftByte_eq (x : BitVec 32) : shiftByte x = shift^[8] x := rfl

theorem shiftByte_injective : Function.Injective shiftByte := shift_injective.iterate 8

theorem shiftByte_xor (x y : BitVec 32) : shiftByte (x ^^^ y) = shiftByte x ^^^ shiftByte y := by
  simp only [shiftByte, shift_xor]

theorem iterate_shift {n : Nat} (h : ∀ i < n, x.getLsbD i = false) : shift^[n] x = x >>> n := by
  induction n with
  | zero => simp
  | succ n ih =>
    have hn : (x >>> n).getLsbD 0 = false := by simpa using h n (Nat.lt_succ_self n)
    rw [Function.iterate_succ_apply', ih fun i hi => h i (Nat.lt_succ_of_lt hi), shift, hn,
      BitVec.shiftRight_add]
    rfl

theorem shiftByte_shiftLeft (h : ∀ i, 24 ≤ i → x.getLsbD i = false) : shiftByte (x <<< 8) = x := by
  rw [shiftByte_eq, iterate_shift fun i hi => by simp [hi]]
  refine BitVec.eq_of_getLsbD_eq fun i hi => ?_
  rw [BitVec.getLsbD_ushiftRight, BitVec.getLsbD_shiftLeft, Nat.add_sub_cancel_left]
  by_cases hlt : i < 24
  · have hin : 8 + i < 32 := by omega
    have hlow : ¬ 8 + i < 8 := by omega
    simp [hin, hlow]
  · rw [h i (by omega), Bool.and_false]

end Register

section Words

variable {r r' : BitVec 32} {b b' : UInt8} {bytes bytes' rest : Bytes} {i : Nat}

/-- Up to four bytes as one word, the first of them lowest. -/
def word : Bytes → BitVec 32
  | [] => 0
  | b :: rest => word rest <<< 8 ^^^ b.toBitVec.setWidth 32

theorem getLsbD_word (h : 8 * bytes.length ≤ i) : (word bytes).getLsbD i = false := by
  induction bytes generalizing i with
  | nil => simp [word]
  | cons b rest ih =>
    rw [List.length_cons] at h
    have hb : b.toBitVec.getLsbD i = false := BitVec.getLsbD_of_ge _ _ (by omega)
    simp [word, ih (i := i - 8) (by omega), hb]

theorem feed_injective (b : UInt8) : Function.Injective fun r => feed r b := by
  intro r r' h
  exact (BitVec.xor_left_inj _).mp (shiftByte_injective h)

theorem foldl_feed_injective (bytes : Bytes) : Function.Injective fun r => bytes.foldl feed r := by
  induction bytes with
  | nil => exact Function.injective_id
  | cons b rest ih => exact ih.comp (feed_injective b)

theorem feed_xor (r r' : BitVec 32) (b b' : UInt8) :
    feed (r ^^^ r') (b ^^^ b') = feed r b ^^^ feed r' b' := by
  unfold feed
  rw [← shiftByte_xor, UInt8.toBitVec_xor, BitVec.setWidth_xor]
  congr 1
  ac_rfl

theorem foldl_feed_xor (r r' : BitVec 32) (h : bytes.length = bytes'.length) :
    (List.zipWith (· ^^^ ·) bytes bytes').foldl feed (r ^^^ r') =
      bytes.foldl feed r ^^^ bytes'.foldl feed r' := by
  induction bytes generalizing bytes' r r' with
  | nil =>
    cases bytes' with
    | nil => rfl
    | cons b' rest' => contradiction
  | cons b rest ih =>
    cases bytes' with
    | nil => contradiction
    | cons b' rest' =>
      simp only [List.zipWith_cons_cons, List.foldl_cons, feed_xor]
      exact ih _ _ (Nat.succ.inj h)

theorem feed_word (h : rest.length ≤ 3) : feed (word (b :: rest)) b = word rest := by
  rw [feed, word, BitVec.xor_assoc, BitVec.xor_self, BitVec.xor_zero]
  exact shiftByte_shiftLeft fun i hi => getLsbD_word (by omega)

theorem foldl_feed_word (h : bytes.length ≤ 4) : bytes.foldl feed (word bytes) = 0 := by
  induction bytes with
  | nil => rfl
  | cons b rest ih =>
    rw [List.length_cons] at h
    rw [List.foldl_cons, feed_word (by omega)]
    exact ih (by omega)

theorem eq_zero_of_word (h : bytes.length ≤ 4) (hw : word bytes = 0) : ∀ b ∈ bytes, b = 0 := by
  induction bytes with
  | nil => nofun
  | cons b rest ih =>
    rw [List.length_cons] at h
    have hb : b = 0 := by
      rw [← UInt8.toBitVec_inj]
      refine BitVec.eq_of_getLsbD_eq fun i hi => ?_
      have hi' := congrArg (BitVec.getLsbD · i) hw
      simpa [word, hi, show i < 32 by omega] using hi'
    subst hb
    have hrest : word rest = 0 := by
      have hfeed : feed (word (0 :: rest)) 0 = word rest := feed_word (by omega)
      rw [← hfeed, hw]
      rfl
    rw [List.forall_mem_cons]
    exact ⟨rfl, ih (by omega) hrest⟩

theorem eq_of_zipWith_xor (hl : bytes.length = bytes'.length)
    (h : ∀ b ∈ List.zipWith (· ^^^ ·) bytes bytes', b = 0) : bytes = bytes' := by
  refine List.ext_getElem hl fun i hi hi' => ?_
  have hlt : i < (List.zipWith (· ^^^ ·) bytes bytes').length := by
    rw [List.length_zipWith]
    exact Nat.lt_min.mpr ⟨hi, hi'⟩
  have hxor := h _ (List.getElem_mem hlt)
  rw [List.getElem_zipWith] at hxor
  exact UInt8.xor_eq_zero_iff.mp hxor

theorem foldl_feed_ne (hl : bytes.length = bytes'.length) (h : bytes.length ≤ 4)
    (hne : bytes ≠ bytes') : bytes.foldl feed r ≠ bytes'.foldl feed r := by
  intro he
  have hlength : (List.zipWith (· ^^^ ·) bytes bytes').length ≤ 4 := by
    rw [List.length_zipWith]
    omega
  have hzero : (List.zipWith (· ^^^ ·) bytes bytes').foldl feed 0 = 0 := by
    have hxor := foldl_feed_xor r r hl
    rwa [he, BitVec.xor_self, BitVec.xor_self] at hxor
  have hword := foldl_feed_injective _ ((foldl_feed_word hlength).trans hzero.symm)
  exact hne (eq_of_zipWith_xor hl (eq_zero_of_word hlength hword))

end Words

/-- Some bytes were changed on the way, all of them within four consecutive ones. -/
structure Burst (sent received : Bytes) : Prop where
  length : received.length = sent.length
  ne : received ≠ sent
  within : ∃ start, ∀ i, received[i]? ≠ sent[i]? → start ≤ i ∧ i < start + 4

section Bursts

variable {sent received : Bytes}

theorem Burst.exists_words (h : Burst sent received) : ∃ before bytes bytes' after : Bytes,
    sent = before ++ (bytes ++ after) ∧ received = before ++ (bytes' ++ after) ∧
      bytes.length = bytes'.length ∧ bytes.length ≤ 4 ∧ bytes ≠ bytes' := by
  obtain ⟨start, hw⟩ := h.within
  have hsame : ∀ i, i < start ∨ start + 4 ≤ i → received[i]? = sent[i]? := by
    intro i hi
    by_contra hne
    obtain ⟨hlow, hhigh⟩ := hw i hne
    omega
  have hbefore : received.take start = sent.take start := by
    refine List.ext_getElem? fun i => ?_
    rw [List.getElem?_take, List.getElem?_take]
    split
    · next hi => exact hsame i (.inl hi)
    · rfl
  have hafter : received.drop (start + 4) = sent.drop (start + 4) := by
    refine List.ext_getElem? fun i => ?_
    rw [List.getElem?_drop, List.getElem?_drop]
    exact hsame _ (.inr (Nat.le_add_right _ _))
  have hcut : ∀ data : Bytes,
      data = data.take start ++ ((data.drop start).take 4 ++ data.drop (start + 4)) := by
    intro data
    rw [← List.drop_drop, List.take_append_drop, List.take_append_drop]
  refine ⟨sent.take start, (sent.drop start).take 4, (received.drop start).take 4,
    sent.drop (start + 4), hcut sent, ?_, ?_, List.length_take_le _ _, fun he => ?_⟩
  · rw [← hbefore, ← hafter]
    exact hcut received
  · simp [h.length]
  · refine h.ne ?_
    rw [hcut received, hcut sent, hbefore, hafter, he]

/-- Data that were hit by a burst have another checksum. -/
theorem Burst.crc32c_ne (h : Burst sent received) : crc32c received ≠ crc32c sent := by
  obtain ⟨before, bytes, bytes', after, rfl, rfl, hl, h4, hne⟩ := h.exists_words
  intro he
  have hstates := BitVec.not_inj.mp he
  simp only [List.foldl_append] at hstates
  exact foldl_feed_ne hl h4 hne (foldl_feed_injective after hstates).symm

theorem toWire_injective : Function.Injective toWire := by
  intro crc crc' h
  exact BitVec.eq_of_toNat_eq (Int.ofNat.inj h)

end Bursts

end KeyManagement.Checksum
