import KeyManagement.Proofs.Text.Decimal
import KeyManagement.Time.Reader
import Mathlib.Algebra.Group.Nat.Defs
import Mathlib.Data.List.TakeWhile

/-! # Timestamps that are read back

A number is read up to the width that it was padded to, or up to what is no digit. So reading
takes a written timestamp apart at the places where it was put together.
-/

namespace KeyManagement.Timestamp

open Text

section Numbers

variable {width n : Nat} {digits rest : List Char} {c : Char}

theorem toList_padded (width n : Nat) : (padded width n).toList =
    List.replicate (width - (Nat.toDigits 10 n).length) '0' ++ Nat.toDigits 10 n := by
  simp [padded, Decimal.render]

theorem isDigit_of_mem_padded (h : c ∈ (padded width n).toList) : c.isDigit = true := by
  rw [toList_padded, List.mem_append] at h
  rcases h with h | h
  · rw [List.eq_of_mem_replicate h]
    decide
  · exact Nat.isDigit_of_mem_toDigits (by decide) (by decide) h

theorem padded_ne_nil (width n : Nat) : (padded width n).toList ≠ [] := by
  rw [toList_padded]
  exact List.append_ne_nil_of_right_ne_nil _ Nat.toDigits_ne_nil

theorem length_padded (hw : 0 < width) (h : n < 10 ^ width) :
    (padded width n).toList.length = width := by
  have hl := (Nat.length_toDigits_le_iff (by decide) hw).mpr h
  rw [toList_padded, List.length_append, List.length_replicate]
  omega

theorem value_padded (width n : Nat) : Decimal.value (padded width n).toList = n := by
  rw [toList_padded, Decimal.value_replicate_append, Decimal.value_toDigits]

/-- What follows a number of any width. -/
def EndsNumber (rest : List Char) : Prop := ∀ c, rest.head? = some c → c.isDigit = false

theorem EndsNumber.takeWhile (h : EndsNumber rest) (k : Nat) :
    (rest.take k).takeWhile Char.isDigit = [] := by
  cases rest with
  | nil => simp
  | cons c rest =>
    cases k with
    | zero => rfl
    | succ k => simp [h c rfl]

theorem number_append (hd : ∀ c ∈ digits, c.isDigit = true) (hne : digits ≠ [])
    (hl : digits.length ≤ width) (hr : digits.length = width ∨ EndsNumber rest) :
    number width (digits ++ rest) = some (Decimal.value digits, rest) := by
  have hrest : (rest.take (width - digits.length)).takeWhile Char.isDigit = [] := by
    rcases hr with rfl | hr
    · rw [Nat.sub_self]
      rfl
    · exact hr.takeWhile _
  have hdigits : ((digits ++ rest).take width).takeWhile Char.isDigit = digits := by
    rw [List.take_append, List.take_of_length_le hl, List.takeWhile_append_of_pos hd, hrest,
      List.append_nil]
  rw [number, hdigits]
  simp [hne]

theorem number_padded (hw : 0 < width) (h : n < 10 ^ width) (rest : List Char) :
    number width ((padded width n).toList ++ rest) = some (n, rest) := by
  have hl := length_padded hw h
  rw [number_append (fun c => isDigit_of_mem_padded) (padded_ne_nil width n) hl.le (.inl hl),
    value_padded]

theorem not_isBlank_of_isDigit (h : c.isDigit = true) : isBlank c = false := by
  have hlow : 48 ≤ c.toNat ∧ c.toNat ≤ 57 := by
    simp only [Char.isDigit, Bool.and_eq_true, decide_eq_true_eq] at h
    exact ⟨UInt32.le_iff_toNat_le.mp h.1, UInt32.le_iff_toNat_le.mp h.2⟩
  simp [isBlank, blankRanges]
  omega

theorem skipBlanks_digit (h : c.isDigit = true) : skipBlanks (c :: rest) = c :: rest := by
  simp [skipBlanks, not_isBlank_of_isDigit h]

theorem exists_padded_eq_cons (width n : Nat) :
    ∃ c digits, (padded width n).toList = c :: digits ∧ c.isDigit = true := by
  cases hp : (padded width n).toList with
  | nil => exact absurd hp (padded_ne_nil width n)
  | cons c digits =>
    exact ⟨c, digits, rfl, isDigit_of_mem_padded (by rw [hp]; exact List.mem_cons_self)⟩

theorem skipBlanks_padded (width n : Nat) (rest : List Char) :
    skipBlanks ((padded width n).toList ++ rest) = (padded width n).toList ++ rest := by
  obtain ⟨c, digits, hp, hc⟩ := exists_padded_eq_cons width n
  rw [hp]
  exact skipBlanks_digit hc

theorem shortNumber_padded (h : n < 100) (rest : List Char) :
    shortNumber ((padded 2 n).toList ++ rest) = some (n, rest) := by
  rw [shortNumber, skipBlanks_padded]
  exact number_padded (by decide) h rest

theorem number_padded_of_endsNumber (hr : EndsNumber rest) (width n : Nat) :
    number ((padded width n).toList ++ rest).length ((padded width n).toList ++ rest) =
      some (n, rest) := by
  rw [number_append (fun c => isDigit_of_mem_padded) (padded_ne_nil width n) (by simp) (.inr hr),
    value_padded]

end Numbers

section Parts

variable {rest : List Char}

theorem signedYear_digit {c : Char} (h : c.isDigit = true) : signedYear (c :: rest) =
    (number 4 (c :: rest)).map fun (n, rest) => ((n : Int), rest) := by
  unfold signedYear
  rw [skipBlanks_digit h]
  split
  · next he =>
    cases he
    contradiction
  · next he =>
    cases he
    contradiction
  · rfl

theorem signedYear_plus (s : List Char) :
    signedYear ('+' :: s) = (number s.length s).map fun (n, rest) => ((n : Int), rest) := rfl

theorem signedYear_minus (s : List Char) :
    signedYear ('-' :: s) = (number s.length s).map fun (n, rest) => (-(n : Int), rest) := rfl

theorem signedYear_renderYear (hr : EndsNumber rest) (year : Int) :
    signedYear ((renderYear year).toList ++ rest) = some (year, rest) := by
  unfold renderYear
  split
  · next h =>
    have hn : number 4 ((padded 4 year.toNat).toList ++ rest) = some (year.toNat, rest) :=
      number_padded (by decide) (by omega) rest
    obtain ⟨c, digits, hp, hc⟩ := exists_padded_eq_cons 4 year.toNat
    rw [hp] at hn ⊢
    rw [List.cons_append, signedYear_digit hc, ← List.cons_append, hn]
    simp only [Option.map_some, Int.toNat_of_nonneg h.1]
  · split
    · next h =>
      have hs : ("+" ++ padded 4 year.toNat).toList = '+' :: (padded 4 year.toNat).toList := by
        simp
      rw [hs, List.cons_append, signedYear_plus, number_padded_of_endsNumber hr]
      simp only [Option.map_some, Int.toNat_of_nonneg h]
    · next h =>
      have hs : ("-" ++ padded 4 (-year).toNat).toList =
          '-' :: (padded 4 (-year).toNat).toList := by simp
      have hneg : 0 ≤ -year := by omega
      rw [hs, List.cons_append, signedYear_minus, number_padded_of_endsNumber hr]
      simp only [Option.map_some, Int.toNat_of_nonneg hneg, Int.neg_neg]

theorem readFraction_padded {width n : Nat} (hw : 0 < width) (hle : width ≤ 9)
    (h : n < 10 ^ width) (hr : EndsNumber rest) :
    readFraction (("." ++ padded width n).toList ++ rest) =
      some (n * 10 ^ (9 - width), rest) := by
  have hl := length_padded hw h
  have hs : ("." ++ padded width n).toList = '.' :: (padded width n).toList := by simp
  have hn : number 9 ((padded width n).toList ++ rest) = some (n, rest) := by
    rw [number_append (fun c => isDigit_of_mem_padded) (padded_ne_nil width n) (hl.symm ▸ hle)
      (.inr hr), value_padded]
  have hlength : ((padded width n).toList ++ rest).length - rest.length = width := by
    rw [List.length_append, hl, Nat.add_sub_cancel]
  have hdrop : rest.dropWhile Char.isDigit = rest := by
    cases rest with
    | nil => rfl
    | cons c rest => exact List.dropWhile_cons_of_neg (by simp [hr c rfl])
  rw [hs, List.cons_append]
  simp only [readFraction, hn, Option.bind_eq_bind, Option.bind_some, hlength, hdrop,
    Option.pure_def]
  rfl

theorem readFraction_renderFraction {nano : Nat} (h : nano < 1000000000) (hr : EndsNumber rest)
    (hp : rest.head? ≠ some '.') :
    readFraction ((renderFraction nano).toList ++ rest) = some (nano, rest) := by
  unfold renderFraction
  split
  · next h0 =>
    subst h0
    change readFraction rest = _
    unfold readFraction
    split
    · exact absurd rfl hp
    · rfl
  · split
    · next h3 =>
      rw [readFraction_padded (by decide) (by decide) (by omega) hr]
      have hn : nano / 1000000 * 10 ^ (9 - 3) = nano := by omega
      rw [hn]
    · split
      · next h6 =>
        rw [readFraction_padded (by decide) (by decide) (by omega) hr]
        have hn : nano / 1000 * 10 ^ (9 - 6) = nano := by omega
        rw [hn]
      · rw [readFraction_padded (by decide) (by decide) (by omega) hr]
        have hn : nano * 10 ^ (9 - 9) = nano := by omega
        rw [hn]

theorem endsNumber_cons {c : Char} (h : c.isDigit = false) : EndsNumber (c :: rest) := by
  rintro _ ⟨⟩
  exact h

theorem ofParts?_date (d : Date) : Date.ofParts? d.year d.month d.day = some d := by
  rw [Date.ofParts?, dif_pos d.isDay]

theorem ofParts?_time (t : TimeOfDay) :
    TimeOfDay.ofParts? t.hour t.minute t.second t.nano = some t := by
  rw [TimeOfDay.ofParts?, dif_pos ⟨t.hour_lt, t.minute_lt, t.second_le, t.nano_lt⟩]

theorem readDate_render (d : Date) (rest : List Char) :
    readDate ((renderYear d.year).toList ++
      '-' :: ((padded 2 d.month).toList ++ '-' :: ((padded 2 d.day).toList ++ rest))) =
      some (d, rest) := by
  obtain ⟨-, -, -, hmonth, -, hday⟩ := d.isDay
  have hdays : daysInMonth d.year d.month ≤ 31 := by
    unfold daysInMonth
    split
    · split <;> omega
    · split <;> omega
  have hskip : ∀ s, skipBlanks ('-' :: s) = '-' :: s := fun s => rfl
  rw [readDate, signedYear_renderYear (endsNumber_cons rfl)]
  simp only [Option.bind_eq_bind, Option.bind_some, hskip, expect, if_true,
    shortNumber_padded (show d.month < 100 by omega),
    shortNumber_padded (show d.day < 100 by omega), ofParts?_date]
  rfl

theorem readTime_render (t : TimeOfDay) (hr : EndsNumber rest) (hp : rest.head? ≠ some '.') :
    readTime ((padded 2 t.hour).toList ++ ':' :: ((padded 2 t.minute).toList ++
      ':' :: ((padded 2 t.second).toList ++ ((renderFraction t.nano).toList ++ rest)))) =
      some (t, rest) := by
  have hhour := t.hour_lt
  have hminute := t.minute_lt
  have hsecond := t.second_le
  have hskip : ∀ s, skipBlanks (':' :: s) = ':' :: s := fun s => rfl
  rw [readTime, shortNumber_padded (by omega)]
  simp only [Option.bind_eq_bind, Option.bind_some, hskip, expect, if_true,
    shortNumber_padded (show t.minute < 100 by omega),
    shortNumber_padded (show t.second < 100 by omega),
    readFraction_renderFraction t.nano_lt hr hp, ofParts?_time]
  rfl

theorem ofLocal?_zero (d : Date) (t : TimeOfDay) : ofLocal? d t 0 = some ⟨d, t⟩ := by
  have hhour := t.hour_lt
  have hminute := t.minute_lt
  have hpos : ¬ (t.hour * 60 + t.minute : Int) - 0 < 0 := by omega
  have hlt : ¬ (1440 : Int) ≤ (t.hour * 60 + t.minute : Int) - 0 := by omega
  have hminutes : (((t.hour * 60 + t.minute : Int) - 0) % 1440).toNat = t.hour * 60 + t.minute := by
    omega
  have hdiv : (t.hour * 60 + t.minute) / 60 = t.hour := by omega
  have hmod : (t.hour * 60 + t.minute) % 60 = t.minute := by omega
  simp only [ofLocal?, hpos, hlt, if_false, hminutes, hdiv, hmod, ofParts?_time]
  rfl

end Parts

/-- A written timestamp is read back, in every year and with every fraction. -/
theorem parse?_render (t : Timestamp) : parse? t.render = some t := by
  have htext : t.render.toList = (renderYear t.date.year).toList ++
      '-' :: ((padded 2 t.date.month).toList ++ '-' :: ((padded 2 t.date.day).toList ++
        'T' :: ((padded 2 t.time.hour).toList ++ ':' :: ((padded 2 t.time.minute).toList ++
          ':' :: ((padded 2 t.time.second).toList ++
            ((renderFraction t.time.nano).toList ++ ['Z'])))))) := by
    simp [render, renderWith]
  have hz : EndsNumber ['Z'] := endsNumber_cons rfl
  rw [parse?, htext, readDate_render]
  simp only [Option.bind_eq_bind, Option.bind_some, readTime_render t.time hz (by simp)]
  exact ofLocal?_zero t.date t.time

end KeyManagement.Timestamp
