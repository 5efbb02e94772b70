import KeyManagement.Configuration.Setting
import KeyManagement.Proofs.Address.Reader
import KeyManagement.Proofs.Configuration.Usable
import KeyManagement.Proofs.Text.Decimal

/-! # Texts that are taken for something else

A text that is read as a flag or a number need not be printed as it was written. But flags and
numbers are written and printed with few characters, and no setting that is accepted is made of
these alone. So a text that is accepted is never taken for anything else, and what is accepted in
its place is never something that was.
-/

namespace KeyManagement

/-- The characters of flags and numbers, in small letters. -/
def literalChars : List Char := "0123456789+-.truefalsniy".toList

/-- A text is made of such characters, in any case. -/
def IsLiteral (s : List Char) : Prop := ∀ c ∈ s, c.toLower ∈ literalChars

instance : DecidablePred IsLiteral := fun s => List.decidableBAll _ s

theorem toList_toLower (s : String) : s.toLower.toList = s.toList.map Char.toLower :=
  String.toList_map

section Characters

variable {s t : List Char} {c : Char}

theorem isLiteral_nil : IsLiteral [] := List.forall_mem_nil _

theorem isLiteral_cons_iff : IsLiteral (c :: s) ↔ c.toLower ∈ literalChars ∧ IsLiteral s :=
  List.forall_mem_cons

theorem isLiteral_append_iff : IsLiteral (s ++ t) ↔ IsLiteral s ∧ IsLiteral t :=
  List.forall_mem_append

theorem toLower_mem_literalChars (h : c.isDigit = true) : c.toLower ∈ literalChars := by
  have hdigit : ∀ d < 10, (Nat.digitChar d).toLower ∈ literalChars := by decide
  simp only [Char.isDigit, Bool.and_eq_true, decide_eq_true_eq] at h
  obtain ⟨hlt, hc⟩ := Decimal.digitChar_digitValue h
  exact hc ▸ hdigit _ hlt

theorem isLiteral_of_isDigit (h : ∀ c ∈ s, c.isDigit = true) : IsLiteral s :=
  fun c hc => toLower_mem_literalChars (h c hc)

theorem isLiteral_toDigits (n : Nat) : IsLiteral (Nat.toDigits 10 n) :=
  isLiteral_of_isDigit fun _ => Nat.isDigit_of_mem_toDigits (by decide) (by decide)

theorem isLiteral_of_toLower_eq {text word : String} (h : text.toLower = word)
    (hw : word.toList ⊆ literalChars) : IsLiteral text.toList := by
  subst h
  rw [toList_toLower] at hw
  exact List.forall_mem_map.mp hw

end Characters

section Printed

theorem isLiteral_sign (negative : Bool) : IsLiteral (Binary64.sign negative) := by
  cases negative <;> decide

theorem isLiteral_renderInteger (n : Int) : IsLiteral (Setting.renderInteger n).toList := by
  rw [Setting.renderInteger, String.toList_append, String.toList_ofList, Decimal.toList_render]
  exact isLiteral_append_iff.mpr ⟨isLiteral_sign _, isLiteral_toDigits _⟩

theorem isLiteral_positional (decimal : Nat) : IsLiteral (Binary64.positional decimal) := by
  simp only [Binary64.positional]
  generalize hf : (List.dropWhile _ _).reverse = fraction
  cases fraction with
  | nil => exact isLiteral_toDigits _
  | cons d fraction =>
    have hfraction : IsLiteral (d :: fraction) := by
      intro c hc
      rw [← hf, List.mem_reverse] at hc
      have hp := List.mem_reverse.mp ((List.dropWhile_suffix _).mem hc)
      rcases List.mem_append.mp hp with hz | hc
      · rw [List.eq_of_mem_replicate hz]
        decide
      · exact isLiteral_toDigits _ c hc
    exact isLiteral_append_iff.mpr ⟨isLiteral_toDigits _,
      isLiteral_cons_iff.mpr ⟨by decide, hfraction⟩⟩

theorem isLiteral_render (x : Binary64) : IsLiteral x.render.toList := by
  cases x with
  | nan => decide +kernel
  | infinite negative =>
    rw [Binary64.render, String.toList_ofList]
    exact isLiteral_append_iff.mpr ⟨isLiteral_sign negative, by decide⟩
  | finite negative units =>
    rw [Binary64.render, String.toList_ofList]
    exact isLiteral_append_iff.mpr ⟨isLiteral_sign negative, isLiteral_positional _⟩

theorem Setting.eq_text_or_isLiteral {setting : Setting} {t : String}
    (h : setting.text? = some t) : setting = .text t ∨ IsLiteral t.toList := by
  cases setting with
  | flag value =>
    cases h
    cases value <;> exact .inr (by decide)
  | integer value =>
    cases h
    exact .inr (isLiteral_renderInteger value)
  | real value =>
    cases h
    exact .inr (isLiteral_render value)
  | text value =>
    cases h
    exact .inl rfl
  | parts => contradiction

end Printed

namespace Literal

variable {s : List Char}

theorem isLiteral_of_natural? {n : Nat} (h : natural? s = some n) : IsLiteral s := by
  simp only [natural?, Option.ite_none_right_eq_some, Bool.and_eq_true, List.all_eq_true] at h
  exact isLiteral_of_isDigit h.1.2

theorem isLiteral_of_splitSign (h : IsLiteral (splitSign s).2) : IsLiteral s := by
  unfold splitSign at h
  split at h
  · exact isLiteral_cons_iff.mpr ⟨by decide, h⟩
  · exact isLiteral_cons_iff.mpr ⟨by decide, h⟩
  · exact h

theorem isLiteral_of_integer? {n : Int} (h : integer? s = some n) : IsLiteral s := by
  obtain ⟨m, hm, -⟩ := Option.bind_eq_some_iff.mp h
  exact isLiteral_of_splitSign (isLiteral_of_natural? hm)

theorem isLiteral_of_exponent? {n : Int} (h : exponent? s = some n) : IsLiteral s := by
  unfold exponent? at h
  split at h
  · exact isLiteral_nil
  · exact isLiteral_cons_iff.mpr ⟨by decide, isLiteral_of_integer? h⟩
  · exact isLiteral_cons_iff.mpr ⟨by decide, isLiteral_of_integer? h⟩
  · contradiction

theorem isLiteral_of_fraction (h : IsLiteral (fraction s).1 ∧ IsLiteral (fraction s).2) :
    IsLiteral s := by
  unfold fraction at h
  split at h
  · next s =>
    rw [List.span_eq_takeWhile_dropWhile, ← isLiteral_append_iff,
      List.takeWhile_append_dropWhile] at h
    exact isLiteral_cons_iff.mpr ⟨by decide, h⟩
  · exact h.2

theorem isLiteral_of_binary64? {text : String} {x : Binary64} (h : binary64? text = some x) :
    IsLiteral text.toList := by
  refine isLiteral_of_splitSign ?_
  simp only [binary64?] at h
  generalize (splitSign text.toList).2 = body at h
  have hbody : (String.ofList body).toList = body := String.toList_ofList
  split at h
  · next hw => exact hbody ▸ isLiteral_of_toLower_eq hw (by decide)
  · next hw => exact hbody ▸ isLiteral_of_toLower_eq hw (by decide)
  · next hw => exact hbody ▸ isLiteral_of_toLower_eq hw (by decide)
  · obtain ⟨digits, hd, h⟩ := Option.bind_eq_some_iff.mp h
    obtain ⟨exponent, he, -⟩ := Option.bind_eq_some_iff.mp h
    rw [List.span_eq_takeWhile_dropWhile] at hd he
    obtain ⟨hwhole, hfraction⟩ := isLiteral_append_iff.mp (isLiteral_of_natural? hd)
    rw [← List.takeWhile_append_dropWhile (p := Char.isDigit) (l := body)]
    exact isLiteral_append_iff.mpr
      ⟨hwhole, isLiteral_of_fraction ⟨hfraction, isLiteral_of_exponent? he⟩⟩

end Literal

namespace Setting

variable {s t : String}

theorem isLiteral_of_flag? {value : Bool} (h : flag? s = some value) : IsLiteral s.toList := by
  unfold flag? at h
  split at h
  · next hw => exact isLiteral_of_toLower_eq hw (by decide)
  · next hw => exact isLiteral_of_toLower_eq hw (by decide)
  · contradiction

theorem isLiteral_of_int64? {n : Int} (h : Literal.int64? s = some n) : IsLiteral s.toList :=
  Literal.isLiteral_of_integer? (Option.filter_eq_some_iff.mp h).1

/-- What has other characters in it is taken as the text that it is. -/
theorem ofText_of_not_isLiteral (h : ¬ IsLiteral s.toList) : ofText s = .text s := by
  unfold ofText
  split
  · next hf => exact absurd (isLiteral_of_flag? hf) h
  · next hi => exact absurd (isLiteral_of_int64? hi) h
  · next hr => exact absurd (Literal.isLiteral_of_binary64? hr) h
  · rfl

theorem eq_of_ofText_eq_text (h : ofText s = .text t) : s = t := by
  unfold ofText at h
  split at h <;> cases h
  rfl

theorem text?_ofText_eq_some_iff (ht : ¬ IsLiteral t.toList) :
    (ofText s).text? = some t ↔ s = t := by
  constructor
  · exact fun h => eq_of_ofText_eq_text ((eq_text_or_isLiteral h).resolve_right ht)
  · rintro rfl
    rw [ofText_of_not_isLiteral ht, text?]

end Setting

section Accepted

variable {s : String}

theorem not_isLiteral_of_mem {c : Char} (h : c ∈ s.toList) (hc : c.toLower ∉ literalChars) :
    ¬ IsLiteral s.toList :=
  fun hs => hc (hs c h)

theorem not_isLiteral_address (h : (SocketAddress.parse? s).isSome) : ¬ IsLiteral s.toList := by
  obtain ⟨address, h⟩ := Option.isSome_iff_exists.mp h
  rcases SocketAddress.mark_mem_of_parse? h with hm | hm
  · exact not_isLiteral_of_mem hm (by decide)
  · exact not_isLiteral_of_mem hm (by decide)

theorem not_isLiteral_of_toLower_mem {names : List String}
    (hnames : ∀ name ∈ names, ¬ name.toList ⊆ literalChars) (h : s.toLower ∈ names) :
    ¬ IsLiteral s.toList := by
  intro hs
  apply hnames _ h
  rw [toList_toLower]
  exact List.forall_mem_map.mpr hs

theorem StoreKind.toLower_of_parse? (h : (StoreKind.parse? s).isSome) : s.toLower ∈ ["memory"] := by
  unfold StoreKind.parse? at h
  split at h
  · next he => exact List.mem_singleton.mpr he
  · contradiction

theorem subset_intercalate {α : Type} {sep p : List α} {parts : List (List α)} (h : p ∈ parts) :
    p ⊆ sep.intercalate parts := by
  induction parts with
  | nil => contradiction
  | cons q parts ih =>
    by_cases hne : parts = []
    · subst hne
      rw [List.mem_singleton.mp h, List.intercalate_singleton]
      exact List.Subset.refl _
    · rw [List.intercalate_cons_of_ne_nil hne]
      rcases List.mem_cons.mp h with rfl | h
      · exact fun c hc => by simp [hc]
      · exact fun c hc => by simp [ih h hc]

theorem FileName.extension?_subset {path ext : String} (h : extension? path = some ext) :
    ext.toList ⊆ path.toList := by
  simp only [extension?, ofPath?, Option.bind_eq_bind, Option.bind_eq_some_iff,
    Option.filter_eq_some_iff, Option.ite_none_right_eq_some, Option.some.injEq] at h
  obtain ⟨name, ⟨hname, -⟩, -, rfl⟩ := h
  have hpart := (List.mem_filter.mp (List.mem_of_getLast? hname)).1
  have hjoin : ['/'].intercalate (path.toList.splitOn '/') = path.toList :=
    List.intercalate_splitOn '/'
  intro c hc
  rw [String.toList_ofList, List.mem_reverse] at hc
  have hname : c ∈ name := List.mem_reverse.mp ((List.takeWhile_prefix _).mem hc)
  exact hjoin ▸ subset_intercalate hpart hname

theorem not_isLiteral_yaml (h : FileName.isYaml s = true) : ¬ IsLiteral s.toList := by
  unfold FileName.isYaml at h
  split at h
  · next ext he =>
    have hext : ext.toLower ∈ ["yaml", "yml"] := by simpa using h
    have hnot : ¬ IsLiteral ext.toList := not_isLiteral_of_toLower_mem (by decide) hext
    exact fun hs => hnot fun c hc => hs c (FileName.extension?_subset he hc)
  · contradiction

/-- Each text among the settings has another character in it. -/
structure Configuration.Telling (c : Configuration) : Prop where
  listenAddress : ¬ IsLiteral c.listenAddress.toList
  store : ¬ IsLiteral c.store.toList
  logLevel : ¬ IsLiteral c.logLevel.toList
  logFormat : ¬ IsLiteral c.logFormat.toList
  seedFile : ∀ path, c.seedFile = some path → ¬ IsLiteral path.toList

theorem Configuration.telling_of_fault?_eq_none {c : Configuration} (h : c.fault? = none) :
    c.Telling := by
  obtain ⟨ha, hs, hl, hf, hp, -⟩ := fault?_eq_none_iff.mp h
  exact {
    listenAddress := not_isLiteral_address ha
    store := not_isLiteral_of_toLower_mem (by decide) (StoreKind.toLower_of_parse? hs)
    logLevel := not_isLiteral_of_toLower_mem (by decide) hl
    logFormat := not_isLiteral_of_toLower_mem (by decide) hf
    seedFile := fun path he => not_isLiteral_yaml (hp path he) }

end Accepted

end KeyManagement
