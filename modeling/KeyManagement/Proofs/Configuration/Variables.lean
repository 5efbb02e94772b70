import KeyManagement.Configuration.Variables
import KeyManagement.Proofs.Configuration.Literal
import KeyManagement.Proofs.Name.Identifier
import KeyManagement.Proofs.Outcome
import Mathlib.Data.List.TakeWhile

/-! # Settings as variables give them

A variable with a plain name gives the whole of one setting. Its value may be taken for a flag or
a number on the way, but the texts of an accepted configuration are what the variables give, or
what is the default where they give nothing.
-/

namespace KeyManagement

namespace Variable

/-- A name of ASCII letters, digits and underscores. -/
def IsPlain (name : String) : Prop := ∀ c ∈ name.toList, c.isAlphanum = true ∨ c = '_'

instance : DecidablePred IsPlain := fun name => List.decidableBAll _ name.toList

/-- The value of the variable that gives a setting: its name, in any case, is that of the setting
behind the prefix. -/
def valueOf? (vars : List (String × String)) (setting : String) : Option String :=
  (vars.find? fun v => v.1.toLower = "kms_emulator_" ++ setting).map (·.2)

section Names

variable {name setting : String} {c : Char}

theorem toNat_lt_of_isPlain (h : c.isAlphanum = true ∨ c = '_') : c.toNat < 128 := by
  have hc : isIdChar c = true := by
    rcases h with h | h
    · simp [isIdChar, h]
    · simp [isIdChar, h]
  exact Nat.lt_succ_of_le (UInt32.le_iff_toNat_le.mp (isIdChar_iff.mp hc).val_le)

theorem lower_of_isPlain (h : c.isAlphanum = true ∨ c = '_') :
    lower c = c.toLower ∧ isNameChar c.toLower = true := by
  have hlow : ∀ n < 128, (Char.ofNat n).isAlphanum = true ∨ Char.ofNat n = '_' →
      lower (Char.ofNat n) = (Char.ofNat n).toLower ∧
        isNameChar (Char.ofNat n).toLower = true := by decide +kernel
  have hn := hlow c.toNat (toNat_lt_of_isPlain h)
  rw [Char.ofNat_toNat] at hn
  exact hn h

theorem map_lower (h : IsPlain name) : name.toList.map lower = name.toLower.toList := by
  rw [toList_toLower]
  exact List.map_congr_left fun c hc => (lower_of_isPlain (h c hc)).1

theorem isNameChar_of_mem_toLower (h : IsPlain name) (hc : c ∈ name.toLower.toList) :
    isNameChar c = true := by
  rw [toList_toLower] at hc
  obtain ⟨d, hd, rfl⟩ := List.mem_map.mp hc
  exact (lower_of_isPlain (h d hd)).2

theorem setting?_eq (h : IsPlain name) : setting? name =
    if namePrefix.isPrefixOf name.toLower.toList then
      some (String.ofList (name.toLower.toList.drop namePrefix.length), true)
    else none := by
  have hall : ∀ c ∈ name.toLower.toList.drop namePrefix.length, isNameChar c = true :=
    fun c hc => isNameChar_of_mem_toLower h (List.mem_of_mem_drop hc)
  simp only [setting?, map_lower h, List.span_eq_takeWhile_dropWhile,
    List.takeWhile_eq_self_iff.mpr hall, List.dropWhile_eq_nil_iff.mpr hall, List.isEmpty_nil,
    ite_self]

theorem setting?_eq_some_iff (h : IsPlain name) {whole : Bool} :
    setting? name = some (setting, whole) ↔
      name.toLower = "kms_emulator_" ++ setting ∧ whole = true := by
  rw [setting?_eq h, Option.ite_none_right_eq_some, List.isPrefixOf_iff_prefix, Option.some.injEq,
    Prod.mk.injEq, eq_comm (a := true), ← String.toList_inj, ← String.toList_inj,
    String.toList_ofList, String.toList_append]
  constructor
  · rintro ⟨⟨rest, hr⟩, hs, rfl⟩
    rw [← hr, List.drop_left] at hs
    exact ⟨hs ▸ hr.symm, rfl⟩
  · rintro ⟨hn, rfl⟩
    have hp : namePrefix ++ setting.toList = name.toLower.toList := hn.symm
    exact ⟨⟨_, hp⟩, by rw [← hp, List.drop_left], rfl⟩

theorem setting?_eq_none (h : IsPlain name) (hs : setting? name = none) (setting : String) :
    name.toLower ≠ "kms_emulator_" ++ setting := by
  intro hn
  rw [(setting?_eq_some_iff h).mpr ⟨hn, rfl⟩] at hs
  contradiction

end Names

section Values

variable {vars : List (String × String)} {setting : String}

theorem find?_reverse {α : Type} {l : List α} {p : α → Bool}
    (h : l.Pairwise fun a b => p a → ¬ p b) : l.reverse.find? p = l.find? p := by
  induction l with
  | nil => rfl
  | cons a l ih =>
    obtain ⟨ha, hl⟩ := List.pairwise_cons.mp h
    rw [List.reverse_cons, List.find?_append, ih hl]
    by_cases hp : p a
    · have hnone : l.find? p = none := List.find?_eq_none.mpr fun b hb => ha b hb hp
      rw [hnone, Option.none_or, List.find?_cons_of_pos hp, List.find?_cons_of_pos hp]
    · rw [List.find?_cons_of_neg hp, List.find?_cons_of_neg hp, List.find?_nil, Option.or_none]

/-- Where no two names differ only in case, the order of the variables does not matter. -/
theorem valueOf?_reverse (h : vars.Pairwise fun a b => a.1.toLower ≠ b.1.toLower)
    (setting : String) : valueOf? vars.reverse setting = valueOf? vars setting := by
  refine congrArg (Option.map Prod.snd) (find?_reverse (h.imp fun hne ha hb => hne ?_))
  exact (of_decide_eq_true ha).trans (of_decide_eq_true hb).symm

theorem valueOf?_cons (v : String × String) (vars : List (String × String)) (setting : String) :
    valueOf? (v :: vars) setting =
      if v.1.toLower = "kms_emulator_" ++ setting then some v.2 else valueOf? vars setting := by
  by_cases h : v.1.toLower = "kms_emulator_" ++ setting
  · simp [valueOf?, h]
  · simp [valueOf?, h]

end Values

end Variable

namespace Configuration

open Variable

variable {vars : List (String × String)} {name : String}

section Lookups

theorem lookup_settings_reverse (h : ∀ v ∈ vars, IsPlain v.1) (name : String) :
    (settings vars.reverse).lookup name = (valueOf? vars name).map .ofText := by
  rw [settings, List.reverse_reverse]
  induction vars with
  | nil => rfl
  | cons v vars ih =>
    obtain ⟨hv, hvars⟩ := List.forall_mem_cons.mp h
    rw [valueOf?_cons]
    cases hs : setting? v.1 with
    | none =>
      rw [List.filterMap_cons_none (by simp only [hs, Option.map_none]), ih hvars,
        if_neg (setting?_eq_none hv hs name)]
    | some given =>
      obtain ⟨setting, whole⟩ := given
      obtain ⟨hn, rfl⟩ := (setting?_eq_some_iff hv).mp hs
      rw [List.filterMap_cons_some (b := (setting, .ofText v.2)) (by simp only [hs, Option.map_some,
        if_true]), Keyed.lookup_cons_eq, ih hvars, hn]
      by_cases he : name = setting
      · rw [if_pos he, if_pos (congrArg _ he.symm), Option.map_some]
      · have hne : "kms_emulator_" ++ setting ≠ "kms_emulator_" ++ name :=
          fun h => he ((String.append_right_inj _).mp h).symm
        rw [if_neg he, if_neg hne]

end Lookups

section Reads

variable {α : Type} {convert : Setting → Option α} {c : Configuration}

theorem given_eq_ok_iff {found : List (String × Setting)} {o : Option α} :
    given found name convert = .ok o ↔ (found.lookup name).map convert = o.map some := by
  unfold given
  cases found.lookup name with
  | none => cases o <;> simp
  | some setting => cases h : convert setting <;> cases o <;> simp [h]

theorem read_eq_ok_iff {found : List (String × Setting)} : read found = .ok c ↔
    (∃ o, given found "listen_addr" Setting.text? = .ok o ∧
      o.getD "127.0.0.1:9010" = c.listenAddress) ∧
    given found "seed_file" Setting.text? = .ok c.seedFile ∧
    (∃ o, given found "store" Setting.text? = .ok o ∧ o.getD "memory" = c.store) ∧
    (∃ o, given found "log_level" Setting.text? = .ok o ∧ o.getD "info" = c.logLevel) ∧
    (∃ o, given found "log_format" Setting.text? = .ok o ∧ o.getD "console" = c.logFormat) ∧
    given found "request_timeout_secs" Setting.natural? = .ok c.requestTimeout := by
  simp only [read, result_bind_eq_ok_iff, pure, Except.pure, Except.ok.injEq]
  constructor
  · rintro ⟨address, ha, file, hf, store, hs, level, hl, format, ho, timeout, ht, rfl⟩
    exact ⟨⟨_, ha, rfl⟩, hf, ⟨_, hs, rfl⟩, ⟨_, hl, rfl⟩, ⟨_, ho, rfl⟩, ht⟩
  · rintro ⟨⟨address, ha, hac⟩, hf, ⟨store, hs, hsc⟩, ⟨level, hl, hlc⟩, ⟨format, ho, hoc⟩, ht⟩
    refine ⟨_, ha, _, hf, _, hs, _, hl, _, ho, _, ht, ?_⟩
    rw [hac, hsc, hlc, hoc]

theorem ofVariables_eq_ok_iff :
    ofVariables vars = .ok c ↔ read (settings vars) = .ok c ∧ c.fault? = none := by
  simp only [ofVariables, result_bind_eq_ok_iff]
  constructor
  · rintro ⟨c', hr, h⟩
    split at h
    · contradiction
    · next hf =>
      cases h
      exact ⟨hr, hf⟩
  · rintro ⟨hr, hf⟩
    exact ⟨c, hr, by rw [hf]⟩

/-- The texts of a configuration are the values of the variables for them, and where there is no
variable, the defaults. -/
structure Verbatim (vars : List (String × String)) (c : Configuration) : Prop where
  listenAddress : c.listenAddress = (valueOf? vars "listen_addr").getD "127.0.0.1:9010"
  seedFile : c.seedFile = valueOf? vars "seed_file"
  store : c.store = (valueOf? vars "store").getD "memory"
  logLevel : c.logLevel = (valueOf? vars "log_level").getD "info"
  logFormat : c.logFormat = (valueOf? vars "log_format").getD "console"

section Plain

variable (hplain : ∀ v ∈ vars, IsPlain v.1)
  (hdistinct : vars.Pairwise fun a b => a.1.toLower ≠ b.1.toLower)

include hplain hdistinct

theorem lookup_settings (name : String) :
    (settings vars).lookup name = (valueOf? vars name).map .ofText := by
  have hreverse : ∀ v ∈ vars.reverse, IsPlain v.1 := fun v hv => hplain v (List.mem_reverse.mp hv)
  have h := lookup_settings_reverse hreverse name
  rwa [List.reverse_reverse, valueOf?_reverse hdistinct] at h

theorem given_text_eq_ok_iff {o : Option String} (ho : ∀ t, o = some t → ¬ IsLiteral t.toList) :
    given (settings vars) name Setting.text? = .ok o ↔ valueOf? vars name = o := by
  rw [given_eq_ok_iff, lookup_settings hplain hdistinct, Option.map_map]
  cases valueOf? vars name with
  | none => cases o <;> simp
  | some value =>
    cases o with
    | none => simp
    | some t => simp [Setting.text?_ofText_eq_some_iff (ho t rfl)]

theorem exists_given_text_iff {default text : String} (h : ¬ IsLiteral text.toList) :
    (∃ o, given (settings vars) name Setting.text? = .ok o ∧ o.getD default = text) ↔
      (valueOf? vars name).getD default = text := by
  have hsome {o : Option String} (he : o.getD default = text) (t : String) (ht : o = some t) :
      ¬ IsLiteral t.toList := by
    subst ht he
    exact h
  constructor
  · rintro ⟨o, ho, he⟩
    rwa [(given_text_eq_ok_iff hplain hdistinct (hsome he)).mp ho]
  · intro he
    exact ⟨_, (given_text_eq_ok_iff hplain hdistinct (hsome he)).mpr rfl, he⟩

/-- What is read if no text among the settings is mistaken for anything else. -/
theorem read_settings_eq_ok_iff (h : c.Telling) :
    read (settings vars) = .ok c ↔ Verbatim vars c ∧
      (valueOf? vars "request_timeout_secs").map (fun value => (Setting.ofText value).natural?) =
        c.requestTimeout.map some := by
  have htimeout : given (settings vars) "request_timeout_secs" Setting.natural? =
      .ok c.requestTimeout ↔ _ := given_eq_ok_iff
  rw [lookup_settings hplain hdistinct, Option.map_map] at htimeout
  rw [read_eq_ok_iff, exists_given_text_iff hplain hdistinct h.listenAddress,
    given_text_eq_ok_iff hplain hdistinct h.seedFile,
    exists_given_text_iff hplain hdistinct h.store,
    exists_given_text_iff hplain hdistinct h.logLevel,
    exists_given_text_iff hplain hdistinct h.logFormat, htimeout]
  constructor
  · rintro ⟨ha, hf, hs, hl, ho, ht⟩
    exact ⟨⟨ha.symm, hf.symm, hs.symm, hl.symm, ho.symm⟩, ht⟩
  · rintro ⟨⟨ha, hf, hs, hl, ho⟩, ht⟩
    exact ⟨ha.symm, hf.symm, hs.symm, hl.symm, ho.symm, ht⟩

end Plain

end Reads

/-- The configuration that plain variables give is accepted exactly if its texts are as they are
given and can all be used, and if its timeout is a number that is not zero. -/
theorem ofVariables_verbatim (hplain : ∀ v ∈ vars, IsPlain v.1)
    (hdistinct : vars.Pairwise fun a b => a.1.toLower ≠ b.1.toLower) (c : Configuration) :
    (ofVariables vars = .ok c ↔ Verbatim vars c ∧ c.fault? = none ∧
      (valueOf? vars "request_timeout_secs").map (fun value => (Setting.ofText value).natural?) =
        c.requestTimeout.map some) ∧
    (ofVariables vars = .ok c →
      (c.requestTimeout = none ↔ valueOf? vars "request_timeout_secs" = none) ∧
      ∀ seconds, c.requestTimeout = some seconds → 1 ≤ seconds) := by
  have hiff : ofVariables vars = .ok c ↔ Verbatim vars c ∧ c.fault? = none ∧
      (valueOf? vars "request_timeout_secs").map (fun value => (Setting.ofText value).natural?) =
        c.requestTimeout.map some := by
    rw [ofVariables_eq_ok_iff, and_comm, and_left_comm]
    exact and_congr_right fun hf =>
      read_settings_eq_ok_iff hplain hdistinct (telling_of_fault?_eq_none hf)
  refine ⟨hiff, fun h => ?_⟩
  obtain ⟨-, hf, ht⟩ := hiff.mp h
  constructor
  · rw [← Option.map_eq_none_iff (f := some), ← ht, Option.map_eq_none_iff]
  · intro seconds hs
    have hzero : seconds.toNat ≠ 0 := fun h0 =>
      (fault?_eq_none_iff.mp hf).2.2.2.2.2 (hs.trans (congrArg some (UInt64.toNat_inj.mp h0)))
    exact UInt64.le_iff_toNat_le.mpr (Nat.one_le_iff_ne_zero.mpr hzero)

end Configuration

end KeyManagement

namespace KeyManagement.Sample

/-- Values that look like numbers at first, under names in any case. -/
def numberLike : List (String × String) :=
  [("PATH", "1.50"), ("kms_emulator_Seed_File", "1.50e1.YML"), ("KMS_EMULATOR_LOG_FORMAT", "Json"),
    ("KMS_EMULATOR_LISTEN_ADDR", "[::1]:0080"), ("KMS_EMULATOR_REQUEST_TIMEOUT_SECS", "+1.5e1")]

def fromVariables : Configuration where
  listenAddress := "[::1]:0080"
  seedFile := some "1.50e1.YML"
  logFormat := "Json"
  requestTimeout := some 15

theorem sample_verbatim : (∀ v ∈ numberLike, Variable.IsPlain v.1) ∧
    (numberLike.Pairwise fun a b => a.1.toLower ≠ b.1.toLower) ∧
    Configuration.ofVariables numberLike = .ok fromVariables ∧
    Configuration.Verbatim numberLike fromVariables := by
  have hplain : ∀ v ∈ numberLike, Variable.IsPlain v.1 := by decide +kernel
  have hdistinct : numberLike.Pairwise fun a b => a.1.toLower ≠ b.1.toLower := by decide +kernel
  have hread : Configuration.ofVariables numberLike = .ok fromVariables := by decide +kernel
  exact ⟨hplain, hdistinct, hread,
    ((Configuration.ofVariables_verbatim hplain hdistinct fromVariables).1.mp hread).1⟩

end KeyManagement.Sample
