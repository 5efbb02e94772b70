import KeyManagement.Proofs.Store.Command

/-! # Which versions become primary

A version is accepted as the primary of a crypto key if and only if a command filed it there
before. The store compares neither name with the other, so that a foreign version which was filed
by its name can become primary, while no other foreign version ever does.
-/

namespace KeyManagement.Store

variable {s s' : Store} {key version : String}

/-- The version can be made the primary of the crypto key. -/
def Accepts (s : Store) (key version : String) : Prop :=
  ∃ updated s', setPrimary key version s = .ok updated s'

instance (s : Store) (key version : String) : Decidable (Accepts s key version) :=
  match h : setPrimary key version s with
  | .error .. => .isFalse fun ⟨_, _, h'⟩ => nomatch h.symm.trans h'
  | .ok updated s' => .isTrue ⟨updated, s', h⟩

theorem accepts_iff : s.Accepts key version ↔
    ∃ r found, s.findKey? key = some r ∧ r.versions.find? version = some found := by
  constructor
  · rintro ⟨updated, s', h⟩
    obtain ⟨r, found, hr, hv, -, -⟩ := setPrimary_eq_ok_iff.mp h
    exact ⟨r, found, hr, hv⟩
  · rintro ⟨r, found, hr, hv⟩
    exact ⟨_, _, setPrimary_eq_ok_iff.mpr ⟨r, found, hr, hv, rfl, rfl⟩⟩

theorem not_accepts_empty : ¬ empty.Accepts key version := by
  rw [accepts_iff]
  rintro ⟨r, found, hr, -⟩
  simp at hr

theorem Grows.accepts (hg : s.Grows s') (h : s.Accepts key version) : s'.Accepts key version := by
  obtain ⟨r, found, hr, hv⟩ := accepts_iff.mp h
  obtain ⟨r', hr', hg⟩ := hg.keys key r hr
  exact accepts_iff.mpr ⟨r', found, hr', hg.versions version found hv⟩

theorem accepts_of_createVersion {new : CryptoKeyVersion} {material : KeyMaterial}
    (h : createVersion key new material s = .ok () s') : s'.Accepts key new.name := by
  obtain ⟨r, hr, -, rfl⟩ := createVersion_eq_ok_iff.mp h
  rw [accepts_iff, findKey?_replaceKey hr, if_pos rfl]
  exact ⟨_, _, rfl, by rw [Keyed.find?_insert, if_pos rfl]⟩

namespace Command

variable {c : Command}

theorem Files.accepts (h : c.Files s key version) : (c.apply s).Accepts key version := by
  cases h with
  | first h hc =>
    rw [apply_of_perform (c := .createCryptoKey ..) h, accepts_iff, findKey?_filed h,
      if_pos ⟨rfl, hc⟩]
    exact ⟨_, _, rfl, by rw [newKeyRecord, Keyed.find?_insert, if_pos rfl]⟩
  | explicit h =>
    rw [apply_of_perform (c := .createVersion ..) h]
    exact accepts_of_createVersion h
  | next h =>
    obtain ⟨-, -, -, -, -, hc⟩ := createNextVersion_eq_ok_iff.mp h
    rw [apply_of_perform (perform_createNextVersion_iff.mpr ⟨_, h⟩)]
    exact accepts_of_createVersion hc

theorem accepts_or_files (h : c.perform s = .ok () s') (ha : s'.Accepts key version) :
    s.Accepts key version ∨ c.Files s key version := by
  obtain ⟨r', found, hr', hv⟩ := accepts_iff.mp ha
  obtain ⟨ring, hc⟩ := exists_contains hr'
  have ht := turns_perform h ring key
  rw [findKey?_eq_findKeyIn? hc] at hr'
  rw [accepts_iff, findKey?_eq_findKeyIn? hc]
  rw [hr'] at ht
  generalize s.findKeyIn? ring key = o at ht
  cases ht with
  | keeps => exact .inl ⟨r', found, rfl, hv⟩
  | creates he hn =>
    subst he hn
    obtain ⟨rfl, rfl⟩ := eq_of_find?_newKeyRecord hv
    exact .inr (.first h hc)
  | @adds r new material _ hf =>
    rcases Keyed.find?_insert_cases hv with ⟨rfl, rfl⟩ | hv
    · exact .inr hf
    · exact .inl ⟨r, found, rfl, hv⟩
  | designates r => exact .inl ⟨r, found, rfl, hv⟩

theorem accepts_apply_iff :
    (c.apply s).Accepts key version ↔ s.Accepts key version ∨ c.Files s key version := by
  constructor
  · intro h
    rcases apply_cases s c with he | hp
    · exact .inl (he ▸ h)
    · exact accepts_or_files hp h
  · rintro (h | h)
    · exact (grows_apply s c).accepts h
    · exact h.accepts

end Command

theorem exists_split_append_singleton_iff {α : Type} {P : List α → α → Prop} {l : List α} {a : α} :
    (∃ before b later, l ++ [a] = before ++ b :: later ∧ P before b) ↔
      (∃ before b later, l = before ++ b :: later ∧ P before b) ∨ P l a := by
  constructor
  · rintro ⟨before, b, later, he, hP⟩
    cases later using List.reverseRecOn with
    | nil =>
      obtain ⟨rfl, hb⟩ := List.append_inj' he rfl
      cases hb
      exact .inr hP
    | append_singleton later c =>
      rw [← List.cons_append, ← List.append_assoc] at he
      exact .inl ⟨before, b, later, (List.append_inj' he rfl).1, hP⟩
  · rintro (⟨before, b, later, rfl, hP⟩ | hP)
    · exact ⟨before, b, later ++ [a], by simp, hP⟩
    · exact ⟨l, a, [], rfl, hP⟩

/-- A version can be made primary if and only if one of the commands filed it. -/
theorem accepts_after_iff {commands : List Command} : (after commands).Accepts key version ↔
    ∃ before c later, commands = before ++ c :: later ∧ c.Files (after before) key version := by
  induction commands using List.reverseRecOn with
  | nil => simp [not_accepts_empty]
  | append_singleton commands c ih =>
    rw [after_append_singleton, Command.accepts_apply_iff, ih]
    exact (exists_split_append_singleton_iff (P := fun before (c : Command) =>
      c.Files (after before) key version)).symm

/-- A foreign version can be made primary if and only if a command that was given its name filed
it under the crypto key. -/
theorem foreign_primary_iff (commands : List Command) (key version : String) :
    (after commands).Accepts key version ∧ ¬ Owns key version ↔
      ∃ before c later, commands = before ++ c :: later ∧ c.Files (after before) key version ∧
        c.Names key version ∧ ¬ Owns key version := by
  rw [accepts_after_iff]
  constructor
  · rintro ⟨⟨before, c, later, rfl, hf⟩, ho⟩
    exact ⟨before, c, later, rfl, hf, hf.names_or_owns.resolve_right ho, ho⟩
  · rintro ⟨before, c, later, rfl, hf, -, ho⟩
    exact ⟨⟨before, c, later, rfl, hf⟩, ho⟩

end KeyManagement.Store

namespace KeyManagement.Sample

open Store

/-- A version of another crypto key is filed under the first one. -/
def strangers : List Command :=
  [createRing "r", createKey (ringName "r") (keyName "r" "k"),
    createVersion (keyName "r" "k") (versionNameOf (keyName "r" "k2") "7")]

theorem stranger_accepted :
    (after strangers).Accepts (keyName "r" "k") (versionNameOf (keyName "r" "k2") "7") ∧
      ¬ Owns (keyName "r" "k") (versionNameOf (keyName "r" "k2") "7") := by
  decide +kernel

end KeyManagement.Sample
