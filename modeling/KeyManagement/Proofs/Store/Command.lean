import KeyManagement.Proofs.Store.AllOrNothing
import KeyManagement.Proofs.Store.Filing
import KeyManagement.Proofs.Store.Growth
import Mathlib.Data.List.Induction

/-! # Commands to a store

A store comes about from the empty one by commands, which may be given any names, records and
material whatever. A refused command leaves the store as it was, and so does every read.
-/

namespace KeyManagement.Store

variable {s s' : Store}

inductive Command
  | createKeyRing (ring : KeyRing)
  | createCryptoKey (ring : String) (key : CryptoKey) (primary : CryptoKeyVersion)
      (material : KeyMaterial)
  | createVersion (key : String) (version : CryptoKeyVersion) (material : KeyMaterial)
  | createNextVersion (build : Build) (key : String) (template : VersionTemplate)
      (material : KeyMaterial) (now : Timestamp)
  | setPrimary (key version : String)

namespace Command

/-- Carries out the command. -/
def perform : Command → Access Store Unit
  | .createKeyRing ring => Store.createKeyRing ring
  | .createCryptoKey ring key primary material => Store.createCryptoKey ring key primary material
  | .createVersion key version material => Store.createVersion key version material
  | .createNextVersion build key template material now =>
    discard <| Store.createNextVersion build key template material now
  | .setPrimary key version => discard <| Store.setPrimary key version

/-- The store that the command leaves, whether it is accepted or not. -/
def apply (s : Store) (c : Command) : Store := finalState (c.perform s)

/-- The command is given the name of a version to file under a crypto key. -/
inductive Names : Command → String → String → Prop
  | first (ring : String) (key : CryptoKey) (primary : CryptoKeyVersion) (material : KeyMaterial) :
      Names (.createCryptoKey ring key primary material) key.name primary.name
  | explicit (key : String) (version : CryptoKeyVersion) (material : KeyMaterial) :
      Names (.createVersion key version material) key version.name

/-- The command is accepted, and files a version in the record that is found for a crypto key. -/
inductive Files (s : Store) : Command → String → String → Prop
  | first {s' : Store} {ring : String} {key : CryptoKey} {primary : CryptoKeyVersion}
      {material : KeyMaterial} : Store.createCryptoKey ring key primary material s = .ok () s' →
      Contains ring key.name →
      Files s (.createCryptoKey ring key primary material) key.name primary.name
  | explicit {s' : Store} {key : String} {version : CryptoKeyVersion} {material : KeyMaterial} :
      Store.createVersion key version material s = .ok () s' →
      Files s (.createVersion key version material) key version.name
  | next {s' : Store} {build : Build} {key : String} {template : VersionTemplate}
      {material : KeyMaterial} {now : Timestamp} {version : CryptoKeyVersion} :
      Store.createNextVersion build key template material now s = .ok version s' →
      Files s (.createNextVersion build key template material now) key version.name

/-- What a command makes of the record that is filed under a name below a key ring. -/
inductive Turns (s : Store) (c : Command) (ring name : String) :
    Option KeyRecord → Option KeyRecord → Prop
  | keeps (o : Option KeyRecord) : Turns s c ring name o o
  | creates {key : CryptoKey} {primary : CryptoKeyVersion} {material : KeyMaterial} :
      c = .createCryptoKey ring key primary material → key.name = name →
      Turns s c ring name none (some (newKeyRecord key primary material))
  | adds {r : KeyRecord} {version : CryptoKeyVersion} {material : KeyMaterial} :
      r.versions.find? version.name = none → c.Files s name version.name →
      Turns s c ring name (some r)
        (some { r with versions := r.versions.insert version.name ⟨version, material⟩ })
  | designates (r : KeyRecord) (found : VersionRecord) :
      Turns s c ring name (some r)
        (some { r with key := { r.key with primary := some found.version } })

theorem Files.names_or_owns {c : Command} {key version : String} (h : c.Files s key version) :
    c.Names key version ∨ Owns key version := by
  cases h with
  | first h hc => exact .inl (.first ..)
  | explicit h => exact .inl (.explicit ..)
  | next h => exact .inr (parse_createNextVersion h)

section Perform

variable {c : Command}

theorem perform_createNextVersion_iff {build : Build} {key : String} {template : VersionTemplate}
    {material : KeyMaterial} {now : Timestamp} :
    (createNextVersion build key template material now).perform s = .ok () s' ↔
      ∃ version, Store.createNextVersion build key template material now s = .ok version s' :=
  discard_eq_ok_iff

theorem perform_setPrimary_iff {key version : String} :
    (setPrimary key version).perform s = .ok () s' ↔
      ∃ updated, Store.setPrimary key version s = .ok updated s' :=
  discard_eq_ok_iff

theorem turns_replaceKey {name : String} {r r' : KeyRecord} (h : s.findKey? name = some r)
    (ht : ∀ ring, Turns s c ring name (some r) (some r')) (ring name' : String) :
    Turns s c ring name' (s.findKeyIn? ring name')
      ((s.replaceKey name r').findKeyIn? ring name') := by
  rw [findKeyIn?_replaceKey h]
  split
  · next hn =>
    obtain ⟨hc, rfl⟩ := hn
    rw [← findKey?_eq_findKeyIn? hc, h]
    exact ht ring
  · exact .keeps _

theorem turns_createVersion {key : String} {version : CryptoKeyVersion} {material : KeyMaterial}
    (h : Store.createVersion key version material s = .ok () s')
    (hn : c.Files s key version.name) (ring name : String) :
    Turns s c ring name (s.findKeyIn? ring name) (s'.findKeyIn? ring name) := by
  obtain ⟨r, hf, hv, rfl⟩ := createVersion_eq_ok_iff.mp h
  exact turns_replaceKey hf (fun _ => .adds hv hn) ring name

theorem turns_perform (h : c.perform s = .ok () s') (ring name : String) :
    Turns s c ring name (s.findKeyIn? ring name) (s'.findKeyIn? ring name) := by
  cases c with
  | createKeyRing new =>
    rw [findKeyIn?_createKeyRing h]
    exact .keeps _
  | createCryptoKey ring' key primary material =>
    rw [findKeyIn?_createCryptoKey h]
    split
    · next hn =>
      obtain ⟨rfl, rfl⟩ := hn
      obtain ⟨record, hf, hk, -⟩ := createCryptoKey_eq_ok_iff.mp h
      rw [findKeyIn?, hf, Option.bind_some, hk]
      exact .creates rfl rfl
    · exact .keeps _
  | createVersion key version material =>
    exact turns_createVersion h (.explicit h) ring name
  | createNextVersion build key template material now =>
    obtain ⟨version, h⟩ := perform_createNextVersion_iff.mp h
    obtain ⟨-, -, -, -, -, hc⟩ := createNextVersion_eq_ok_iff.mp h
    exact turns_createVersion hc (.next h) ring name
  | setPrimary key version =>
    obtain ⟨updated, h⟩ := perform_setPrimary_iff.mp h
    obtain ⟨r, found, hf, -, rfl, rfl⟩ := setPrimary_eq_ok_iff.mp h
    exact turns_replaceKey hf (fun _ => .designates r found) ring name

theorem grows_perform (h : c.perform s = .ok () s') : s.Grows s' := by
  cases c with
  | createKeyRing ring => exact grows_createKeyRing h
  | createCryptoKey ring key primary material => exact grows_createCryptoKey h
  | createVersion key version material => exact grows_createVersion h
  | createNextVersion build key template material now =>
    obtain ⟨version, h⟩ := perform_createNextVersion_iff.mp h
    exact grows_createNextVersion h
  | setPrimary key version =>
    obtain ⟨updated, h⟩ := perform_setPrimary_iff.mp h
    exact grows_setPrimary h

theorem allOrNothing_perform (c : Command) : AllOrNothing id c.perform := by
  cases c with
  | createKeyRing ring => exact allOrNothing_createKeyRing ring
  | createCryptoKey ring key primary material =>
    exact allOrNothing_createCryptoKey ring key primary material
  | createVersion key version material => exact allOrNothing_createVersion key version material
  | createNextVersion build key template material now =>
    exact (allOrNothing_createNextVersion build key template material now).discard
  | setPrimary key version => exact (allOrNothing_setPrimary key version).discard

theorem apply_of_perform (h : c.perform s = .ok () s') : c.apply s = s' := by
  rw [apply, h, finalState]

theorem apply_cases (s : Store) (c : Command) :
    c.apply s = s ∨ c.perform s = .ok () (c.apply s) := by
  cases h : c.perform s with
  | error e s' =>
    rw [apply, h]
    exact .inl (allOrNothing_perform c s e s' h)
  | ok u s' => exact .inr (by rw [apply_of_perform h])

theorem grows_apply (s : Store) (c : Command) : s.Grows (c.apply s) := by
  rcases apply_cases s c with he | h
  · rw [he]
    exact .refl s
  · exact grows_perform h

end Perform

end Command

/-- The store after some commands. -/
def after (commands : List Command) : Store := commands.foldl Command.apply empty

@[simp] theorem after_nil : after [] = empty := rfl

theorem after_append_singleton (commands : List Command) (c : Command) :
    after (commands ++ [c]) = c.apply (after commands) := by
  simp [after, List.foldl_append]

/-- What every accepted command preserves holds after any commands. -/
theorem after_induction {P : Store → Prop} {Q : Command → Prop} (hempty : P empty)
    (hstep : ∀ s s' c, Q c → P s → c.perform s = .ok () s' → P s') {commands : List Command}
    (hQ : ∀ c ∈ commands, Q c) : P (after commands) := by
  induction commands using List.reverseRecOn with
  | nil => exact hempty
  | append_singleton commands c ih =>
    have hP : P (after commands) := ih fun d hd => hQ d (List.mem_append_left _ hd)
    rw [after_append_singleton]
    rcases c.apply_cases (after commands) with he | h
    · rwa [he]
    · exact hstep _ _ c (hQ c (by simp)) hP h

/-- Every record has a property that new records are given and that no command takes away. -/
theorem every_record_after {P : String → String → KeyRecord → Prop} {Q : Command → Prop}
    (hstep : ∀ s c ring name o r, Q c → c.Turns s ring name o (some r) →
      (∀ old, o = some old → P ring name old) → P ring name r)
    {commands : List Command} (hQ : ∀ c ∈ commands, Q c) :
    ∀ ring name r, (after commands).findKeyIn? ring name = some r → P ring name r := by
  refine after_induction (P := fun s => ∀ ring name r, s.findKeyIn? ring name = some r →
    P ring name r) (fun ring name r h => ?_) (fun s s' c hc ih h ring name r hr => ?_) hQ
  · simp at h
  · exact hstep s c ring name _ r hc (hr ▸ Command.turns_perform h ring name) (ih ring name)

/-- Whatever their parents, crypto keys and versions are filed under the names that they carry. -/
theorem filed_after (commands : List Command) :
    ∀ ring name r, (after commands).findKeyIn? ring name = some r →
      r.key.name = name ∧ ∀ v rec, r.versions.find? v = some rec → rec.version.name = v := by
  refine every_record_after (Q := fun _ => True) (fun s c ring name o r _ ht ih => ?_)
    fun _ _ => trivial
  cases ht with
  | keeps => exact ih r rfl
  | creates he hn =>
    refine ⟨hn, fun v rec hv => ?_⟩
    obtain ⟨rfl, rfl⟩ := eq_of_find?_newKeyRecord hv
    rfl
  | @adds old version material hnone hf =>
    refine ⟨(ih old rfl).1, fun v rec hv => ?_⟩
    rcases Keyed.find?_insert_cases hv with ⟨rfl, rfl⟩ | hv
    · rfl
    · exact (ih old rfl).2 v rec hv
  | designates old found => exact ih old rfl

/-- What was found once is found after any further commands. -/
theorem after_grows (commands later : List Command) :
    (after commands).Grows (after (commands ++ later)) := by
  induction later using List.reverseRecOn with
  | nil =>
    rw [List.append_nil]
    exact .refl _
  | append_singleton later c ih =>
    rw [← List.append_assoc, after_append_singleton]
    exact ih.trans (Command.grows_apply _ c)

end KeyManagement.Store

/-! Commands to try statements on: they file under names and parents that need not fit. -/

namespace KeyManagement.Sample

open Store

def instant : Timestamp where
  date := ⟨2026, 5, 4, by decide⟩
  time := ⟨3, 2, 1, 5, by decide, by decide, by decide, by decide⟩

def ringName (id : String) : String := "projects/p/locations/l/keyRings/" ++ id

def keyName (ring id : String) : String := ringName ring ++ "/cryptoKeys/" ++ id

def createRing (id : String) : Command := .createKeyRing ⟨ringName id, instant⟩

/-- Creates a crypto key below a key ring that need not be its own. -/
def createKey (ring name : String) : Command :=
  .createCryptoKey ring ⟨name, instant, .empty, .encryptDecrypt, {}, none⟩
    (.enabled (versionNameOf name "1") {} instant) ⟨[1]⟩

def createVersion (key name : String) : Command :=
  .createVersion key (.enabled name {} instant) ⟨[1]⟩

end KeyManagement.Sample
