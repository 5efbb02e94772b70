import KeyManagement.Proofs.Store.Growth
import KeyManagement.Proofs.Store.WellFormed
import KeyManagement.Proofs.Tracking

/-! # Stores without times and material

A redaction replaces the times at which resources were created, and the key material. Reads and
writes do not look at either, so that they come to the same on a redacted store.
-/

namespace KeyManagement

/-- What is put in the place of a time and of material. -/
structure Redaction where
  time : Timestamp → Timestamp
  material : KeyMaterial → KeyMaterial

variable (ρ : Redaction)

def KeyRing.redact (ring : KeyRing) : KeyRing := { ring with createTime := ρ.time ring.createTime }

def CryptoKeyVersion.redact (v : CryptoKeyVersion) : CryptoKeyVersion :=
  { v with createTime := ρ.time v.createTime }

def CryptoKey.redact (key : CryptoKey) : CryptoKey :=
  { key with
    createTime := ρ.time key.createTime
    primary := key.primary.map (·.redact ρ) }

def VersionRecord.redact (r : VersionRecord) : VersionRecord :=
  ⟨r.version.redact ρ, ρ.material r.material⟩

def KeyRecord.redact (r : KeyRecord) : KeyRecord :=
  ⟨r.key.redact ρ, r.versions.map (·.redact ρ)⟩

def RingRecord.redact (r : RingRecord) : RingRecord :=
  ⟨r.ring.redact ρ, r.keys.map (·.redact ρ)⟩

def Store.redact (s : Store) : Store := ⟨s.rings.map (·.redact ρ)⟩

theorem KeyRecord.names_redact (r : KeyRecord) :
    (r.redact ρ).versions.values.map (·.version.name) =
      r.versions.values.map (·.version.name) := by
  rw [KeyRecord.redact, Keyed.values_map, List.map_map]
  rfl

theorem KeyRecord.length_redact (r : KeyRecord) :
    (r.redact ρ).versions.values.length = r.versions.values.length := by
  rw [KeyRecord.redact, Keyed.values_map, List.length_map]

variable {ρ} in
theorem KeyRecord.Grows.redact {r r' : KeyRecord} (h : r.Grows r') :
    (r.redact ρ).Grows (r'.redact ρ) where
  key := by
    have hk := h.key
    simp only [KeyRecord.redact, CryptoKey.redact]
    rw [hk]
  versions v rec hv := by
    obtain ⟨rec, hf, rfl⟩ := Option.map_eq_some_iff.mp ((Keyed.find?_map _).symm.trans hv)
    exact (Keyed.find?_map _).trans (congrArg _ (h.versions v rec hf))

section WellFormed

variable {ρ}

theorem KeyRecord.WellFormed.redact {r : KeyRecord} {name : String} (h : r.WellFormed name) :
    (r.redact ρ).WellFormed name where
  named := h.named
  filed v rec hv := by
    obtain ⟨rec, hf, rfl⟩ := Option.map_eq_some_iff.mp ((Keyed.find?_map _).symm.trans hv)
    exact h.filed v rec hf
  numbered := by
    rw [names_redact]
    exact h.numbered
  primary := by
    obtain ⟨v, rec, hp, hf, rfl⟩ := h.primary
    exact ⟨_, _, congrArg (Option.map _) hp, (Keyed.find?_map _).trans (congrArg _ hf), rfl⟩

theorem Store.WellFormed.redact {s : Store} (h : s.WellFormed) : (s.redact ρ).WellFormed := by
  intro name r hr
  obtain ⟨r, hf, rfl⟩ := Option.map_eq_some_iff.mp ((Keyed.find?_map _).symm.trans hr)
  refine ⟨(h name r hf).named, (h name r hf).parsed, fun key rec hk => ?_⟩
  obtain ⟨rec, hf', rfl⟩ := Option.map_eq_some_iff.mp ((Keyed.find?_map _).symm.trans hk)
  exact ((h name r hf).keys key rec hf').imp_right KeyRecord.WellFormed.redact

end WellFormed

namespace Store

variable {s s' : Store} {name : String}

section Reads

theorem findKey?_redact : (s.redact ρ).findKey? name = (s.findKey? name).map (·.redact ρ) := by
  cases hn : CryptoKeyName.parse name with
  | error e => rw [findKey?_eq_none hn, findKey?_eq_none hn, Option.map_none]
  | ok n =>
    rw [findKey?_eq hn, findKey?_eq hn, redact, Keyed.find?_map]
    cases s.rings.find? n.parent.resourceName with
    | none => rfl
    | some ring => exact Keyed.find?_map _

theorem findKey_redact : (s.redact ρ).findKey name = (s.findKey name).map (·.redact ρ) := by
  rw [findKey, findKey?_redact, findKey]
  cases s.findKey? name <;> rfl

theorem findRing_redact : (s.redact ρ).findRing name = (s.findRing name).map (·.redact ρ) := by
  rw [findRing, redact, Keyed.find?_map, findRing]
  cases s.rings.find? name <;> rfl

theorem getKeyRing_redact :
    (s.redact ρ).getKeyRing name = (s.getKeyRing name).map (·.redact ρ) := by
  rw [getKeyRing, findRing_redact, getKeyRing]
  cases s.findRing name <;> rfl

theorem listKeyRings_redact :
    (s.redact ρ).listKeyRings name = (s.listKeyRings name).map (·.redact ρ) := by
  rw [listKeyRings, redact, Keyed.scan_map, listKeyRings, List.map_map, List.map_map]
  rfl

theorem listCryptoKeys_redact :
    (s.redact ρ).listCryptoKeys name = (s.listCryptoKeys name).map (·.map (·.redact ρ)) := by
  rw [listCryptoKeys, findRing_redact, listCryptoKeys]
  cases s.findRing name with
  | error e => rfl
  | ok r =>
    refine congrArg Except.ok ?_
    change (r.keys.map _).values.map _ = (r.keys.values.map _).map _
    rw [Keyed.values_map, List.map_map, List.map_map]
    rfl

theorem findVersion?_redact :
    (s.redact ρ).findVersion? name = (s.findVersion? name).map (·.redact ρ) := by
  cases hn : CryptoKeyVersionName.parse name with
  | error e => rw [findVersion?_eq_none hn, findVersion?_eq_none hn, Option.map_none]
  | ok n =>
    rw [findVersion?_eq hn, findVersion?_eq hn, findKey?_redact]
    cases s.findKey? n.parent.resourceName with
    | none => rfl
    | some r => exact Keyed.find?_map _

theorem getVersion_redact : (s.redact ρ).getVersion name =
    (s.getVersion name).map fun (v, m) => (v.redact ρ, ρ.material m) := by
  rw [getVersion_eq, getVersion_eq, findVersion?_redact]
  cases s.findVersion? name <;> rfl

theorem getCryptoKey_redact :
    (s.redact ρ).getCryptoKey name = (s.getCryptoKey name).map (·.redact ρ) := by
  rw [getCryptoKey, findKey_redact, getCryptoKey]
  cases s.findKey name <;> rfl

theorem listVersions_redact :
    (s.redact ρ).listVersions name = (s.listVersions name).map (·.map (·.redact ρ)) := by
  rw [listVersions, findKey_redact, listVersions]
  cases s.findKey name with
  | error e => rfl
  | ok r =>
    refine congrArg Except.ok ?_
    change (r.versions.map _).values.map _ = (r.versions.values.map _).map _
    rw [Keyed.values_map, List.map_map, List.map_map]
    rfl

variable {ρ} in
theorem Grows.redact (h : s.Grows s') : (s.redact ρ).Grows (s'.redact ρ) where
  rings k r hr := by
    obtain ⟨r, hf, rfl⟩ := Option.map_eq_some_iff.mp ((Keyed.find?_map _).symm.trans hr)
    obtain ⟨r', hf', he⟩ := h.rings k r hf
    exact ⟨r'.redact ρ, (Keyed.find?_map _).trans (congrArg _ hf'),
      congrArg (KeyRing.redact ρ) he⟩
  keys k r hr := by
    rw [findKey?_redact] at hr
    obtain ⟨r, hf, rfl⟩ := Option.map_eq_some_iff.mp hr
    obtain ⟨r', hf', hg⟩ := h.keys k r hf
    exact ⟨r'.redact ρ, by rw [findKey?_redact, hf', Option.map_some], hg.redact⟩

end Reads

section Writes

theorem replaceKey_redact (r : KeyRecord) :
    (s.redact ρ).replaceKey name (r.redact ρ) = (s.replaceKey name r).redact ρ := by
  unfold replaceKey
  cases CryptoKeyName.parse name with
  | error e => rfl
  | ok n =>
    simp only [redact, Keyed.modify, Keyed.find?_map]
    cases s.rings.find? n.parent.resourceName with
    | none => rfl
    | some ring => simp only [Option.map_some, Keyed.map_insert, RingRecord.redact]

/-- A store and its redaction. -/
def Redacted (s s' : Store) : Prop := s' = s.redact ρ

section Steps

variable {α β : Type} {I : Stop StoreError → Prop} {Rs : Store → Store → Prop}

theorem tracks_look {f : Store → Except StoreError α} {f' : Store → Except StoreError β}
    {g : α → β} (h : ∀ s s', Rs s s' → f' s' = (f s).map g) :
    Tracks Rs I (fun a b => b = g a ∧ ∃ s s', Rs s s' ∧ f s = .ok a) (look f) (look f') := by
  intro s s' hs
  have hm := Tracks.ofResultAs_eq (R := Rs) (I := I) (h s s' hs) .failed s s' hs
  exact hm.mono fun a b ⟨ha, hb⟩ => ⟨hb, s, s', hs, ha⟩

theorem tracks_look_redacted {f : Store → Except StoreError α} {f' : Store → Except StoreError β}
    {g : α → β} (h : ∀ s : Store, f' (s.redact ρ) = (f s).map g) :
    Tracks (Redacted ρ) I (fun a b => b = g a) (look f) (look f') := by
  refine (tracks_look ?_).mono fun _ _ => And.left
  rintro s _ rfl
  exact h s

theorem tracks_vacant (resource : ResourceKind) {filed : Keyed α} {filed' : Keyed β}
    (h : filed'.contains name = filed.contains name) :
    Tracks Rs I (fun _ _ => True) (vacant resource filed name) (vacant resource filed' name) := by
  unfold vacant
  rw [h]
  split
  · exact .throw _
  · exact .pure trivial

theorem tracks_nextNumber (build : Build) (r : KeyRecord) :
    Tracks Rs I Eq (nextNumber build r) (nextNumber build (r.redact ρ)) := by
  unfold nextNumber
  rw [KeyRecord.names_redact]
  split
  · exact .pure rfl
  · exact .throw _

theorem tracks_modify {f f' : Store → Store} (h : ∀ s, f' (s.redact ρ) = (f s).redact ρ) :
    Tracks (Redacted ρ) I (fun _ _ => True) (modify f) (modify f') := by
  rintro s _ rfl
  exact .ok (h s) trivial

end Steps

variable {I : Stop StoreError → Prop}

theorem tracks_createKeyRing (ring : KeyRing) : Tracks (Redacted ρ) I (fun _ _ => True)
    (createKeyRing ring) (createKeyRing (ring.redact ρ)) := by
  refine Tracks.get.bind ?_
  rintro s _ rfl
  refine (tracks_vacant _ (Keyed.contains_map _)).bind fun _ _ _ => ?_
  refine tracks_modify ρ fun s => ?_
  simp only [redact, Keyed.map_insert, RingRecord.redact, Keyed.map_empty]
  rfl

theorem tracks_createCryptoKey (ring : String) (key : CryptoKey) (primary : CryptoKeyVersion)
    (material : KeyMaterial) : Tracks (Redacted ρ) I (fun _ _ => True)
    (createCryptoKey ring key primary material)
    (createCryptoKey ring (key.redact ρ) (primary.redact ρ) (ρ.material material)) := by
  refine (tracks_look_redacted ρ fun s => findRing_redact ρ).bind ?_
  rintro record _ rfl
  refine (tracks_vacant _ (Keyed.contains_map _)).bind fun _ _ _ => ?_
  refine tracks_modify ρ fun s => ?_
  simp only [redact, Keyed.map_insert, RingRecord.redact, KeyRecord.redact, Keyed.map_empty]
  rfl

theorem tracks_createNextVersion (build : Build) (key : String) (template : VersionTemplate)
    (material : KeyMaterial) (now : Timestamp) :
    Tracks (Redacted ρ) I (fun v v' => v' = v.redact ρ)
      (createNextVersion build key template material now)
      (createNextVersion build key template (ρ.material material) (ρ.time now)) := by
  refine (tracks_look_redacted ρ fun s => findKey_redact ρ).bind ?_
  rintro record _ rfl
  refine (tracks_nextNumber ρ build record).bind ?_
  rintro number _ rfl
  refine (tracks_vacant _ (Keyed.contains_map _)).bind fun _ _ _ => ?_
  refine (tracks_modify ρ fun s => ?_).bind fun _ _ _ => .pure rfl
  rw [← replaceKey_redact]
  simp only [KeyRecord.redact, Keyed.map_insert]
  rfl

theorem tracks_setPrimary (key version : String) :
    Tracks (Redacted ρ) I (fun k k' => k' = k.redact ρ) (setPrimary key version)
      (setPrimary key version) := by
  refine (tracks_look_redacted ρ fun s => findKey_redact ρ).bind ?_
  rintro record _ rfl
  have hv : (record.redact ρ).versions.find? version =
      (record.versions.find? version).map (·.redact ρ) := Keyed.find?_map _
  rw [hv]
  cases record.versions.find? version with
  | none => exact .throw _
  | some found =>
    refine (tracks_modify ρ fun s => ?_).bind fun _ _ _ => .pure rfl
    rw [← replaceKey_redact]
    rfl

end Writes

end Store

end KeyManagement
