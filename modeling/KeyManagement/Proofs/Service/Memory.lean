import KeyManagement.Proofs.Service.Transcript

/-! # What a service remembers

Records are written once. Every later read answers with the record that was created, or with
the crypto key that the last designation of its primary answered, and material stays with the
version that it was generated for.
-/

namespace KeyManagement.Service

variable {σ : Type} {env : Environment σ} {ctx : Context} {s : Store} {w v : σ}
  {name : String} {r : Response} {st : State Store σ}

section Reads

theorem perform_getKeyRing_eq_ok_iff (hv : env.check ctx w = .ok () v) :
    perform env ctx (.getKeyRing name) ⟨s, w⟩ = .ok r st ↔ st = ⟨s, v⟩ ∧
      (∃ n, KeyRingName.parse name = .ok n) ∧
      ∃ ring, s.findRing? name = some ring ∧ r = .keyRing ring := by
  simp only [perform, map_eq_ok_iff, getKeyRing_eq_ok_iff, hv, ← Store.getKeyRing_eq_ok_iff]
  constructor
  · rintro ⟨ring, ⟨_, ⟨⟩, hn, hr, rfl⟩, rfl⟩
    exact ⟨rfl, hn, ring, hr, rfl⟩
  · rintro ⟨rfl, hn, ring, hr, rfl⟩
    exact ⟨ring, ⟨v, rfl, hn, hr, rfl⟩, rfl⟩

theorem perform_getCryptoKey_eq_ok_iff (hv : env.check ctx w = .ok () v) :
    perform env ctx (.getCryptoKey name) ⟨s, w⟩ = .ok r st ↔ st = ⟨s, v⟩ ∧
      ∃ key, s.findCryptoKey? name = some key ∧ r = .cryptoKey key := by
  simp only [perform, map_eq_ok_iff, getCryptoKey_eq_ok_iff, hv,
    ← Store.getCryptoKey_eq_ok_iff_findCryptoKey?]
  constructor
  · rintro ⟨key, ⟨_, ⟨⟩, -, hk, rfl⟩, rfl⟩
    exact ⟨rfl, key, hk, rfl⟩
  · rintro ⟨rfl, key, hk, rfl⟩
    obtain ⟨record, hf, -⟩ := Store.getCryptoKey_eq_ok_iff.mp hk
    obtain ⟨n, -, hn, -⟩ := Store.findKey?_eq_some_iff.mp hf
    exact ⟨key, ⟨v, rfl, ⟨n, hn⟩, hk, rfl⟩, rfl⟩

theorem perform_getVersion_eq_ok_iff (hv : env.check ctx w = .ok () v) :
    perform env ctx (.getVersion name) ⟨s, w⟩ = .ok r st ↔ st = ⟨s, v⟩ ∧
      ∃ version m, s.findVersion? name = some ⟨version, m⟩ ∧ r = .version version := by
  simp only [perform, map_eq_ok_iff, getVersion_eq_ok_iff, hv, ← Store.getVersion_eq_ok_iff]
  constructor
  · rintro ⟨version, ⟨_, ⟨⟩, -, ⟨m, hm⟩, rfl⟩, rfl⟩
    exact ⟨rfl, version, m, hm, rfl⟩
  · rintro ⟨rfl, version, m, hm, rfl⟩
    obtain ⟨n, -, hn, -⟩ := Store.findVersion?_eq_some_iff.mp (Store.getVersion_eq_ok_iff.mp hm)
    exact ⟨version, ⟨v, rfl, ⟨n, hn⟩, ⟨m, hm⟩, rfl⟩, rfl⟩

end Reads

/-- What later calls, under a live context, get to know of the exchanges in a log. -/
structure Remembers (env : Environment σ) (log : List (Exchange σ)) (s : Store) : Prop where
  /-- A key ring is found if it was created, and as it was created. -/
  ring : ∀ {ctx w v name r st}, env.check ctx w = .ok () v →
    (perform env ctx (.getKeyRing name) ⟨s, w⟩ = .ok r st ↔ st = ⟨s, v⟩ ∧
      ∃ ring ∈ createdRings log, ring.name = name ∧ r = .keyRing ring)
  /-- A crypto key is found if it was created, and as the last designation of a primary, or
  else its creation, answered. -/
  key : ∀ {ctx w v name r st}, env.check ctx w = .ok () v →
    (perform env ctx (.getCryptoKey name) ⟨s, w⟩ = .ok r st ↔ st = ⟨s, v⟩ ∧
      ∃ created ∈ createdKeys log, created.name = name ∧
        r = .cryptoKey ((designations name log).getLast?.getD created))
  /-- A designation changes no other field. -/
  kept : ∀ created ∈ createdKeys log, ∀ key ∈ designations created.name log,
    key = { created with primary := key.primary }
  /-- A version is found if it was created, and as it was created. -/
  version : ∀ {ctx w v name r st}, env.check ctx w = .ok () v →
    (perform env ctx (.getVersion name) ⟨s, w⟩ = .ok r st ↔ st = ⟨s, v⟩ ∧
      ∃ version ∈ createdVersions log, version.name = name ∧ r = .version version)
  /-- Another request for a key ring that was created is refused. -/
  ringOnce : ∀ {ctx w v w' parent id location}, env.check ctx w = .ok () v →
    env.check ctx v = .ok () w' → LocationName.parse parent = .ok location →
    ∀ ring ∈ createdRings log, (location.ring id).resourceName = ring.name →
      ∃ e, e.code = .alreadyExists ∧
        perform env ctx (.createKeyRing parent id) ⟨s, w⟩ =
          .error (.failed e) ⟨s, w'⟩
  /-- Another request for a crypto key that was created is refused. -/
  keyOnce : ∀ {ctx w v material v' w' parent id n spec}, env.check ctx w = .ok () v →
    env.engine.generate ctx v = .ok material v' → env.check ctx v' = .ok () w' →
    KeyRingName.parse parent = .ok n → spec.purpose = .encryptDecrypt →
    ∀ created ∈ createdKeys log, (n.key id).resourceName = created.name →
      ∃ e, e.code = .alreadyExists ∧
        perform env ctx (.createCryptoKey parent id (some spec)) ⟨s, w⟩ =
          .error (.failed e) ⟨s, w'⟩
  /-- The material filed with a version is the one that was generated when it was created. -/
  material : ∀ e ∈ log, ∀ version, e.createdVersion? = some version →
    ∃ material, e.call.Generates env material ∧
      s.getVersion version.name = .ok (version, material)

section Answers

variable {log : List (Exchange σ)}

theorem Traced.exists_parse (h : Traced env log s) (hs : s.WellFormed) {ring : KeyRing}
    (hr : ring ∈ createdRings log) : ∃ n, KeyRingName.parse ring.name = .ok n := by
  obtain ⟨record, hf, -⟩ := Option.map_eq_some_iff.mp ((h.rings _ _).mpr ⟨hr, rfl⟩)
  exact (hs _ _ hf).parsed

theorem Traced.getVersion (h : Traced env log s) {e : Exchange σ} (he : e ∈ log)
    {version : CryptoKeyVersion} (hv : e.createdVersion? = some version) :
    ∃ material, e.call.Generates env material ∧
      s.getVersion version.name = .ok (version, material) := by
  obtain ⟨m, hm⟩ := h.generated e he version hv
  have hf : s.findVersion? version.name = some ⟨version, m⟩ :=
    (h.versions _ _).mpr ⟨⟨e, he, hv, hm⟩, rfl⟩
  exact ⟨m, hm, Store.getVersion_eq_ok_iff.mpr hf⟩

/-- What the store finds decides what the service answers. -/
theorem Traced.remembers (h : Traced env log s) (hs : s.WellFormed) : Remembers env log s := by
  constructor
  case ring =>
    intro ctx w v name r st hv
    rw [perform_getKeyRing_eq_ok_iff hv]
    simp only [h.rings]
    constructor
    · rintro ⟨hst, -, ring, ⟨hm, hn⟩, hr⟩
      exact ⟨hst, ring, hm, hn, hr⟩
    · rintro ⟨hst, ring, hm, rfl, hr⟩
      exact ⟨hst, h.exists_parse hs hm, ring, ⟨hm, rfl⟩, hr⟩
  case key =>
    intro ctx w v name r st hv
    rw [perform_getCryptoKey_eq_ok_iff hv]
    simp only [h.keys.found]
    constructor
    · rintro ⟨hst, key, ⟨created, hm, hn, rfl⟩, hr⟩
      exact ⟨hst, created, hm, hn, hr⟩
    · rintro ⟨hst, created, hm, hn, hr⟩
      exact ⟨hst, _, ⟨created, hm, hn, rfl⟩, hr⟩
  case kept => exact h.keys.kept
  case version =>
    intro ctx w v name r st hv
    rw [perform_getVersion_eq_ok_iff hv]
    constructor
    · rintro ⟨hst, version, m, hf, hr⟩
      obtain ⟨⟨e, he, hc, -⟩, hn⟩ := (h.versions _ _).mp hf
      exact ⟨hst, version, List.mem_filterMap.mpr ⟨e, he, hc⟩, hn, hr⟩
    · rintro ⟨hst, version, hm, rfl, hr⟩
      obtain ⟨e, he, hc⟩ := List.mem_filterMap.mp hm
      obtain ⟨m, -, hg⟩ := h.getVersion he hc
      exact ⟨hst, version, m, Store.getVersion_eq_ok_iff.mp hg, hr⟩
  case ringOnce =>
    intro ctx w v w' parent id location hv hw hl ring hm hn
    obtain ⟨n, hp⟩ := h.exists_parse hs hm
    rw [← hn, KeyRingName.parse_resourceName_eq_ok_iff] at hp
    obtain ⟨rfl, hvalid⟩ := hp
    have hr : ringRequest parent id = .ok (location.ring id) :=
      ringRequest_eq_ok_iff.mpr ⟨location, hl, ne_empty_of_isId hvalid.2, hvalid, rfl⟩
    have hf : s.findRing? (location.ring id).resourceName = some ring :=
      (h.rings _ _).mpr ⟨hm, hn.symm⟩
    exact ⟨_, rfl, perform_createKeyRing_of_present hv hw hr hf⟩
  case keyOnce =>
    intro ctx w v material v' w' parent id n spec hv hg hw hp hpurpose created hm hn
    have hf : s.findCryptoKey? created.name = some _ :=
      (h.keys.found _ _).mpr ⟨created, hm, rfl, rfl⟩
    obtain ⟨record, hf, -⟩ := Option.map_eq_some_iff.mp hf
    obtain ⟨k, -, hk, -⟩ := Store.findKey?_eq_some_iff.mp hf
    rw [← hn, CryptoKeyName.parse_resourceName_eq_ok_iff] at hk
    obtain ⟨rfl, hvalid⟩ := hk
    have hr : keyRequest parent id (some spec) = .ok (n.key id, spec.labels) :=
      keyRequest_eq_ok_iff.mpr
        ⟨n, spec, hp, ne_empty_of_isId hvalid.2, rfl, hpurpose, hvalid, rfl, rfl⟩
    exact ⟨_, rfl, perform_createCryptoKey_of_present hv hg hw hr (hn ▸ hf)⟩
  case material => exact fun e he version hv => h.getVersion he hv

end Answers

/-- After whatever calls, a service remembers all that it has answered. -/
theorem transcript_remembered (env : Environment σ) (calls : List (Call σ)) :
    Remembers env (transcript env .empty calls) (storeAfter env .empty calls) :=
  (traced_transcript env calls).remembers (wellFormed_storeAfter env calls)

end KeyManagement.Service

namespace KeyManagement.Sample

open Service

/-- A crypto key is made and given another version, which is designated. -/
def calls : List (Call (World Generator)) :=
  [.createKeyRing "projects/p/locations/l" "r",
    .createCryptoKey "projects/p/locations/l/keyRings/r" "k"
      (some { purpose := .encryptDecrypt }),
    .createVersion (key "k"), .updatePrimary (key "k") "2"].map fun op => ⟨ctx, op, world⟩

def firstKey : CryptoKey :=
  let n : CryptoKeyName := ⟨⟨⟨"p", "l"⟩, "r"⟩, "k"⟩
  createdKey n .empty (firstVersion n world.time) world.time

end KeyManagement.Sample

namespace KeyManagement.Service

open Sample in
theorem sample_remembered :
    perform env ctx (.getCryptoKey (key "k")) ⟨storeAfter env .empty calls, world⟩ =
      .ok (.cryptoKey { firstKey with
        primary := some (.enabled (versionNameOf (key "k") "2") {} world.time) })
        ⟨storeAfter env .empty calls, world⟩ := by
  refine ((transcript_remembered env calls).key (v := world) rfl).mpr ⟨rfl, firstKey, ?_, ?_, ?_⟩
  · decide +kernel
  · decide +kernel
  · decide +kernel

end KeyManagement.Service
