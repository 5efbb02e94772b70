import KeyManagement.Proofs.Service.Request
import KeyManagement.Proofs.Service.Step

/-! # When operations succeed

An operation succeeds exactly when each of its steps does. What it changes is stated here with
what it answers: the world, and the store only where it writes.
-/

namespace KeyManagement.Service

variable {σ : Type} {env : Environment σ} {ctx : Context} {s : Store} {w : σ}
  {st : State Store σ}

section Writes

theorem createKeyRing_eq_ok_iff {parent id : String} {ring : KeyRing} :
    createKeyRing env ctx parent id ⟨s, w⟩ = .ok ring st ↔ ∃ n v,
      env.check ctx w = .ok () v ∧ ringRequest parent id = .ok n ∧
      env.check ctx v = .ok () st.world ∧ ring = ⟨n.resourceName, env.time v⟩ ∧
      Store.createKeyRing ring s = .ok () st.store := by
  simp only [createKeyRing, ensureLive_bind_eq_ok_iff, demand_bind_eq_ok_iff, readClock_bind,
    access_createKeyRing, inStore_bind_eq_ok_iff, pure_eq_ok_iff]
  constructor
  · rintro ⟨v, hv, n, hr, u, hu, _, t, ht, rfl, rfl⟩
    exact ⟨n, v, hv, hr, hu, rfl, ht⟩
  · rintro ⟨n, v, hv, hr, hu, rfl, ht⟩
    exact ⟨v, hv, n, hr, st.world, hu, (), st.store, ht, rfl, rfl⟩

theorem createCryptoKey_eq_ok_iff {parent id : String} {spec : Option CryptoKeySpec}
    {key : CryptoKey} :
    createCryptoKey env ctx parent id spec ⟨s, w⟩ = .ok key st ↔ ∃ n labels material v v',
      env.check ctx w = .ok () v ∧ keyRequest parent id spec = .ok (n, labels) ∧
      env.engine.generate ctx v = .ok material v' ∧ env.check ctx v' = .ok () st.world ∧
      key = createdKey n labels (firstVersion n (env.time v')) (env.timeAgain v') ∧
      Store.createCryptoKey n.parent.resourceName key (firstVersion n (env.time v')) material s =
        .ok () st.store := by
  simp only [createCryptoKey, ensureLive_bind_eq_ok_iff, demand_bind_eq_ok_iff, generate,
    inWorld_bind_eq_ok_iff, readClock_bind, readClockAgain_bind, access_createCryptoKey,
    inStore_bind_eq_ok_iff, pure_eq_ok_iff]
  constructor
  · rintro ⟨v, hv, ⟨n, labels⟩, hr, material, v', hm, u, hu, _, t, ht, rfl, rfl⟩
    exact ⟨n, labels, material, v, v', hv, hr, hm, hu, rfl, ht⟩
  · rintro ⟨n, labels, material, v, v', hv, hr, hm, hu, rfl, ht⟩
    exact ⟨v, hv, (n, labels), hr, material, v', hm, st.world, hu, (), st.store, ht, rfl, rfl⟩

theorem createVersion_eq_ok_iff {parent : String} {version : CryptoKeyVersion} :
    createVersion env ctx parent ⟨s, w⟩ = .ok version st ↔ ∃ n key material v v',
      env.check ctx w = .ok () v ∧ CryptoKeyName.parse parent = .ok n ∧
      s.getCryptoKey parent = .ok key ∧ env.engine.generate ctx v = .ok material v' ∧
      env.check ctx v' = .ok () st.world ∧
      Store.createNextVersion .checked parent key.versionTemplate material (env.time st.world) s =
        .ok version st.store := by
  simp only [createVersion, ensureLive_bind_eq_ok_iff, discard_demandAs_bind_eq_ok_iff,
    access_getCryptoKey, inStore_look_bind_eq_ok_iff, generate, inWorld_bind_eq_ok_iff,
    readClock_bind, access_createNextVersion, inStore_eq_ok_iff]
  constructor
  · rintro ⟨v, hv, ⟨n, hn⟩, key, hk, material, v', hm, u, hu, t, ht, rfl⟩
    exact ⟨n, key, material, v, v', hv, hn, hk, hm, hu, ht⟩
  · rintro ⟨n, key, material, v, v', hv, hn, hk, hm, hu, ht⟩
    exact ⟨v, hv, ⟨n, hn⟩, key, hk, material, v', hm, _, hu, st.store, ht, rfl⟩

theorem updatePrimary_eq_ok_iff {name id : String} {key : CryptoKey} :
    updatePrimary env ctx name id ⟨s, w⟩ = .ok key st ↔ ∃ n v,
      env.check ctx w = .ok () v ∧ CryptoKeyName.parse name = .ok n ∧ id ≠ "" ∧
      env.check ctx v = .ok () st.world ∧
      Store.setPrimary name (versionNameOf name id) s = .ok key st.store := by
  simp only [updatePrimary, ensureLive_bind_eq_ok_iff, discard_demandAs_bind_eq_ok_iff,
    demand_bind_eq_ok_iff, require_eq_ok_iff, access_setPrimary, inStore_eq_ok_iff]
  constructor
  · rintro ⟨v, hv, ⟨n, hn⟩, _, hi, u, hu, t, ht, rfl⟩
    exact ⟨n, v, hv, hn, hi, hu, ht⟩
  · rintro ⟨n, v, hv, hn, hi, hu, ht⟩
    exact ⟨v, hv, ⟨n, hn⟩, (), hi, _, hu, _, ht, rfl⟩

end Writes

section Reads

variable {name : String}

theorem getKeyRing_eq_ok_iff {ring : KeyRing} : getKeyRing env ctx name ⟨s, w⟩ = .ok ring st ↔
    ∃ v, env.check ctx w = .ok () v ∧ (∃ n, KeyRingName.parse name = .ok n) ∧
      s.getKeyRing name = .ok ring ∧ st = ⟨s, v⟩ := by
  simp only [getKeyRing, ensureLive_bind_eq_ok_iff, discard_demandAs_bind_eq_ok_iff,
    access_getKeyRing, inStore_look_eq_ok_iff, eq_comm (a := st)]

theorem getCryptoKey_eq_ok_iff {key : CryptoKey} :
    getCryptoKey env ctx name ⟨s, w⟩ = .ok key st ↔
      ∃ v, env.check ctx w = .ok () v ∧ (∃ n, CryptoKeyName.parse name = .ok n) ∧
        s.getCryptoKey name = .ok key ∧ st = ⟨s, v⟩ := by
  simp only [getCryptoKey, ensureLive_bind_eq_ok_iff, discard_demandAs_bind_eq_ok_iff,
    access_getCryptoKey, inStore_look_eq_ok_iff, eq_comm (a := st)]

theorem getVersion_eq_ok_iff {version : CryptoKeyVersion} :
    getVersion env ctx name ⟨s, w⟩ = .ok version st ↔
      ∃ v, env.check ctx w = .ok () v ∧ (∃ n, CryptoKeyVersionName.parse name = .ok n) ∧
        (∃ material, s.getVersion name = .ok (version, material)) ∧ st = ⟨s, v⟩ := by
  simp only [getVersion, ensureLive_bind_eq_ok_iff, discard_demandAs_bind_eq_ok_iff,
    access_getVersion, inStore_look_bind_eq_ok_iff, pure_eq_ok_iff]
  constructor
  · rintro ⟨v, hv, hn, ⟨version, material⟩, hr, rfl, rfl⟩
    exact ⟨v, hv, hn, ⟨material, hr⟩, rfl⟩
  · rintro ⟨v, hv, hn, ⟨material, hr⟩, rfl⟩
    exact ⟨v, hv, hn, (version, material), hr, rfl, rfl⟩

theorem listKeyRings_eq_ok_iff {token : String} {rings : List KeyRing} :
    listKeyRings env ctx name token ⟨s, w⟩ = .ok rings st ↔
      ∃ v n, env.check ctx w = .ok () v ∧ LocationName.parse name = .ok n ∧ token = "" ∧
        s.listKeyRings n.resourceName = rings ∧ st = ⟨s, v⟩ := by
  simp only [listKeyRings, ensureLive_bind_eq_ok_iff, demandAs_bind_eq_ok_iff,
    demand_bind_eq_ok_iff, rejectPageToken_eq_ok_iff, access_listKeyRings, inStore_look_eq_ok_iff,
    Except.ok.injEq]
  constructor
  · rintro ⟨v, hv, n, hn, _, hp, hr, rfl⟩
    exact ⟨v, n, hv, hn, hp, hr, rfl⟩
  · rintro ⟨v, n, hv, hn, hp, hr, rfl⟩
    exact ⟨v, hv, n, hn, (), hp, hr, rfl⟩

theorem listCryptoKeys_eq_ok_iff {token : String} {keys : List CryptoKey} :
    listCryptoKeys env ctx name token ⟨s, w⟩ = .ok keys st ↔
      ∃ v, env.check ctx w = .ok () v ∧ (∃ n, KeyRingName.parse name = .ok n) ∧ token = "" ∧
        s.listCryptoKeys name = .ok keys ∧ st = ⟨s, v⟩ := by
  simp only [listCryptoKeys, ensureLive_bind_eq_ok_iff, discard_demandAs_bind_eq_ok_iff,
    demand_bind_eq_ok_iff, rejectPageToken_eq_ok_iff, access_listCryptoKeys,
    inStore_look_eq_ok_iff]
  constructor
  · rintro ⟨v, hv, hn, _, hp, hr, rfl⟩
    exact ⟨v, hv, hn, hp, hr, rfl⟩
  · rintro ⟨v, hv, hn, hp, hr, rfl⟩
    exact ⟨v, hv, hn, (), hp, hr, rfl⟩

theorem listVersions_eq_ok_iff {token : String} {versions : List CryptoKeyVersion} :
    listVersions env ctx name token ⟨s, w⟩ = .ok versions st ↔
      ∃ v, env.check ctx w = .ok () v ∧ (∃ n, CryptoKeyName.parse name = .ok n) ∧ token = "" ∧
        s.listVersions name = .ok versions ∧ st = ⟨s, v⟩ := by
  simp only [listVersions, ensureLive_bind_eq_ok_iff, discard_demandAs_bind_eq_ok_iff,
    demand_bind_eq_ok_iff, rejectPageToken_eq_ok_iff, access_listVersions,
    inStore_look_eq_ok_iff]
  constructor
  · rintro ⟨v, hv, hn, _, hp, hr, rfl⟩
    exact ⟨v, hv, hn, hp, hr, rfl⟩
  · rintro ⟨v, hv, hn, hp, hr, rfl⟩
    exact ⟨v, hv, hn, (), hp, hr, rfl⟩

end Reads

section Ciphertexts

theorem encrypt_eq_ok_iff {request : EncryptRequest} {r : EncryptResponse} :
    encrypt env ctx request ⟨s, w⟩ = .ok r st ↔ ∃ n key primary version material body v v',
      env.check ctx w = .ok () v ∧ CryptoKeyName.parse request.name = .ok n ∧
      s.getCryptoKey request.name = .ok key ∧ key.primary = some primary ∧
      verifyChecksum request.plaintext request.plaintextCrc = .ok r.verifiedPlaintext ∧
      verifyChecksum request.aad request.aadCrc = .ok r.verifiedAad ∧
      s.getVersion primary.name = .ok (version, material) ∧
      env.engine.encrypt ctx material request.plaintext request.aad v = .ok body v' ∧
      Envelope.wrap version.name body = .ok r.ciphertext ∧ r.name = version.name ∧
      r.ciphertextCrc = Checksum.toWire (Checksum.crc32c r.ciphertext) ∧ st = ⟨s, v'⟩ := by
  simp only [encrypt, ensureLive_bind_eq_ok_iff, discard_demandAs_bind_eq_ok_iff,
    demand_bind_eq_ok_iff, demandAs_bind_eq_ok_iff, access_getCryptoKey, access_getVersion,
    inStore_look_bind_eq_ok_iff, inWorld_bind_eq_ok_iff, pure_eq_ok_iff, ok_of_elim_eq_ok]
  constructor
  · rintro ⟨v, hv, ⟨n, hn⟩, key, hk, primary, hp, vp, hvp, va, hva, ⟨version, material⟩, hg, body,
      v', hb, c, hc, rfl, rfl⟩
    exact ⟨n, key, primary, version, material, body, v, v', hv, hn, hk, hp, hvp, hva, hg, hb, hc,
      rfl, rfl, rfl⟩
  · rintro ⟨n, key, primary, version, material, body, v, v', hv, hn, hk, hp, hvp, hva, hg, hb, hc,
      hr, hs, rfl⟩
    obtain ⟨name, ciphertext, crc, vp, va⟩ := r
    simp only at hvp hva hc hr hs
    subst hr hs
    exact ⟨v, hv, ⟨n, hn⟩, key, hk, primary, hp, vp, hvp, va, hva, (version, material), hg, body,
      v', hb, ciphertext, hc, rfl, rfl⟩

theorem decrypt_eq_ok_iff {request : DecryptRequest} {r : DecryptResponse} :
    decrypt env ctx request ⟨s, w⟩ = .ok r st ↔
      ∃ n key vc va name body parsed version material v v',
      env.check ctx w = .ok () v ∧ CryptoKeyName.parse request.name = .ok n ∧
      s.getCryptoKey request.name = .ok key ∧
      verifyChecksum request.ciphertext request.ciphertextCrc = .ok vc ∧
      verifyChecksum request.aad request.aadCrc = .ok va ∧
      Envelope.unwrap request.ciphertext = .ok (name, body) ∧
      CryptoKeyVersionName.parse name = .ok parsed ∧
      parsed.parent.resourceName = request.name ∧
      s.getVersion name = .ok (version, material) ∧
      env.engine.decrypt ctx material body request.aad v = .ok r.plaintext v' ∧
      r.plaintextCrc = Checksum.toWire (Checksum.crc32c r.plaintext) ∧
      r.usedPrimary = key.primary.any (·.name == version.name) ∧ st = ⟨s, v'⟩ := by
  simp only [decrypt, ensureLive_bind_eq_ok_iff, discard_demandAs_bind_eq_ok_iff,
    discard_demand_bind_eq_ok_iff, demandAs_bind_eq_ok_iff, access_getCryptoKey,
    access_getVersion, inStore_look_bind_eq_ok_iff]
  constructor
  · rintro ⟨v, hv, ⟨n, hn⟩, key, hk, ⟨vc, hvc⟩, ⟨va, hva⟩, ⟨name, body⟩, hu, parsed, hp, h⟩
    split at h
    · simp at h
    · next hne =>
      simp only [inStore_look_bind_eq_ok_iff, inWorld_bind_eq_ok_iff, pure_eq_ok_iff] at h
      obtain ⟨⟨version, material⟩, hg, plaintext, v', hd, rfl, rfl⟩ := h
      exact ⟨n, key, vc, va, name, body, parsed, version, material, v, v', hv, hn, hk, hvc, hva,
        hu, hp, not_not.mp hne, hg, hd, rfl, rfl, rfl⟩
  · rintro ⟨n, key, vc, va, name, body, parsed, version, material, v, v', hv, hn, hk, hvc, hva, hu,
      hp, hne, hg, hd, hc, hs, rfl⟩
    refine ⟨v, hv, ⟨n, hn⟩, key, hk, ⟨vc, hvc⟩, ⟨va, hva⟩, (name, body), hu, parsed, hp, ?_⟩
    rw [if_neg (not_not.mpr hne)]
    simp only [inStore_look_bind_eq_ok_iff, inWorld_bind_eq_ok_iff, pure_eq_ok_iff]
    obtain ⟨plaintext, crc, used⟩ := r
    simp only at hd hc hs
    subst hc hs
    exact ⟨(version, material), hg, plaintext, v', hd, rfl, rfl⟩

end Ciphertexts

end KeyManagement.Service
