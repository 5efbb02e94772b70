import KeyManagement.Proofs.Service.Write
import KeyManagement.Proofs.Store.Frame

/-! # What creating operations come to

An operation that creates something succeeds by one write. What the store holds already is not
created again, and no other request is refused as one for something present.
-/

namespace KeyManagement

namespace Store

variable {s s' : Store}

theorem createKeyRing_of_present {ring present : KeyRing}
    (h : s.findRing? ring.name = some present) :
    createKeyRing ring s = .error (.failed (.alreadyExists .keyRing ring.name)) s := by
  obtain ⟨record, hr, -⟩ := Option.map_eq_some_iff.mp h
  refine bind_eq_error_of_ok (get_eq_ok_iff.mpr ⟨rfl, rfl⟩) (bind_eq_of_error ?_)
  exact vacant_eq_error_iff.mpr ⟨⟨record, hr⟩, rfl, rfl⟩

theorem createCryptoKey_of_present {n : CryptoKeyName} {key : CryptoKey}
    {primary : CryptoKeyVersion} {material : KeyMaterial} {present : KeyRecord}
    (hn : n.Valid) (hk : key.name = n.resourceName)
    (h : s.findKey? n.resourceName = some present) :
    createCryptoKey n.parent.resourceName key primary material s =
      .error (.failed (.alreadyExists .cryptoKey n.resourceName)) s := by
  rw [findKey?_eq (CryptoKeyName.parse_resourceName hn)] at h
  obtain ⟨record, hr, hp⟩ := Option.bind_eq_some_iff.mp h
  rw [← hk] at hp ⊢
  refine bind_eq_error_of_ok (look_eq_ok_iff.mpr ⟨findRing_eq_ok_iff.mpr hr, rfl⟩)
    (bind_eq_of_error ?_)
  exact vacant_eq_error_iff.mpr ⟨⟨present, hp⟩, rfl, rfl⟩

theorem present_of_createKeyRing_eq_error {ring : KeyRing} {e : Stop StoreError}
    (h : createKeyRing ring s = .error e s') : ∃ present, s.findRing? ring.name = some present := by
  simp only [createKeyRing, bind_eq_error_iff, get_ne_error, get_eq_ok_iff, vacant_eq_error_iff,
    modify_ne_error, and_false, exists_false, or_false, false_or] at h
  obtain ⟨_, _, ⟨rfl, rfl⟩, ⟨record, hr⟩, -, -⟩ := h
  exact ⟨record.ring, Option.map_eq_some_iff.mpr ⟨record, hr, rfl⟩⟩

theorem present_of_createCryptoKey_eq_error {n : CryptoKeyName} {key : CryptoKey}
    {primary : CryptoKeyVersion} {material : KeyMaterial} {e : StoreError} (hn : n.Valid)
    (hk : key.name = n.resourceName)
    (h : createCryptoKey n.parent.resourceName key primary material s = .error (.failed e) s')
    (he : e.status.code = .alreadyExists) :
    ∃ present, s.findKey? n.resourceName = some present := by
  simp only [createCryptoKey, bind_eq_error_iff, look_eq_error_iff, look_eq_ok_iff,
    vacant_eq_error_iff, modify_ne_error, and_false, exists_false, or_false] at h
  rcases h with ⟨⟨e', hf, he'⟩, -⟩ | ⟨record, _, ⟨hf, rfl⟩, ⟨present, hp⟩, -, -⟩
  · cases he'
    unfold findRing at hf
    split at hf
    · contradiction
    · cases hf
      contradiction
  · refine ⟨present, ?_⟩
    rw [findKey?_eq (CryptoKeyName.parse_resourceName hn), findRing_eq_ok_iff.mp hf,
      Option.bind_some, ← hk, hp]

end Store

namespace Service

variable {σ : Type} {env : Environment σ} {ctx : Context} {s : Store} {w v v' w' : σ}
  {parent id : String}

section Created

variable {r : Response} {st : State Store σ}

theorem perform_createKeyRing_eq_ok
    (h : perform env ctx (.createKeyRing parent id) ⟨s, w⟩ = .ok r st) : ∃ n now,
      ringRequest parent id = .ok n ∧
      Store.createKeyRing ⟨n.resourceName, now⟩ s = .ok () st.store := by
  obtain ⟨ring, h, -⟩ := map_eq_ok_iff.mp h
  obtain ⟨n, v, -, hr, -, rfl, hs⟩ := createKeyRing_eq_ok_iff.mp h
  exact ⟨n, _, hr, hs⟩

theorem perform_createCryptoKey_eq_ok {spec : Option CryptoKeySpec}
    (h : perform env ctx (.createCryptoKey parent id spec) ⟨s, w⟩ = .ok r st) :
    ∃ n labels now later material, keyRequest parent id spec = .ok (n, labels) ∧
      Store.createCryptoKey n.parent.resourceName
        (createdKey n labels (firstVersion n now) later) (firstVersion n now) material s =
          .ok () st.store := by
  obtain ⟨key, h, -⟩ := map_eq_ok_iff.mp h
  obtain ⟨n, labels, material, v, v', -, hr, -, -, rfl, hs⟩ := createCryptoKey_eq_ok_iff.mp h
  exact ⟨n, labels, _, _, material, hr, hs⟩

theorem perform_createVersion_eq_ok
    (h : perform env ctx (.createVersion parent) ⟨s, w⟩ = .ok r st) :
    ∃ template material now v,
      Store.createNextVersion .checked parent template material now s = .ok v st.store := by
  obtain ⟨version, h, -⟩ := map_eq_ok_iff.mp h
  obtain ⟨n, key, material, v, v', -, -, -, -, -, hs⟩ := createVersion_eq_ok_iff.mp h
  exact ⟨_, _, _, version, hs⟩

theorem perform_listVersions_eq_ok {name token : String}
    (h : perform env ctx (.listVersions name token) ⟨s, w⟩ = .ok r st) : st.store = s ∧
      ∃ record, s.findKey? name = some record ∧
        r = .versions (record.versions.values.map (·.version)) := by
  obtain ⟨versions, hr, rfl⟩ := map_eq_ok_iff.mp h
  obtain ⟨v, -, -, -, hl, rfl⟩ := listVersions_eq_ok_iff.mp hr
  obtain ⟨record, hf, rfl⟩ := Store.listVersions_eq_ok_iff.mp hl
  exact ⟨rfl, record, hf, rfl⟩

end Created

section Present

theorem perform_createKeyRing_of_present {n : KeyRingName} {present : KeyRing}
    (hv : env.check ctx w = .ok () v) (hw : env.check ctx v = .ok () w')
    (hr : ringRequest parent id = .ok n) (h : s.findRing? n.resourceName = some present) :
    perform env ctx (.createKeyRing parent id) ⟨s, w⟩ =
      .error (.failed (.store (.alreadyExists .keyRing n.resourceName))) ⟨s, w'⟩ := by
  have hc : Store.createKeyRing ⟨n.resourceName, env.time v⟩ s = .error _ s :=
    Store.createKeyRing_of_present h
  refine map_eq_error_iff.mpr ?_
  refine bind_eq_error_of_ok (ensureLive_of_check hv) ?_
  refine bind_eq_error_of_ok (demand_eq_ok_iff.mpr ⟨hr, rfl⟩) ?_
  refine bind_eq_error_of_ok (readClock_eq_ok_iff.mpr ⟨rfl, rfl⟩) ?_
  refine bind_eq_error_of_ok (ensureLive_of_check hw) (bind_eq_of_error ?_)
  exact inStore_eq_error_iff.mpr ⟨_, _, hc, rfl, rfl⟩

theorem perform_createKeyRing_of_free {n : KeyRingName} (hv : env.check ctx w = .ok () v)
    (hw : env.check ctx v = .ok () w') (hr : ringRequest parent id = .ok n)
    (h : s.findRing? n.resourceName = none) :
    ∃ r st, perform env ctx (.createKeyRing parent id) ⟨s, w⟩ = .ok r st := by
  have hc : Store.createKeyRing ⟨n.resourceName, env.time v⟩ s = .ok () _ :=
    Store.createKeyRing_eq_ok_iff.mpr ⟨Option.map_eq_none_iff.mp h, rfl⟩
  exact ⟨_, ⟨_, w'⟩, map_eq_ok_iff.mpr
    ⟨_, createKeyRing_eq_ok_iff.mpr ⟨n, v, hv, hr, hw, rfl, hc⟩, rfl⟩⟩

theorem perform_createKeyRing_of_refused {e : ServiceError} (hv : env.check ctx w = .ok () v)
    (hr : ringRequest parent id = .error e) :
    perform env ctx (.createKeyRing parent id) ⟨s, w⟩ = .error (.failed e) ⟨s, v⟩ := by
  refine map_eq_error_iff.mpr ?_
  refine bind_eq_error_of_ok (ensureLive_of_check hv) (bind_eq_of_error ?_)
  exact demand_eq_error_iff.mpr ⟨⟨e, hr, rfl⟩, rfl⟩

section CryptoKeys

variable {spec : Option CryptoKeySpec} {n : CryptoKeyName} {labels : Labels}
  {material : KeyMaterial}

theorem perform_createCryptoKey_of_present {present : KeyRecord}
    (hv : env.check ctx w = .ok () v) (hm : env.engine.generate ctx v = .ok material v')
    (hw : env.check ctx v' = .ok () w') (hr : keyRequest parent id spec = .ok (n, labels))
    (h : s.findKey? n.resourceName = some present) :
    perform env ctx (.createCryptoKey parent id spec) ⟨s, w⟩ =
      .error (.failed (.store (.alreadyExists .cryptoKey n.resourceName))) ⟨s, w'⟩ := by
  have hc : Store.createCryptoKey n.parent.resourceName
      (createdKey n labels (firstVersion n (env.time v')) (env.timeAgain v'))
      (firstVersion n (env.time v')) material s =
        .error (.failed (.alreadyExists .cryptoKey n.resourceName)) s :=
    Store.createCryptoKey_of_present (valid_of_keyRequest hr) rfl h
  refine map_eq_error_iff.mpr ?_
  refine bind_eq_error_of_ok (ensureLive_of_check hv) ?_
  refine bind_eq_error_of_ok (demand_eq_ok_iff.mpr ⟨hr, rfl⟩) ?_
  refine bind_eq_error_of_ok (generate_eq_ok_iff.mpr ⟨v', hm, rfl⟩) ?_
  refine bind_eq_error_of_ok (readClock_eq_ok_iff.mpr ⟨rfl, rfl⟩) ?_
  refine bind_eq_error_of_ok (readClockAgain_eq_ok_iff.mpr ⟨rfl, rfl⟩) ?_
  refine bind_eq_error_of_ok (ensureLive_of_check hw) (bind_eq_of_error ?_)
  exact inStore_eq_error_iff.mpr ⟨_, _, hc, rfl, rfl⟩

theorem perform_createCryptoKey_of_free {ring : KeyRing} (hv : env.check ctx w = .ok () v)
    (hm : env.engine.generate ctx v = .ok material v') (hw : env.check ctx v' = .ok () w')
    (hr : keyRequest parent id spec = .ok (n, labels))
    (hring : s.findRing? n.parent.resourceName = some ring)
    (h : s.findKey? n.resourceName = none) :
    ∃ r st, perform env ctx (.createCryptoKey parent id spec) ⟨s, w⟩ = .ok r st := by
  obtain ⟨record, hf, -⟩ := Option.map_eq_some_iff.mp hring
  rw [Store.findKey?_eq (CryptoKeyName.parse_resourceName (valid_of_keyRequest hr)), hf] at h
  have hc : Store.createCryptoKey n.parent.resourceName
      (createdKey n labels (firstVersion n (env.time v')) (env.timeAgain v'))
      (firstVersion n (env.time v')) material s = .ok () _ :=
    Store.createCryptoKey_eq_ok_iff.mpr ⟨record, hf, h, rfl⟩
  exact ⟨_, ⟨_, w'⟩, map_eq_ok_iff.mpr ⟨_, createCryptoKey_eq_ok_iff.mpr
    ⟨n, labels, material, v, v', hv, hr, hm, hw, rfl, hc⟩, rfl⟩⟩

theorem perform_createCryptoKey_of_refused {e : ServiceError} (hv : env.check ctx w = .ok () v)
    (hr : keyRequest parent id spec = .error e) :
    perform env ctx (.createCryptoKey parent id spec) ⟨s, w⟩ = .error (.failed e) ⟨s, v⟩ := by
  refine map_eq_error_iff.mpr ?_
  refine bind_eq_error_of_ok (ensureLive_of_check hv) (bind_eq_of_error ?_)
  exact demand_eq_error_iff.mpr ⟨⟨e, hr, rfl⟩, rfl⟩

end CryptoKeys

theorem perform_createVersion_of_present {record : KeyRecord} {material : KeyMaterial}
    (hs : s.WellFormed) (hv : env.check ctx w = .ok () v)
    (hm : env.engine.generate ctx v = .ok material v') (hw : env.check ctx v' = .ok () w')
    (h : s.findKey? parent = some record)
    (hl : record.versions.values.length + 1 < versionNumberLimit) :
    ∃ r st, perform env ctx (.createVersion parent) ⟨s, w⟩ = .ok r st := by
  obtain ⟨n, -, hn, -, -⟩ := Store.findKey?_eq_some_iff.mp h
  have hk : s.getCryptoKey parent = .ok record.key :=
    Store.getCryptoKey_eq_ok_iff.mpr ⟨record, h, rfl⟩
  obtain ⟨version, s', hc⟩ := hs.exists_createNextVersion h hl
    record.key.versionTemplate material (env.time w')
  exact ⟨_, ⟨s', w'⟩, map_eq_ok_iff.mpr ⟨version, createVersion_eq_ok_iff.mpr
    ⟨n, record.key, material, v, v', hv, hn, hk, hm, hw, hc⟩, rfl⟩⟩

theorem perform_listVersions_of_present {name : String} {record : KeyRecord}
    (hw : env.check ctx w = .ok () w') (h : s.findKey? name = some record) :
    perform env ctx (.listVersions name "") ⟨s, w⟩ =
      .ok (.versions (record.versions.values.map (·.version))) ⟨s, w'⟩ := by
  obtain ⟨n, -, hn, -, -⟩ := Store.findKey?_eq_some_iff.mp h
  exact map_eq_ok_iff.mpr ⟨_, listVersions_eq_ok_iff.mpr
    ⟨w', hw, ⟨n, hn⟩, rfl, Store.listVersions_eq_ok_iff.mpr ⟨record, h, rfl⟩, rfl⟩, rfl⟩

theorem code_of_engineError {call : EngineCall} {e : EngineError} :
    (ServiceError.engine call e).code = .cancelled ∨
      (ServiceError.engine call e).code = .internal := by
  cases e with
  | context e => exact .inl rfl
  | _ => exact .inr rfl

theorem present_of_createKeyRing {e : ServiceError} {st : State Store σ}
    (h : perform env ctx (.createKeyRing parent id) ⟨s, w⟩ = .error (.failed e) st)
    (he : e.code = .alreadyExists) :
    ∃ n present, ringRequest parent id = .ok n ∧ s.findRing? n.resourceName = some present := by
  replace h := map_eq_error_iff.mp h
  simp only [createKeyRing, bind_eq_error_iff, ensureLive_eq_error_iff, ensureLive_eq_ok_iff,
    demand_eq_error_iff, demand_eq_ok_iff, readClock_ne_error, readClock_eq_ok_iff,
    access_createKeyRing, inStore_eq_error_iff, pure_ne_error, and_false, exists_false, or_false,
    false_or, Stop.failed.injEq] at h
  rcases h with ⟨_, _, -, rfl, -⟩ | ⟨_, _, ⟨v, hv, rfl⟩, ⟨⟨_, hr, rfl⟩, -⟩ |
    ⟨n, _, ⟨hr, rfl⟩, now, _, ⟨-, rfl⟩, ⟨_, _, -, rfl, -⟩ |
      ⟨_, _, ⟨u, hu, rfl⟩, e', t, ht, he', -⟩⟩⟩
  · contradiction
  · rw [code_of_ringRequest hr] at he
    contradiction
  · contradiction
  · obtain ⟨present, hp⟩ := Store.present_of_createKeyRing_eq_error ht
    exact ⟨n, present, hr, hp⟩

theorem present_of_createCryptoKey {spec : Option CryptoKeySpec} {e : ServiceError}
    {st : State Store σ}
    (h : perform env ctx (.createCryptoKey parent id spec) ⟨s, w⟩ = .error (.failed e) st)
    (he : e.code = .alreadyExists) : ∃ n labels present,
      keyRequest parent id spec = .ok (n, labels) ∧ s.findKey? n.resourceName = some present := by
  replace h := map_eq_error_iff.mp h
  simp only [createCryptoKey, bind_eq_error_iff, ensureLive_eq_error_iff, ensureLive_eq_ok_iff,
    demand_eq_error_iff, demand_eq_ok_iff, generate_eq_error_iff, generate_eq_ok_iff,
    readClock_ne_error, readClock_eq_ok_iff, readClockAgain_ne_error, readClockAgain_eq_ok_iff,
    access_createCryptoKey, inStore_eq_error_iff, pure_ne_error, and_false, exists_false, or_false,
    false_or, Stop.failed.injEq] at h
  rcases h with ⟨_, _, -, rfl, -⟩ | ⟨_, _, ⟨v, hv, rfl⟩, ⟨⟨_, hr, rfl⟩, -⟩ |
    ⟨⟨n, labels⟩, _, ⟨hr, rfl⟩, ⟨_, _, -, rfl, -⟩ |
      ⟨m, _, ⟨v', hm, rfl⟩, now, _, ⟨-, rfl⟩, later, _, ⟨-, rfl⟩, ⟨_, _, -, rfl, -⟩ |
        ⟨_, _, ⟨u, hu, rfl⟩, e', t, ht, he', -⟩⟩⟩⟩
  · contradiction
  · rw [code_of_keyRequest hr] at he
    contradiction
  · rcases code_of_engineError with hc | hc <;> rw [hc] at he <;> contradiction
  · contradiction
  · obtain ⟨e₀, rfl, rfl⟩ := map_stop_eq_failed_iff.mp he'
    obtain ⟨present, hp⟩ :=
      Store.present_of_createCryptoKey_eq_error (valid_of_keyRequest hr) rfl ht he
    exact ⟨n, labels, present, hr, hp⟩

end Present

end Service

end KeyManagement
