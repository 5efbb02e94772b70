import KeyManagement.Proofs.Seed.Stage
import KeyManagement.Proofs.Service.Creation
import KeyManagement.Proofs.Store.NewVersions

/-! # What the stages of a seeding come to

A stage that succeeds leaves what it is there for, and counts what it has created. One that
fails leaves the store as it was, unless it fails between versions.
-/

namespace KeyManagement.Seed

variable {σ : Type} {env : Environment σ} {ctx : Context} {m m' : Summary}
  {st st' : Service.State Store σ}

theorem ensure_eq_ok_iff {subject : Subject} {name : String} {op : Operation} {created : Bool} :
    ensure env ctx subject name op st = .ok created st' ↔
      (created = true ∧ ∃ r, Service.perform env ctx op st = .ok r st') ∨
      (created = false ∧ ∃ e, e.code = .alreadyExists ∧
        Service.perform env ctx op st = .error (.failed e) st') := by
  unfold ensure
  rcases Service.perform env ctx op st with ⟨r, t⟩ | ⟨e | _, t⟩
  · simp [eq_comm]
  · dsimp only
    split
    · next h => simp [h, eq_comm]
    · next h => simp [h]
  · simp

theorem ensure_eq_error_iff {subject : Subject} {name : String} {op : Operation}
    {e : Stop ApplyError} : ensure env ctx subject name op st = .error e st' ↔
      ∃ cause, (∀ e', cause = .failed e' → e'.code ≠ .alreadyExists) ∧
        Service.perform env ctx op st = .error cause st' ∧
        e = cause.map (.create subject name) := by
  unfold ensure
  rcases Service.perform env ctx op st with ⟨r, t⟩ | ⟨cause | _, t⟩
  · simp
  · dsimp only
    split
    · next h => simp [h]
    · next h =>
      simp only [EStateM.Result.error.injEq]
      constructor
      · rintro ⟨rfl, rfl⟩
        exact ⟨.failed cause, fun _ he => Stop.failed.inj he ▸ h, ⟨rfl, rfl⟩, rfl⟩
      · rintro ⟨_, -, ⟨rfl, rfl⟩, rfl⟩
        exact ⟨rfl, rfl⟩
  · simp only [EStateM.Result.error.injEq]
    constructor
    · rintro ⟨rfl, rfl⟩
      exact ⟨.overflow, nofun, ⟨rfl, rfl⟩, rfl⟩
    · rintro ⟨_, -, ⟨rfl, rfl⟩, rfl⟩
      exact ⟨rfl, rfl⟩

/-- What making sure of a resource comes to: it was there, or one write has created it. -/
theorem ensureRing_eq_ok {n : KeyRingName} (h : ensureRing env ctx n m st = .ok m' st') :
    n.Valid ∧
    ((m' = m ∧ st'.store = st.store ∧ ∃ ring, st.store.findRing? n.resourceName = some ring) ∨
      (m' = { m with keyRings := m.keyRings + 1 } ∧ ∃ now,
        Store.createKeyRing ⟨n.resourceName, now⟩ st.store = .ok () st'.store)) := by
  obtain ⟨created, t, he, hp⟩ := bind_eq_ok_iff.mp h
  obtain ⟨rfl, rfl⟩ := pure_eq_ok_iff.mp hp
  rcases ensure_eq_ok_iff.mp he with ⟨rfl, r, hok⟩ | ⟨rfl, e, hc, herr⟩
  · obtain ⟨k, now, hr, hs⟩ := Service.perform_createKeyRing_eq_ok hok
    obtain ⟨rfl, hn⟩ := Service.ringRequest_resourceName.mp hr
    exact ⟨hn, .inr ⟨rfl, now, hs⟩⟩
  · obtain ⟨k, ring, hr, hf⟩ := Service.present_of_createKeyRing herr hc
    obtain ⟨rfl, hn⟩ := Service.ringRequest_resourceName.mp hr
    exact ⟨hn, .inl ⟨rfl, Service.store_of_perform_error herr, ring, hf⟩⟩

theorem present_of_ensureRing {n : KeyRingName} (h : ensureRing env ctx n m st = .ok m' st') :
    n.Valid ∧ ∃ ring, st'.store.findRing? n.resourceName = some ring := by
  obtain ⟨hn, ⟨-, he, ring, hr⟩ | ⟨-, now, hc⟩⟩ := ensureRing_eq_ok h
  · exact ⟨hn, ring, by rw [he, hr]⟩
  · exact ⟨hn, _, by rw [Store.findRing?_createKeyRing hc, if_pos rfl]⟩

theorem checkPurpose_eq_ok {n : CryptoKeyName} {purpose : String}
    (h : checkPurpose n purpose m st = .ok m' st') : m' = m ∧ st' = st := by
  unfold checkPurpose at h
  split at h
  · exact absurd h throw_ne_ok
  · obtain ⟨rfl, rfl⟩ := pure_eq_ok_iff.mp h
    exact ⟨rfl, rfl⟩

theorem ensureKey_eq_ok {n : CryptoKeyName} {labels : Labels}
    (h : ensureKey env ctx n labels m st = .ok m' st') :
    n.Valid ∧
    ((m' = m ∧ st'.store = st.store ∧ ∃ r, st.store.findKey? n.resourceName = some r) ∨
      (m' = { m with cryptoKeys := m.cryptoKeys + 1 } ∧ ∃ now later material,
        Store.createCryptoKey n.parent.resourceName
          (Service.createdKey n labels (Service.firstVersion n now) later)
          (Service.firstVersion n now) material st.store = .ok () st'.store)) := by
  obtain ⟨created, t, he, hp⟩ := bind_eq_ok_iff.mp h
  obtain ⟨rfl, rfl⟩ := pure_eq_ok_iff.mp hp
  rcases ensure_eq_ok_iff.mp he with ⟨rfl, r, hok⟩ | ⟨rfl, e, hc, herr⟩
  · obtain ⟨k, labels', now, later, material, hr, hs⟩ := Service.perform_createCryptoKey_eq_ok hok
    obtain ⟨rfl, rfl, hn⟩ := Service.keyRequest_resourceName.mp hr
    exact ⟨hn, .inr ⟨rfl, now, later, material, hs⟩⟩
  · obtain ⟨k, labels', r, hr, hf⟩ := Service.present_of_createCryptoKey herr hc
    obtain ⟨rfl, rfl, hn⟩ := Service.keyRequest_resourceName.mp hr
    exact ⟨hn, .inl ⟨rfl, Service.store_of_perform_error herr, r, hf⟩⟩

theorem present_of_ensureKey {n : CryptoKeyName} {labels : Labels}
    (h : ensureKey env ctx n labels m st = .ok m' st') :
    n.Valid ∧ ∃ r, st'.store.findKey? n.resourceName = some r := by
  obtain ⟨hn, ⟨-, he, r, hr⟩ | ⟨-, now, later, material, hc⟩⟩ := ensureKey_eq_ok h
  · exact ⟨hn, r, by rw [he, hr]⟩
  · have hf := Store.findKey?_createCryptoKey hc (CryptoKeyName.parse_resourceName hn) rfl
      n.resourceName
    exact ⟨hn, _, hf.trans (if_pos rfl)⟩

theorem createVersions_eq_ok {key : String} {k : Nat} {u : Unit}
    (h : createVersions env ctx key k st = .ok u st') :
    Store.NewVersions key k st.store st'.store := by
  induction k generalizing st with
  | zero =>
    obtain ⟨-, rfl⟩ := pure_eq_ok_iff.mp h
    exact .none _
  | succ k ih =>
    obtain ⟨_, t, ha, hr⟩ := bind_eq_ok_iff.mp h
    obtain ⟨r, ha⟩ := discard_eq_ok_iff.mp ha
    obtain ⟨_, _, _, _, hs⟩ := Service.perform_createVersion_eq_ok (adaptExcept_eq_ok_iff.mp ha)
    exact .next hs (ih hr)

theorem topUp_eq_ok {n : CryptoKeyName} {wanted : Nat}
    (h : topUp env ctx n wanted m st = .ok m' st') :
    ∃ r, st.store.findKey? n.resourceName = some r ∧
      m' = { m with versions := m.versions + (wanted - r.versions.values.length) } ∧
      Store.NewVersions n.resourceName (wanted - r.versions.values.length) st.store st'.store := by
  obtain ⟨_, t, ha, h⟩ := bind_eq_ok_iff.mp h
  obtain ⟨ht, r, hr, rfl⟩ := Service.perform_listVersions_eq_ok (adaptExcept_eq_ok_iff.mp ha)
  obtain ⟨_, u, hc, h⟩ := bind_eq_ok_iff.mp h
  obtain ⟨rfl, rfl⟩ := pure_eq_ok_iff.mp h
  have hv := createVersions_eq_ok hc
  rw [ht] at hv
  have hcount : versionCount (.versions (r.versions.values.map (·.version))) =
      r.versions.values.length := List.length_map _
  rw [hcount] at hv ⊢
  exact ⟨r, hr, rfl, hv⟩

section Failure

variable {e : Stop ApplyError}

theorem store_of_attempt_error {subject : Subject} {name : String} {op : Operation}
    (h : attempt env ctx subject name op st = .error e st') : st'.store = st.store := by
  obtain ⟨cause, hp, -⟩ := adaptExcept_eq_error_iff.mp h
  exact Service.store_of_perform_error hp

theorem store_of_ensure_error {subject : Subject} {name : String} {op : Operation}
    (h : ensure env ctx subject name op st = .error e st') : st'.store = st.store := by
  obtain ⟨cause, -, hp, -⟩ := ensure_eq_error_iff.mp h
  exact Service.store_of_perform_error hp

theorem store_of_counted_error {subject : Subject} {name : String} {op : Operation}
    {count : Bool → Summary}
    (h : (ensure env ctx subject name op >>= fun created => pure (count created)) st =
      .error e st') : st'.store = st.store := by
  rcases bind_eq_error_iff.mp h with h | ⟨_, _, -, h⟩
  · exact store_of_ensure_error h
  · exact absurd h pure_ne_error

theorem store_of_checkPurpose_error {n : CryptoKeyName} {purpose : String}
    (h : checkPurpose n purpose m st = .error e st') : st'.store = st.store := by
  unfold checkPurpose at h
  split at h
  · obtain ⟨-, rfl⟩ := throw_eq_error_iff.mp h
    rfl
  · exact absurd h pure_ne_error

theorem createVersions_add (key : String) (j k : Nat) :
    (createVersions env ctx key (j + k) : Step Store σ Unit) =
      createVersions env ctx key j >>= fun _ => createVersions env ctx key k := by
  induction j with
  | zero => rw [Nat.zero_add, createVersions, pure_bind]
  | succ j ih => rw [Nat.succ_add, createVersions, createVersions, ih, bind_assoc]

theorem createVersions_eq_error {key : String} {k : Nat}
    (h : createVersions env ctx key k st = .error e st') :
    ∃ j t, j < k ∧ createVersions env ctx key j st = .ok () t ∧ st'.store = t.store := by
  induction k generalizing st with
  | zero => exact absurd h pure_ne_error
  | succ k ih =>
    rcases bind_eq_error_iff.mp h with h | ⟨u, t, hd, h⟩
    · exact ⟨0, st, k.succ_pos, rfl, store_of_attempt_error (discard_eq_error_iff.mp h)⟩
    · obtain ⟨j, t', hj, hc, hs⟩ := ih h
      exact ⟨j + 1, t', Nat.succ_lt_succ hj, bind_eq_ok_iff.mpr ⟨u, t, hd, hc⟩, hs⟩

/-- A top-up that fails has created fewer versions than were lacking. -/
theorem topUp_eq_error {n : CryptoKeyName} {wanted : Nat}
    (h : topUp env ctx n wanted m st = .error e st') :
    st'.store = st.store ∨
      ∃ r j t t', st.store.findKey? n.resourceName = some r ∧
        j < wanted - r.versions.values.length ∧ t.store = st.store ∧
        createVersions env ctx n.resourceName j t = .ok () t' ∧ st'.store = t'.store := by
  rcases bind_eq_error_iff.mp h with h | ⟨_, t, hl, h⟩
  · exact .inl (store_of_attempt_error h)
  · obtain ⟨ht, r, hr, rfl⟩ := Service.perform_listVersions_eq_ok (adaptExcept_eq_ok_iff.mp hl)
    rcases bind_eq_error_iff.mp h with h | ⟨_, _, -, h⟩
    · obtain ⟨j, t', hj, hc, hs⟩ := createVersions_eq_error h
      simp only [versionCount, List.length_map] at hj
      exact .inr ⟨r, j, t, t', hr, hj, ht, hc, hs⟩
    · exact absurd h pure_ne_error

end Failure

end KeyManagement.Seed
