import KeyManagement.Proofs.Seed.Fulfilment
import KeyManagement.Proofs.Seed.Ideal

/-! # Seedings that get through

In the ideal environment a stage fails only for what it is told to seed. A seeding therefore
gets through with valid names, purposes that are supported, and versions that can be numbered.
-/

namespace KeyManagement.Seed

variable {σ : Type} {ctx₀ : Context} {m : Summary} {st : Service.State Store Unit}

section Stages

theorem exists_ensureRing {n : KeyRingName} (hn : n.Valid) :
    ∃ m' st', ensureRing .ideal ctx₀ n m st = .ok m' st' := by
  cases hf : st.store.findRing? n.resourceName with
  | some ring => exact ⟨m, st, ensureRing_of_present hn hf m⟩
  | none =>
    have hr : Service.ringRequest n.parent.resourceName n.keyRing = .ok n :=
      Service.ringRequest_resourceName.mpr ⟨rfl, hn⟩
    obtain ⟨r, st', hp⟩ : ∃ r st', Service.perform .ideal ctx₀ _ st = .ok r st' :=
      Service.perform_createKeyRing_of_free rfl rfl hr hf
    exact ⟨_, st', bind_eq_of_ok (ensure_eq_ok_iff.mpr (.inl ⟨rfl, r, hp⟩))⟩

theorem exists_ensureKey {n : CryptoKeyName} {labels : Labels} {ring : KeyRing} (hn : n.Valid)
    (hring : st.store.findRing? n.parent.resourceName = some ring) :
    ∃ m' st', ensureKey .ideal ctx₀ n labels m st = .ok m' st' := by
  cases hf : st.store.findKey? n.resourceName with
  | some r => exact ⟨m, st, ensureKey_of_present hn hf m⟩
  | none =>
    have hr : Service.keyRequest n.parent.resourceName n.cryptoKey
        (some { purpose := .encryptDecrypt, labels }) = .ok (n, labels) :=
      Service.keyRequest_resourceName.mpr ⟨rfl, rfl, hn⟩
    obtain ⟨r, st', hp⟩ : ∃ r st', Service.perform .ideal ctx₀ _ st = .ok r st' :=
      Service.perform_createCryptoKey_of_free rfl rfl rfl hr hring hf
    exact ⟨_, st', bind_eq_of_ok (ensure_eq_ok_iff.mpr (.inl ⟨rfl, r, hp⟩))⟩

theorem exists_createVersions {key : String} {r : KeyRecord} {k : Nat}
    (hs : st.store.WellFormed) (hr : st.store.findKey? key = some r)
    (hl : r.versions.values.length + k < versionNumberLimit) :
    ∃ st', createVersions .ideal ctx₀ key k st = .ok () st' := by
  induction k generalizing st r with
  | zero => exact ⟨st, rfl⟩
  | succ k ih =>
    obtain ⟨a, t, hp⟩ : ∃ a t, Service.perform .ideal ctx₀ (.createVersion key) st = .ok a t :=
      Service.perform_createVersion_of_present hs rfl rfl rfl hr (by omega)
    obtain ⟨_, _, _, _, hc⟩ := Service.perform_createVersion_eq_ok hp
    obtain ⟨r', hr', -, hl'⟩ := Store.findKey?_createNextVersion hc hr
    obtain ⟨st', h⟩ := ih (hs.createNextVersion hc) hr' (by omega)
    exact ⟨st', bind_eq_ok_iff.mpr
      ⟨(), t, discard_eq_ok_iff.mpr ⟨a, adaptExcept_eq_ok_iff.mpr hp⟩, h⟩⟩

theorem exists_topUp {n : CryptoKeyName} {wanted : Nat} {r : KeyRecord}
    (hs : st.store.WellFormed) (hr : st.store.findKey? n.resourceName = some r)
    (hw : wanted < versionNumberLimit) :
    ∃ m' st', topUp .ideal ctx₀ n wanted m st = .ok m' st' := by
  have hl := (hs.findKey hr).counted.2.1
  obtain ⟨st', hc⟩ : ∃ st', createVersions .ideal ctx₀ n.resourceName
      (wanted - r.versions.values.length) st = .ok () st' :=
    exists_createVersions hs hr (by omega)
  exact ⟨_, st', (topUp_of_present hr wanted m).trans (bind_eq_of_ok hc)⟩

end Stages

def CryptoKeySeed.Supported (seed : CryptoKeySeed) : Prop :=
  seed.purpose = "" ∨ seed.purpose = "ENCRYPT_DECRYPT"

instance (seed : CryptoKeySeed) : Decidable seed.Supported :=
  inferInstanceAs (Decidable (_ ∨ _))

theorem checkPurpose_of_supported {seed : CryptoKeySeed} (h : seed.Supported)
    (n : CryptoKeyName) :
    (checkPurpose n seed.purpose m : Step Store σ Summary) = pure m :=
  if_neg fun hp => h.elim hp.1 hp.2

theorem exists_seedKey {n : CryptoKeyName} {seed : CryptoKeySeed} {ring : KeyRing}
    (hs : st.store.WellFormed) (hn : n.Valid) (hp : seed.Supported)
    (hv : seed.versions.length < versionNumberLimit)
    (hring : st.store.findRing? n.parent.resourceName = some ring) :
    ∃ m' st', seedKey .ideal ctx₀ n seed m st = .ok m' st' := by
  obtain ⟨m₁, t, he⟩ : ∃ m₁ t, ensureKey .ideal ctx₀ n seed.labels m st = .ok m₁ t :=
    exists_ensureKey hn hring
  have ht : t.store.WellFormed := by
    obtain ⟨-, ⟨-, hstore, -⟩ | ⟨-, now, later, material, hc⟩⟩ := ensureKey_eq_ok he
    · exact hstore ▸ hs
    · exact hs.createCryptoKey hc hn rfl rfl
  obtain ⟨-, r, hr⟩ := present_of_ensureKey he
  obtain ⟨m', st', htop⟩ : ∃ m' st', topUp .ideal ctx₀ n seed.versions.length m₁ t = .ok m' st' :=
    exists_topUp ht hr hv
  refine ⟨m', st', ?_⟩
  rw [congrFun (seedKey_eq .ideal ctx₀ n seed) m]
  refine bind_eq_ok_iff.mpr ⟨m, st, ?_, bind_eq_ok_iff.mpr ⟨m₁, t, he, htop⟩⟩
  rw [checkPurpose_of_supported hp]
  rfl

section Passes

theorem exists_foldlM {β : Type} {P : Service.State Store σ → Prop}
    {f : Summary → β → Step Store σ Summary} {bs : List β}
    (hf : ∀ b ∈ bs, ∀ m st, P st → ∃ m' st', f m b st = .ok m' st' ∧ P st') (m : Summary)
    (st : Service.State Store σ) (h : P st) :
    ∃ m' st', bs.foldlM f m st = .ok m' st' ∧ P st' := by
  induction bs generalizing m st with
  | nil => exact ⟨m, st, rfl, h⟩
  | cons b bs ih =>
    obtain ⟨l, t, hb, ht⟩ := hf b List.mem_cons_self m st h
    obtain ⟨m', st', hbs, h'⟩ := ih (fun b' hb' => hf b' (List.mem_cons_of_mem _ hb')) l t ht
    rw [List.foldlM_cons]
    exact ⟨m', st', bind_eq_ok_iff.mpr ⟨l, t, hb, hbs⟩, h'⟩

/-- What is declared of a key ring can be seeded. -/
structure KeyRingSeed.Seedable (n : KeyRingName) (seed : KeyRingSeed) : Prop where
  valid : n.Valid
  keys : ∀ k ∈ seed.cryptoKeys.entries, isId k.1 = true ∧ k.2.Supported
  numbered : ∀ k ∈ seed.cryptoKeys.entries, k.2.versions.length < versionNumberLimit

theorem exists_seedRing {d : KeyRingName × KeyRingSeed} (hs : st.store.WellFormed)
    (hd : d.2.Seedable d.1) :
    ∃ m' st', seedRing .ideal ctx₀ m d st = .ok m' st' ∧ st'.store.WellFormed := by
  obtain ⟨m₁, t, he⟩ : ∃ m₁ t, ensureRing .ideal ctx₀ d.1 m st = .ok m₁ t :=
    exists_ensureRing hd.valid
  -- The key ring stays, so that its crypto keys find it.
  have hstep : ∀ k ∈ d.2.cryptoKeys.entries, ∀ m (st : Service.State Store Unit),
      (st.store.WellFormed ∧ ∃ ring, st.store.findRing? d.1.resourceName = some ring) →
      ∃ m' st', seedKey .ideal ctx₀ (d.1.key k.1) k.2 m st = .ok m' st' ∧
        st'.store.WellFormed ∧ ∃ ring, st'.store.findRing? d.1.resourceName = some ring := by
    rintro k hk m st ⟨hs, ring, hring⟩
    obtain ⟨m', st', h⟩ : ∃ m' st', seedKey .ideal ctx₀ (d.1.key k.1) k.2 m st = .ok m' st' :=
      exists_seedKey hs ⟨hd.valid, (hd.keys k hk).1⟩ (hd.keys k hk).2 (hd.numbered k hk) hring
    have hseeds := seeds_seedKey hs h
    exact ⟨m', st', h, hseeds.wellFormed, ring, hseeds.grows.findRing? hring⟩
  obtain ⟨m', st', hk, hst, -⟩ := exists_foldlM hstep m₁ t
    ⟨(seeds_ensureRing hs he).wellFormed, (present_of_ensureRing he).2⟩
  rw [congrFun (seedRing_eq .ideal ctx₀ d) m]
  exact ⟨m', st', bind_eq_ok_iff.mpr ⟨m₁, t, he, hk⟩, hst⟩

theorem exists_seedAll {doc : Document} (hs : st.store.WellFormed)
    (hd : ∀ d ∈ doc.declared, d.2.Seedable d.1) :
    ∃ m' st', seedAll .ideal ctx₀ doc m st = .ok m' st' := by
  obtain ⟨m', st', h, -⟩ := exists_foldlM (P := fun st => st.store.WellFormed)
    (fun d hm _ _ hs => exists_seedRing hs (hd d hm)) m st hs
  exact ⟨m', st', h⟩

theorem exists_apply {env : Environment σ} {ctx : Context} {doc : Document} {s : Store} {w : σ}
    (hs : s.WellFormed) (hl : env.Sustained ctx w) (hd : ∀ d ∈ doc.declared, d.2.Seedable d.1) :
    ∃ m st, apply env ctx doc ⟨s, w⟩ = .ok m st ∧ env.Sustained ctx st.world := by
  obtain ⟨m, t, h⟩ : ∃ m t, seedAll .ideal ctx doc {} ⟨s.outline, ()⟩ = .ok m t :=
    exists_seedAll hs.redact hd
  exact ⟨m, exists_apply_of_ideal hl h⟩

end Passes

end KeyManagement.Seed
