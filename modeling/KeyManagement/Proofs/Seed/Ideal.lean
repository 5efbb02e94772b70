import KeyManagement.Proofs.Seed.Mirror
import KeyManagement.Proofs.Service.Creation
import KeyManagement.Proofs.Service.Ideal

/-! # Seeding in the ideal environment

Unless one of its operations is interrupted, a seeding does what it does in the ideal
environment, apart from times and material. There, a stage whose resource is present changes
nothing.
-/

namespace KeyManagement.Seed

variable {σ α : Type} {env : Environment σ} {ctx ctx₀ : Context} {m : Summary}

theorem Step.Tracks.of_ok {x : Step Store σ α} {y : Step Store Unit α} {I : ServiceError → Prop}
    {st st' : Service.State Store σ} {a : α}
    (h : Step.Tracks .blank (fun _ _ => True) I Eq x y) (hx : x st = .ok a st') :
    y st.outline = .ok a st'.outline := by
  have hm := h st st.outline ⟨rfl, trivial⟩
  rw [hx] at hm
  obtain ⟨_, t, hy, ht, rfl⟩ := hm.of_ok
  rw [hy, ht.eq_outline]

/-- Where nothing is interrupted, a seeding succeeds if it does in the ideal environment. -/
theorem exists_apply_of_ideal {doc : Document} {s : Store} {w : σ} {st : Service.State Store Unit}
    (h : env.Sustained ctx w) (hs : seedAll .ideal ctx₀ doc {} ⟨s.outline, ()⟩ = .ok m st) :
    ∃ st', apply env ctx doc ⟨s, w⟩ = .ok m st' ∧ env.Sustained ctx st'.world := by
  have hm := tracks_seedAll (env.mirrors_ideal_sustained ctx ctx₀) (fun _ => False.elim) doc {}
    ⟨s, w⟩ ⟨s.outline, ()⟩ ⟨rfl, h⟩
  rw [hs] at hm
  obtain ⟨_, st', hk, hl, rfl⟩ := hm.exists_of_ok ApplyError.not_failsWith
  exact ⟨st', hk, hl.world⟩

section Present

variable {st : Service.State Store Unit}

theorem ensureRing_of_present {n : KeyRingName} {ring : KeyRing} (hn : n.Valid)
    (h : st.store.findRing? n.resourceName = some ring) (m : Summary) :
    ensureRing .ideal ctx₀ n m st = .ok m st := by
  have hr : Service.ringRequest n.parent.resourceName n.keyRing = .ok n :=
    Service.ringRequest_resourceName.mpr ⟨rfl, hn⟩
  have hp : Service.perform .ideal ctx₀ (.createKeyRing n.parent.resourceName n.keyRing) st =
      .error (.failed (.store (.alreadyExists .keyRing n.resourceName))) st :=
    Service.perform_createKeyRing_of_present rfl rfl hr h
  exact bind_eq_of_ok (ensure_eq_ok_iff.mpr (.inr ⟨rfl, _, rfl, hp⟩))

theorem ensureKey_of_present {n : CryptoKeyName} {labels : Labels} {r : KeyRecord} (hn : n.Valid)
    (h : st.store.findKey? n.resourceName = some r) (m : Summary) :
    ensureKey .ideal ctx₀ n labels m st = .ok m st := by
  have hr : Service.keyRequest n.parent.resourceName n.cryptoKey
      (some { purpose := .encryptDecrypt, labels }) = .ok (n, labels) :=
    Service.keyRequest_resourceName.mpr ⟨rfl, rfl, hn⟩
  have hp : Service.perform .ideal ctx₀ (.createCryptoKey n.parent.resourceName n.cryptoKey
      (some { purpose := .encryptDecrypt, labels })) st =
        .error (.failed (.store (.alreadyExists .cryptoKey n.resourceName))) st :=
    Service.perform_createCryptoKey_of_present rfl rfl rfl hr h
  exact bind_eq_of_ok (ensure_eq_ok_iff.mpr (.inr ⟨rfl, _, rfl, hp⟩))

theorem topUp_of_present {n : CryptoKeyName} {r : KeyRecord}
    (h : st.store.findKey? n.resourceName = some r) (wanted : Nat) (m : Summary) :
    topUp .ideal ctx₀ n wanted m st =
      (createVersions .ideal ctx₀ n.resourceName (wanted - r.versions.values.length) >>=
        fun _ => pure { m with versions := m.versions + (wanted - r.versions.values.length) })
          st := by
  have hl : Service.perform .ideal ctx₀ (.listVersions n.resourceName "") st =
      .ok (.versions (r.versions.values.map (·.version))) st :=
    Service.perform_listVersions_of_present rfl h
  have hcount : versionCount (.versions (r.versions.values.map (·.version))) =
      r.versions.values.length := List.length_map _
  rw [← hcount]
  exact bind_eq_of_ok (adaptExcept_eq_ok_iff.mpr hl)

end Present

end KeyManagement.Seed
