import KeyManagement.Seed.Apply

/-! # The stages of a seeding

A seeding goes from stage to stage: for every declared key ring one that makes sure of the
key ring, and for every declared crypto key three, which look at its purpose, make sure of the
key, and create the versions that it lacks. Every stage adds to the summary of those before.
-/

namespace KeyManagement.Seed

variable {S σ : Type}

abbrev Stage (S σ : Type) := Summary → Step S σ Summary

section Stages

variable [KeyStore S] (env : Environment σ) (ctx : Context)

def ensureRing (n : KeyRingName) : Stage S σ := fun m => do
  let created ← ensure env ctx .keyRing n.resourceName
    (.createKeyRing n.parent.resourceName n.keyRing)
  return { m with keyRings := m.keyRings + (if created then 1 else 0) }

def checkPurpose (n : CryptoKeyName) (purpose : String) : Stage S σ := fun m =>
  if purpose ≠ "" ∧ purpose ≠ "ENCRYPT_DECRYPT" then
    throw (.failed (.unsupportedPurpose n.resourceName purpose))
  else pure m

def ensureKey (n : CryptoKeyName) (labels : Labels) : Stage S σ := fun m => do
  let created ← ensure env ctx .cryptoKey n.resourceName
    (.createCryptoKey n.parent.resourceName n.cryptoKey
      (some { purpose := .encryptDecrypt, labels }))
  return { m with cryptoKeys := m.cryptoKeys + (if created then 1 else 0) }

/-- Creates versions until there are as many as are wanted. -/
def topUp (n : CryptoKeyName) (wanted : Nat) : Stage S σ := fun m => do
  let existing ← attempt env ctx .cryptoKeyVersion n.resourceName
    (.listVersions n.resourceName "")
  createVersions env ctx n.resourceName (wanted - versionCount existing)
  return { m with versions := m.versions + (wanted - versionCount existing) }

theorem seedKey_eq (n : CryptoKeyName) (seed : CryptoKeySeed) :
    (seedKey env ctx n seed : Stage S σ) =
      (checkPurpose n seed.purpose >=> ensureKey env ctx n seed.labels >=>
        topUp env ctx n seed.versions.length) := by
  funext m
  change seedKey env ctx n seed m =
    checkPurpose n seed.purpose m >>= fun m =>
      ensureKey env ctx n seed.labels m >>= topUp env ctx n seed.versions.length
  unfold seedKey checkPurpose
  dsimp only
  split
  · rfl
  · simp only [ensureKey, topUp, bind_assoc, pure_bind]

theorem seedRing_eq (d : KeyRingName × KeyRingSeed) :
    (fun m => seedRing env ctx m d : Stage S σ) =
      (ensureRing env ctx d.1 >=> fun m =>
        d.2.cryptoKeys.entries.foldlM (fun m k => seedKey env ctx (d.1.key k.1) k.2 m) m) := by
  funext m
  change seedRing env ctx m d = ensureRing env ctx d.1 m >>= fun m =>
    d.2.cryptoKeys.entries.foldlM (fun m k => seedKey env ctx (d.1.key k.1) k.2 m) m
  simp only [seedRing, ensureRing, bind_assoc, pure_bind]

/-- Seeds everything that the document declares, after what is summed up already. -/
def seedAll (doc : Document) : Stage S σ := fun m => doc.declared.foldlM (seedRing env ctx) m

end Stages

section Induction

variable {τ β : Type} {P : Stage S σ → Stage S τ → Prop}

theorem foldlM_induction (pure : P pure pure)
    (comp : ∀ {F F' G G'}, P F G → P F' G' → P (F >=> F') (G >=> G'))
    {f : Summary → β → Step S σ Summary} {g : Summary → β → Step S τ Summary} {bs : List β}
    (step : ∀ b, P (fun m => f m b) (fun m => g m b)) :
    P (fun m => bs.foldlM f m) (fun m => bs.foldlM g m) := by
  induction bs with
  | nil => exact pure
  | cons b bs ih =>
    simp only [List.foldlM_cons]
    exact comp (step b) ih

/-- What relates the stages of a seeding in two environments, and composed stages, relates the
seedings. -/
theorem seedAll_induction [KeyStore S] (env : Environment σ) (ctx : Context)
    (env' : Environment τ) (ctx' : Context) (pure : P pure pure)
    (comp : ∀ {F F' G G'}, P F G → P F' G' → P (F >=> F') (G >=> G'))
    (ensureRing : ∀ n, P (ensureRing env ctx n) (ensureRing env' ctx' n))
    (checkPurpose : ∀ n purpose, P (checkPurpose n purpose) (checkPurpose n purpose))
    (ensureKey : ∀ n labels, P (ensureKey env ctx n labels) (ensureKey env' ctx' n labels))
    (topUp : ∀ n wanted, P (topUp env ctx n wanted) (topUp env' ctx' n wanted))
    (doc : Document) : P (seedAll env ctx doc) (seedAll env' ctx' doc) := by
  refine foldlM_induction pure comp fun d => ?_
  rw [seedRing_eq, seedRing_eq]
  refine comp (ensureRing d.1) (foldlM_induction pure comp fun k => ?_)
  change P (seedKey env ctx (d.1.key k.1) k.2) (seedKey env' ctx' (d.1.key k.1) k.2)
  rw [seedKey_eq, seedKey_eq]
  exact comp (checkPurpose _ _) (comp (ensureKey _ _) (topUp _ _))

end Induction

end KeyManagement.Seed
