import KeyManagement.Store.Basic

/-! # Stores

The accesses that every store offers, met by the store of records itself and by one
that withholds the primary version of each crypto key that is read by name.
-/

namespace KeyManagement

class KeyStore (S : Type) where
  getKeyRing : String → Access S KeyRing
  listKeyRings : String → Access S (List KeyRing)
  getCryptoKey : String → Access S CryptoKey
  listCryptoKeys : String → Access S (List CryptoKey)
  getVersion : String → Access S (CryptoKeyVersion × KeyMaterial)
  listVersions : String → Access S (List CryptoKeyVersion)
  createKeyRing : KeyRing → Access S Unit
  createCryptoKey : (ring : String) → CryptoKey → (primary : CryptoKeyVersion) → KeyMaterial →
    Access S Unit
  createVersion : (key : String) → CryptoKeyVersion → KeyMaterial → Access S Unit
  createNextVersion : (key : String) → VersionTemplate → KeyMaterial → Timestamp →
    Access S CryptoKeyVersion
  setPrimary : (key version : String) → Access S CryptoKey

instance : KeyStore Store where
  getKeyRing name := Store.look (·.getKeyRing name)
  listKeyRings parent := Store.look fun s => .ok (s.listKeyRings parent)
  getCryptoKey name := Store.look (·.getCryptoKey name)
  listCryptoKeys parent := Store.look (·.listCryptoKeys parent)
  getVersion name := Store.look (·.getVersion name)
  listVersions parent := Store.look (·.listVersions parent)
  createKeyRing := Store.createKeyRing
  createCryptoKey := Store.createCryptoKey
  createVersion := Store.createVersion
  createNextVersion := Store.createNextVersion .checked
  setPrimary := Store.setPrimary

/-- A store that does not say which version of a crypto key is its primary. -/
structure PrimaryWithheld where
  store : Store

namespace PrimaryWithheld

def access {α : Type} (x : Access Store α) : Access PrimaryWithheld α := fun s =>
  match x s.store with
  | .ok a store => .ok a ⟨store⟩
  | .error e store => .error e ⟨store⟩

instance : KeyStore PrimaryWithheld where
  getKeyRing name := access (KeyStore.getKeyRing name)
  listKeyRings parent := access (KeyStore.listKeyRings parent)
  getCryptoKey name := do
    let key ← access (KeyStore.getCryptoKey name)
    return { key with primary := none }
  listCryptoKeys parent := access (KeyStore.listCryptoKeys parent)
  getVersion name := access (KeyStore.getVersion name)
  listVersions parent := access (KeyStore.listVersions parent)
  createKeyRing ring := access (KeyStore.createKeyRing ring)
  createCryptoKey ring key primary material :=
    access (KeyStore.createCryptoKey ring key primary material)
  createVersion key version material := access (KeyStore.createVersion key version material)
  createNextVersion key template material now :=
    access (KeyStore.createNextVersion key template material now)
  setPrimary key version := access (KeyStore.setPrimary key version)

end PrimaryWithheld

end KeyManagement
