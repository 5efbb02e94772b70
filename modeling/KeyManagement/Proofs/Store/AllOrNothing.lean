import KeyManagement.Proofs.AllOrNothing
import KeyManagement.Proofs.Store.Lookup

/-! # Failing accesses

Reads change nothing in a store. Each write makes its checks first, so that there is nothing
to take back when one of them fails.
-/

namespace KeyManagement.Store

section Checks

variable {α : Type}

theorem keeps_look (f : Store → Except StoreError α) : Keeps id (look f) :=
  Keeps.get.bind fun s => .ofResultAs _ (f s)

theorem keeps_vacant (resource : ResourceKind) (filed : Keyed α) (name : String) :
    Keeps id (vacant resource filed name) := by
  unfold vacant
  split
  · exact .throw _
  · exact .pure _

theorem keeps_nextNumber (build : Build) (record : KeyRecord) :
    Keeps id (nextNumber build record) := by
  unfold nextNumber
  split
  · exact .pure _
  · exact .throw _

end Checks

section Writes

theorem allOrNothing_createKeyRing (ring : KeyRing) : AllOrNothing id (createKeyRing ring) :=
  .bind .get fun _ => .bind (keeps_vacant _ _ _) fun _ => .modify _

theorem allOrNothing_createCryptoKey (ring : String) (key : CryptoKey)
    (primary : CryptoKeyVersion) (material : KeyMaterial) :
    AllOrNothing id (createCryptoKey ring key primary material) :=
  .bind (keeps_look _) fun _ => .bind (keeps_vacant _ _ _) fun _ => .modify _

theorem allOrNothing_createVersion (key : String) (version : CryptoKeyVersion)
    (material : KeyMaterial) : AllOrNothing id (createVersion key version material) :=
  .bind (keeps_look _) fun _ => .bind (keeps_vacant _ _ _) fun _ => .modify _

theorem allOrNothing_createNextVersion (build : Build) (key : String)
    (template : VersionTemplate) (material : KeyMaterial) (now : Timestamp) :
    AllOrNothing id (createNextVersion build key template material now) :=
  .bind (keeps_look _) fun record => .bind (keeps_nextNumber build record) fun _ =>
    .bind (keeps_vacant _ _ _) fun _ => .bind_pure (.modify _) _

theorem allOrNothing_setPrimary (key version : String) :
    AllOrNothing id (setPrimary key version) := by
  refine .bind (keeps_look _) fun record => ?_
  cases record.versions.find? version with
  | none => exact (Keeps.throw _).allOrNothing
  | some found => exact .bind_pure (.modify _) _

end Writes

end KeyManagement.Store
