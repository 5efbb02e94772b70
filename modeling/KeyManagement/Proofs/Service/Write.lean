import KeyManagement.Proofs.Service.AllOrNothing
import KeyManagement.Proofs.Service.Success
import KeyManagement.Proofs.Store.Growth
import KeyManagement.Proofs.Store.WellFormed
import Mathlib.Logic.Relation

/-! # What operations write

Whatever an operation does, it leaves the store as it is or makes one write, whose names
the grammar accepts and whose material the engine has made.
-/

namespace KeyManagement

variable {σ : Type} {env : Environment σ}

/-- Material that the engine may make. -/
def Environment.Generates (env : Environment σ) (material : KeyMaterial) : Prop :=
  ∃ ctx w w', env.engine.generate ctx w = .ok material w'

namespace Store

/-- One write of an operation, which succeeds. -/
inductive Writes (env : Environment σ) (s s' : Store) : Prop
  | createKeyRing {n : KeyRingName} {now : Timestamp} (hn : n.Valid)
      (hs : Store.createKeyRing ⟨n.resourceName, now⟩ s = .ok () s')
  | createCryptoKey {n : CryptoKeyName} {labels : Labels} {now later : Timestamp}
      {material : KeyMaterial} (hn : n.Valid) (hm : env.Generates material)
      (hs : Store.createCryptoKey n.parent.resourceName
        (Service.createdKey n labels (Service.firstVersion n now) later)
        (Service.firstVersion n now) material s = .ok () s')
  | createVersion {name : String} {key : CryptoKey} {material : KeyMaterial} {now : Timestamp}
      {version : CryptoKeyVersion} (hk : s.getCryptoKey name = .ok key)
      (hm : env.Generates material)
      (hs : Store.createNextVersion .checked name key.versionTemplate material now s =
        .ok version s')
  | setPrimary {name id : String} {key : CryptoKey}
      (hs : Store.setPrimary name (versionNameOf name id) s = .ok key s')

variable {s s' : Store}

theorem Writes.wellFormed (h : s.Writes env s') (hs : s.WellFormed) : s'.WellFormed := by
  cases h with
  | createKeyRing hn hc => exact hs.createKeyRing hc (KeyRingName.parse_resourceName hn)
  | createCryptoKey hn _ hc => exact hs.createCryptoKey hc hn rfl rfl
  | createVersion _ _ hc => exact hs.createNextVersion hc
  | setPrimary hc => exact hs.setPrimary hc

theorem Writes.grows (h : s.Writes env s') : s.Grows s' := by
  cases h with
  | createKeyRing _ hc => exact grows_createKeyRing hc
  | createCryptoKey _ _ hc => exact grows_createCryptoKey hc
  | createVersion _ _ hc => exact grows_createNextVersion hc
  | setPrimary hc => exact grows_setPrimary hc

theorem grows_of_writes (h : Relation.ReflTransGen (Writes env) s s') : s.Grows s' := by
  induction h with
  | refl => exact .refl s
  | tail _ hw ih => exact ih.trans hw.grows

theorem Writes.generated (h : s.Writes env s')
    (hs : EveryVersion (fun rec => env.Generates rec.material) s) :
    EveryVersion (fun rec => env.Generates rec.material) s' := by
  cases h with
  | createKeyRing _ hc => exact hs.createKeyRing hc
  | createCryptoKey hn hm hc =>
    exact hs.createCryptoKey hc (CryptoKeyName.parse_resourceName hn) rfl hm
  | createVersion _ hm hc =>
    obtain ⟨-, -, -, -, -, hc⟩ := createNextVersion_eq_ok_iff.mp hc
    exact hs.createVersion hc hm
  | setPrimary hc => exact hs.setPrimary hc

end Store

namespace Service

variable {ctx : Context} {op : Operation} {st st' : State Store σ} {r : Response}

/-- An operation that succeeds has made its one write, or is none that writes. -/
theorem writes_of_perform (h : perform env ctx op st = .ok r st') :
    st'.store = st.store ∨ st.store.Writes env st'.store := by
  cases op with
  | createKeyRing parent id =>
    obtain ⟨ring, h, -⟩ := map_eq_ok_iff.mp h
    obtain ⟨n, v, -, hr, -, rfl, hs⟩ := createKeyRing_eq_ok_iff.mp h
    obtain ⟨location, -, -, hn, rfl⟩ := ringRequest_eq_ok_iff.mp hr
    exact .inr (.createKeyRing hn hs)
  | createCryptoKey parent id spec =>
    obtain ⟨key, h, -⟩ := map_eq_ok_iff.mp h
    obtain ⟨n, labels, material, v, v', -, hr, hm, -, rfl, hs⟩ := createCryptoKey_eq_ok_iff.mp h
    exact .inr (.createCryptoKey (valid_of_keyRequest hr) ⟨ctx, v, v', hm⟩ hs)
  | createVersion parent =>
    obtain ⟨version, h, -⟩ := map_eq_ok_iff.mp h
    obtain ⟨n, key, material, v, v', -, -, hk, hm, -, hs⟩ := createVersion_eq_ok_iff.mp h
    exact .inr (.createVersion hk ⟨ctx, v, v', hm⟩ hs)
  | updatePrimary name id =>
    obtain ⟨key, h, -⟩ := map_eq_ok_iff.mp h
    obtain ⟨n, v, -, -, -, -, hs⟩ := updatePrimary_eq_ok_iff.mp h
    exact .inr (.setPrimary hs)
  | _ => exact .inl ((keeps_perform rfl).of_ok h)

/-- An operation leaves the store as it is or makes one write. -/
theorem perform_writes (op : Operation) (st : State Store σ) :
    Relation.ReflTransGen (Store.Writes env) st.store
      (finalState (perform env ctx op st)).store := by
  cases h : perform env ctx op st with
  | error e st' =>
    rw [finalState, store_of_perform_error h]
  | ok r st' =>
    rw [finalState]
    rcases writes_of_perform h with hs | hs
    · rw [hs]
    · exact .single hs

end Service

end KeyManagement
