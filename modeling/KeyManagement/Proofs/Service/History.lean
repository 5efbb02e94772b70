import KeyManagement.Engine.Random
import KeyManagement.Proofs.Seed.Write

/-! # Histories of a service

A history is a sequence of operations and seedings, with any change of the world between
them. The store that a history leads to is well formed, and it holds all that was found on
the way there.
-/

namespace KeyManagement.Service

variable {σ : Type} (env : Environment σ)

/-- What happens to a service. Between two calls the world may change in any way: contexts
are made and cancelled, and clocks advance. -/
inductive Event (σ : Type)
  | perform (ctx : Context) (op : Operation)
  | seed (ctx : Context) (doc : Seed.Document)
  | elapse (w : σ)

def Event.apply (st : State Store σ) : Event σ → State Store σ
  | .perform ctx op => finalState (Service.perform env ctx op st)
  | .seed ctx doc => finalState (Seed.apply env ctx doc st)
  | .elapse w => { st with world := w }

/-- The state that a history leads to. Calls that fail are part of it. -/
def run (st : State Store σ) (history : List (Event σ)) : State Store σ :=
  history.foldl (Event.apply env) st

theorem writes_event (st : State Store σ) (event : Event σ) :
    Relation.ReflTransGen (Store.Writes env) st.store (event.apply env st).store := by
  cases event with
  | perform ctx op => exact perform_writes op st
  | seed ctx doc => exact (Seed.performs_apply doc).writes st
  | elapse w => exact .refl

theorem writes_run (st : State Store σ) (history : List (Event σ)) :
    Relation.ReflTransGen (Store.Writes env) st.store (run env st history).store := by
  induction history generalizing st with
  | nil => exact .refl
  | cons event history ih => exact (writes_event env st event).trans (ih _)

/-- What one write preserves, a history preserves. -/
theorem run_induction {P : Store → Prop} (hP : ∀ s s', s.Writes env s' → P s → P s')
    {st : State Store σ} (h : P st.store) (history : List (Event σ)) :
    P (run env st history).store := by
  have hw : Relation.ReflTransGen (Store.Writes env) st.store (run env st history).store :=
    writes_run env st history
  generalize (run env st history).store = s at hw
  induction hw with
  | refl => exact h
  | tail _ hw ih => exact hP _ _ hw ih

theorem grows_run (st : State Store σ) (history : List (Event σ)) :
    st.store.Grows (run env st history).store :=
  Store.grows_of_writes (writes_run env st history)

theorem wellFormed_run {st : State Store σ} (h : st.store.WellFormed)
    (history : List (Event σ)) : (run env st history).store.WellFormed :=
  run_induction env (fun _ _ hw => hw.wellFormed) h history

theorem generated_run {st : State Store σ}
    (h : st.store.EveryVersion fun rec => env.Generates rec.material)
    (history : List (Event σ)) :
    (run env st history).store.EveryVersion fun rec => env.Generates rec.material :=
  run_induction env (fun _ _ hw => hw.generated) h history

/-- A state that a service comes to which starts without resources. -/
def Reachable (st : State Store σ) : Prop :=
  ∃ w history, st = run env ⟨.empty, w⟩ history

variable {env}

theorem Reachable.wellFormed {st : State Store σ} (h : Reachable env st) :
    st.store.WellFormed := by
  obtain ⟨w, history, rfl⟩ := h
  exact wellFormed_run env Store.wellFormed_empty history

theorem Reachable.generated {st : State Store σ} (h : Reachable env st) :
    st.store.EveryVersion fun rec => env.Generates rec.material := by
  obtain ⟨w, history, rfl⟩ := h
  exact generated_run env Store.everyVersion_empty history

/-- Whatever happens to a service that starts without resources, under whatever engine and
contexts, its store is well formed. -/
theorem history_wellFormed (env : Environment σ) (w : σ) (history : List (Event σ)) :
    (run env ⟨.empty, w⟩ history).store.WellFormed :=
  wellFormed_run env Store.wellFormed_empty history

end KeyManagement.Service

/-! A small history to try statements on: two crypto keys in one key ring, under a context
that never expires. -/

namespace KeyManagement.Sample

open Service

def world : World Generator where
  time := ⟨⟨2025, 1, 1, by decide⟩, ⟨0, 0, 0, 0, by decide, by decide, by decide, by decide⟩⟩
  entropy := .ofSeed []

def env : Environment (World Generator) := World.environment Engine.random

def ctx : Context := world.background.1

def key (id : String) : String := "projects/p/locations/l/keyRings/r/cryptoKeys/" ++ id

def creation : List (Event (World Generator)) :=
  [.perform ctx (.createKeyRing "projects/p/locations/l" "r"),
    .perform ctx (.createCryptoKey "projects/p/locations/l/keyRings/r" "k"
      (some { purpose := .encryptDecrypt })),
    .perform ctx (.createCryptoKey "projects/p/locations/l/keyRings/r" "k2"
      (some { purpose := .encryptDecrypt })),
    .elapse (world.advance 1)]

def created : State Store (World Generator) := run env ⟨.empty, world⟩ creation

theorem reachable_created : Reachable env created := ⟨world, creation, rfl⟩

/-- The first crypto key gets another primary. -/
def rotation : List (Event (World Generator)) :=
  [.perform ctx (.createVersion (key "k")), .perform ctx (.updatePrimary (key "k") "2"),
    .elapse (world.advance 1)]

theorem exists_findKey?_created {id : String} (h : id = "k" ∨ id = "k2") :
    ∃ record, created.store.findKey? (key id) = some record := by
  apply Option.isSome_iff_exists.mp
  rcases h with rfl | rfl
  · decide +kernel
  · decide +kernel

def request : EncryptRequest := { name := key "k", plaintext := [1, 2, 3] }

def isEncrypted {σ : Type} : EStateM.Result (Stop ServiceError) (State Store σ) Response → Bool
  | .ok (.encrypted _) _ => true
  | _ => false

theorem exists_of_isEncrypted {σ : Type}
    {x : EStateM.Result (Stop ServiceError) (State Store σ) Response} (h : isEncrypted x = true) :
    ∃ r st, x = .ok (.encrypted r) st := by
  unfold isEncrypted at h
  split at h
  · exact ⟨_, _, rfl⟩
  · contradiction

theorem exists_encrypted :
    ∃ r st, perform env ctx (.encrypt request) created = .ok (.encrypted r) st :=
  exists_of_isEncrypted (by decide +kernel)

end KeyManagement.Sample
