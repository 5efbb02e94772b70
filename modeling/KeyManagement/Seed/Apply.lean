import KeyManagement.Seed.Document
import KeyManagement.Service.Basic

/-! # Seeding

Everything that a seed document declares is created through the operations of the service,
key ring by key ring in the order of their identifiers. What exists already is kept, and a
crypto key is given as many versions as are declared, so that seeding twice adds nothing.
-/

namespace KeyManagement.Seed

/-- What a seeding failed to create. -/
inductive Subject
  | keyRing
  | cryptoKey
  | cryptoKeyVersion
  deriving DecidableEq, Repr

def Subject.label : Subject → String
  | .keyRing => ResourceKind.keyRing.label
  | .cryptoKey => ResourceKind.cryptoKey.label
  | .cryptoKeyVersion => ResourceKind.cryptoKeyVersion.label

inductive ApplyError
  | unsupportedPurpose (key purpose : String)
  | create (subject : Subject) (name : String) (cause : ServiceError)
  deriving DecidableEq, Repr

def ApplyError.message : ApplyError → String
  | .unsupportedPurpose key purpose => "unsupported purpose in seed for " ++ key ++ ": " ++ purpose
  | .create subject name cause =>
    "create " ++ subject.label ++ " " ++ name ++ ": " ++ cause.status.describe

/-- How many resources a seeding created; the first version of a key is not counted. -/
structure Summary where
  keyRings : Nat := 0
  cryptoKeys : Nat := 0
  versions : Nat := 0
  deriving DecidableEq, Repr

/-- The declared key rings in the order in which they are seeded. -/
def Document.declared (doc : Document) : List (KeyRingName × KeyRingSeed) :=
  doc.projects.entries.flatMap fun (project, p) =>
    p.locations.entries.flatMap fun (location, l) =>
      l.keyRings.entries.map fun (ring, r) => (⟨⟨project, location⟩, ring⟩, r)

variable {S σ : Type} [KeyStore S] (env : Environment σ) (ctx : Context)

/-- A step of a seeding. -/
abbrev Step (S σ α : Type) := EStateM (Stop ApplyError) (Service.State S σ) α

/-- Performs an operation, and reports its failure as one to create the subject. -/
def attempt (subject : Subject) (name : String) (op : Operation) : Step S σ Response :=
  (Service.perform env ctx op).adaptExcept (.map (.create subject name))

/-- Whether the resource was created, and not there before. -/
def ensure (subject : Subject) (name : String) (op : Operation) : Step S σ Bool := fun st =>
  match Service.perform env ctx op st with
  | .ok _ st => .ok true st
  | .error (.failed e) st =>
    if e.code = .alreadyExists then .ok false st else .error (.failed (.create subject name e)) st
  | .error .overflow st => .error .overflow st

def versionCount : Response → Nat
  | .versions vs => vs.length
  | _ => 0

/-- Creates versions one after another. -/
def createVersions (key : String) : (count : Nat) → Step S σ Unit
  | 0 => pure ()
  | n + 1 => do
    discard <| attempt env ctx .cryptoKeyVersion key (.createVersion key)
    createVersions key n

def seedKey (name : CryptoKeyName) (seed : CryptoKeySeed) (summary : Summary) :
    Step S σ Summary := do
  let key := name.resourceName
  if seed.purpose ≠ "" ∧ seed.purpose ≠ "ENCRYPT_DECRYPT" then
    throw (.failed (.unsupportedPurpose key seed.purpose))
  let created ← ensure env ctx .cryptoKey key
    (.createCryptoKey name.parent.resourceName name.cryptoKey
      (some { purpose := .encryptDecrypt, labels := seed.labels }))
  let existing ← attempt env ctx .cryptoKeyVersion key (.listVersions key "")
  let missing := seed.versions.length - versionCount existing
  createVersions env ctx key missing
  return { summary with
    cryptoKeys := summary.cryptoKeys + (if created then 1 else 0)
    versions := summary.versions + missing }

def seedRing (summary : Summary) (declared : KeyRingName × KeyRingSeed) : Step S σ Summary := do
  let (name, seed) := declared
  let created ← ensure env ctx .keyRing name.resourceName
    (.createKeyRing name.parent.resourceName name.keyRing)
  let summary :=
    { summary with keyRings := summary.keyRings + (if created then 1 else 0) }
  seed.cryptoKeys.entries.foldlM
    (fun summary (id, key) => seedKey env ctx (name.key id) key summary) summary

/-- Seeds everything that the document declares. -/
def apply (doc : Document) : Step S σ Summary :=
  doc.declared.foldlM (seedRing env ctx) {}

end KeyManagement.Seed
