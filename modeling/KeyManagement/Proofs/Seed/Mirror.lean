import KeyManagement.Proofs.Seed.Outcome
import KeyManagement.Proofs.Service.Mirror

/-! # Seeding in a mirror

A seeding is made of operations that use no material. In an environment that mirrors another
one it does the same, unless one of the operations is interrupted.
-/

namespace KeyManagement.Seed

variable {σ τ α β : Type} {env : Environment σ} {env' : Environment τ} {ctx ctx' : Context}
  {ρ : Redaction} {R : σ → τ → Prop} {I : ServiceError → Prop} {m : Summary}

/-- A failure to create something that has one of the causes `I`. -/
def ApplyError.CausedBy (I : ServiceError → Prop) : ApplyError → Prop
  | .create _ _ cause => I cause
  | .unsupportedPurpose _ _ => False

theorem ApplyError.not_failsWith (e : Stop ApplyError) :
    ¬ e.FailsWith (ApplyError.CausedBy fun _ => False) := by
  rcases e with ⟨_ | _⟩ | _ <;> exact id

abbrev Step.Tracks (ρ : Redaction) (R : σ → τ → Prop) (I : ServiceError → Prop)
    (Q : α → β → Prop) (x : Step Store σ α) (y : Step Store τ β) : Prop :=
  KeyManagement.Tracks (Service.State.Mirrors ρ R) (Stop.FailsWith (ApplyError.CausedBy I)) Q x y

section Operations

variable {op : Operation} (h : env.Mirrors ctx env' ctx' ρ R I) (hop : op.keyless)
  (subject : Subject) (name : String)
include h hop

theorem tracks_attempt : Step.Tracks ρ R I (Response.Mirrors ρ)
    (attempt env ctx subject name op) (attempt env' ctx' subject name op) :=
  (Service.tracks_perform h hop).adaptExcept fun e he => by
    cases e with
    | failed cause => exact he
    | overflow => exact he

/-- No interruption may be mistaken for the presence of what is to be created. -/
theorem tracks_ensure (hI : ∀ e, I e → e.code ≠ .alreadyExists) :
    Step.Tracks ρ R I Eq (ensure env ctx subject name op)
      (ensure env' ctx' subject name op) := by
  intro st st' hst
  have hm := Service.tracks_perform h hop st st' hst
  unfold ensure
  generalize Service.perform env ctx op st = x, Service.perform env' ctx' op st' = y at hm
  cases hm with
  | ok hw _ => exact .ok hw rfl
  | @error e w v hw =>
    cases e with
    | overflow => exact .error _ hw
    | failed e =>
      dsimp only
      split
      · exact .ok hw rfl
      · exact .error _ hw
  | @interrupted e hi w y =>
    cases e with
    | overflow => exact hi.elim
    | failed e =>
      have hfails : (Stop.failed (.create subject name e)).FailsWith (ApplyError.CausedBy I) := hi
      dsimp only
      rw [if_neg (hI e hi)]
      exact .interrupted hfails _ _

theorem tracks_counted (hI : ∀ e, I e → e.code ≠ .alreadyExists) (count : Bool → Summary) :
    Step.Tracks ρ R I Eq
      (ensure env ctx subject name op >>= fun created => pure (count created))
      (ensure env' ctx' subject name op >>= fun created => pure (count created)) := by
  refine (tracks_ensure h hop subject name hI).bind ?_
  rintro created _ rfl
  exact .pure rfl

end Operations

section Stages

theorem tracks_createVersions (h : env.Mirrors ctx env' ctx' ρ R I) (key : String) (k : Nat) :
    Step.Tracks ρ R I Eq (createVersions env ctx key k) (createVersions env' ctx' key k) := by
  induction k with
  | zero => exact .pure rfl
  | succ k ih => exact (tracks_attempt h rfl _ _).discard.bind fun _ _ _ => ih

theorem versionCount_mirror {r r' : Response} (h : r.Mirrors ρ r') :
    versionCount r' = versionCount r := by
  cases h with
  | encrypted _ => rfl
  | redacted =>
    cases r with
    | versions vs => exact List.length_map _
    | _ => rfl

theorem tracks_ensureRing (h : env.Mirrors ctx env' ctx' ρ R I)
    (hI : ∀ e, I e → e.code ≠ .alreadyExists) (n : KeyRingName) :
    Step.Tracks ρ R I Eq (ensureRing env ctx n m) (ensureRing env' ctx' n m) :=
  tracks_counted h rfl _ _ hI _

theorem tracks_checkPurpose (n : CryptoKeyName) (purpose : String) :
    Step.Tracks ρ R I Eq (checkPurpose n purpose m) (checkPurpose n purpose m) := by
  unfold checkPurpose
  split
  · exact .throw _
  · exact .pure rfl

theorem tracks_ensureKey (h : env.Mirrors ctx env' ctx' ρ R I)
    (hI : ∀ e, I e → e.code ≠ .alreadyExists) (n : CryptoKeyName) (labels : Labels) :
    Step.Tracks ρ R I Eq (ensureKey env ctx n labels m) (ensureKey env' ctx' n labels m) :=
  tracks_counted h rfl _ _ hI _

theorem tracks_topUp (h : env.Mirrors ctx env' ctx' ρ R I) (n : CryptoKeyName) (wanted : Nat) :
    Step.Tracks ρ R I Eq (topUp env ctx n wanted m) (topUp env' ctx' n wanted m) := by
  refine (tracks_attempt h rfl _ _).bind fun r r' hr => ?_
  rw [versionCount_mirror hr]
  exact (tracks_createVersions h _ _).bind fun _ _ _ => .pure rfl

theorem tracks_seedAll (h : env.Mirrors ctx env' ctx' ρ R I)
    (hI : ∀ e, I e → e.code ≠ .alreadyExists) (doc : Document) (m : Summary) :
    Step.Tracks ρ R I Eq (seedAll env ctx doc m) (seedAll env' ctx' doc m) := by
  refine seedAll_induction (P := fun F G => ∀ m, Step.Tracks ρ R I Eq (F m) (G m))
    env ctx env' ctx' (fun _ => .pure rfl) ?_ (fun n _ => tracks_ensureRing h hI n)
    (fun n purpose _ => tracks_checkPurpose n purpose)
    (fun n labels _ => tracks_ensureKey h hI n labels) (fun n wanted _ => tracks_topUp h n wanted)
    doc m
  intro F F' G G' hF hF' m
  refine (hF m).bind ?_
  rintro l _ rfl
  exact hF' l

end Stages

end KeyManagement.Seed
