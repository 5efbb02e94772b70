import KeyManagement.Proofs.Service.Step
import KeyManagement.Proofs.Store.Redaction

/-! # One environment as the mirror of another

An environment mirrors another one if it shows redacted times and makes redacted material, and
otherwise does the same. On the redacted store, operations do there what they do in the other
environment, unless that interrupts them, and answer with the redacted records.
-/

namespace KeyManagement

def Response.redact (ρ : Redaction) : Response → Response
  | .keyRing ring => .keyRing (ring.redact ρ)
  | .keyRings rings => .keyRings (rings.map (·.redact ρ))
  | .cryptoKey key => .cryptoKey (key.redact ρ)
  | .cryptoKeys keys => .cryptoKeys (keys.map (·.redact ρ))
  | .version v => .version (v.redact ρ)
  | .versions vs => .versions (vs.map (·.redact ρ))
  | .encrypted r => .encrypted r
  | .decrypted r => .decrypted r

/-- Encryption and decryption are the only operations that use material. -/
def Operation.keyless : Operation → Bool
  | .encrypt _ => false
  | .decrypt _ => false
  | _ => true

/-- Answers to one encryption under different material. -/
structure EncryptResponse.Alike (r r' : EncryptResponse) : Prop where
  name : r.name = r'.name
  verifiedPlaintext : r.verifiedPlaintext = r'.verifiedPlaintext
  verifiedAad : r.verifiedAad = r'.verifiedAad
  length : r.ciphertext.length = r'.ciphertext.length

/-- An answer and the one of the mirror. -/
inductive Response.Mirrors (ρ : Redaction) : Response → Response → Prop
  | redacted (r : Response) : Mirrors ρ r (r.redact ρ)
  | encrypted {r r' : EncryptResponse} (h : r.Alike r') : Mirrors ρ (.encrypted r) (.encrypted r')

variable {σ τ : Type} {env : Environment σ} {env' : Environment τ} {ctx ctx' : Context}
  {ρ : Redaction} {R : σ → τ → Prop} {I : ServiceError → Prop}

/-- The second environment mirrors the first, unless it interrupts, in the worlds that `R`
relates to those of the first. -/
structure Environment.Mirrors (env : Environment σ) (ctx : Context) (env' : Environment τ)
    (ctx' : Context) (ρ : Redaction) (R : σ → τ → Prop) (I : ServiceError → Prop) : Prop where
  time : ∀ {w v}, R w v → env'.time v = ρ.time (env.time w)
  timeAgain : ∀ {w v}, R w v → env'.timeAgain v = ρ.time (env.timeAgain w)
  check : Tracks R I (fun _ _ => True) ((env.check ctx).adaptExcept .context)
    ((env'.check ctx').adaptExcept .context)
  generate : Tracks R I (fun m m' => m' = ρ.material m)
    ((env.engine.generate ctx).adaptExcept (.engine .generate))
    ((env'.engine.generate ctx').adaptExcept (.engine .generate))

namespace Service

/-- A state and one whose store and world are related to it. -/
structure State.Related (Rs : Store → Store → Prop) (R : σ → τ → Prop) (st : State Store σ)
    (st' : State Store τ) : Prop where
  store : Rs st.store st'.store
  world : R st.world st'.world

/-- A state and one of the mirror. -/
abbrev State.Mirrors (ρ : Redaction) (R : σ → τ → Prop) (st : State Store σ)
    (st' : State Store τ) : Prop :=
  st.Related (Store.Redacted ρ) R st'

section Steps

variable {α β ε : Type} {Rs : Store → Store → Prop} {Q : α → β → Prop}

theorem tracks_demand (r : Except ServiceError α) :
    Tracks (State.Related Rs R) (Stop.FailsWith I) Eq (demand r) (demand r) := by
  cases r with
  | ok a => exact .pure rfl
  | error e => exact .throw (Stop.failed e)

theorem tracks_demandAs (f : ε → ServiceError) (r : Except ε α) :
    Tracks (State.Related Rs R) (Stop.FailsWith I) Eq (demandAs f r) (demandAs f r) :=
  tracks_demand _

theorem inWorld_adaptExcept (f : ε → ServiceError) (x : EStateM ε σ α) :
    (inWorld f x : Action Store σ α) = inWorld id (x.adaptExcept f) := by
  funext st
  unfold inWorld EStateM.adaptExcept
  cases x st.world <;> rfl

theorem tracks_inWorld {f : ε → ServiceError} {x : EStateM ε σ α} {y : EStateM ε τ β}
    (h : Tracks R I Q (x.adaptExcept f) (y.adaptExcept f)) :
    Tracks (State.Related Rs R) (Stop.FailsWith I) Q (inWorld f x) (inWorld f y) := by
  rintro ⟨s, w⟩ ⟨s', v⟩ ⟨hs, hw⟩
  have hm := h w v hw
  rw [inWorld_adaptExcept f x, inWorld_adaptExcept f y]
  unfold inWorld
  dsimp only
  generalize x.adaptExcept f w = a, y.adaptExcept f v = b at hm
  cases hm with
  | ok hw' hq => exact .ok ⟨hs, hw'⟩ hq
  | error e hw' => exact .error _ ⟨hs, hw'⟩
  | @interrupted e hi w' b =>
    have hfails : (Stop.failed e).FailsWith I := hi
    exact .interrupted hfails _ _

theorem keepsTogether_inWorld {ε' : Type} (f : ε → ServiceError) {g : ε' → ServiceError}
    {x : EStateM ε σ α} {y : EStateM ε' τ β} (h : KeepsTogether R x y) :
    KeepsTogether (State.Related Rs R) (inWorld f x) (inWorld g y) := by
  rintro ⟨s, w⟩ ⟨s', v⟩ ⟨hs, hw⟩
  have hm := h w v hw
  unfold inWorld
  dsimp only
  generalize x w = a, y v = b at hm
  cases a <;> cases b <;> exact ⟨hs, hm⟩

theorem tracks_inStore (f : StoreError → ServiceError) {x : Access Store α} {y : Access Store β}
    (h : Tracks Rs (fun _ => False) Q x y) :
    Tracks (State.Related Rs R) (Stop.FailsWith I) Q (inStore f x) (inStore f y) := by
  rintro ⟨s, w⟩ ⟨s', v⟩ ⟨hs, hw⟩
  have hm := h s s' hs
  unfold inStore
  dsimp only
  generalize x s = a, y s' = b at hm
  cases hm with
  | ok hs' hq => exact .ok ⟨hs', hw⟩ hq
  | error e hs' => exact .error _ ⟨hs', hw⟩
  | interrupted hi _ _ => exact hi.elim

variable (h : env.Mirrors ctx env' ctx' ρ R I)
include h

theorem tracks_ensureLive : Tracks (State.Related Rs R) (Stop.FailsWith I) (fun _ _ => True)
    (ensureLive env ctx) (ensureLive env' ctx') :=
  tracks_inWorld h.check

theorem tracks_generate : Tracks (State.Related Rs R) (Stop.FailsWith I)
    (fun m m' => m' = ρ.material m) (generate env ctx) (generate env' ctx') :=
  tracks_inWorld h.generate

theorem tracks_readClock : Tracks (State.Related Rs R) (Stop.FailsWith I)
    (fun t t' => t' = ρ.time t) (readClock env) (readClock env') :=
  Tracks.get.bind fun _ _ hst => .pure (h.time hst.world)

theorem tracks_readClockAgain : Tracks (State.Related Rs R) (Stop.FailsWith I)
    (fun t t' => t' = ρ.time t) (readClockAgain env) (readClockAgain env') :=
  Tracks.get.bind fun _ _ hst => .pure (h.timeAgain hst.world)

end Steps

section Reads

variable (h : env.Mirrors ctx env' ctx' ρ R I) (name token : String)
include h

theorem tracks_getKeyRing : Tracks (State.Mirrors ρ R) (Stop.FailsWith I)
    (fun r r' => r' = r.redact ρ) (getKeyRing env ctx name) (getKeyRing env' ctx' name) := by
  refine (tracks_ensureLive h).bind fun _ _ _ => ?_
  refine (tracks_demandAs _ _).discard.bind fun _ _ _ => ?_
  exact tracks_inStore _ (Store.tracks_look_redacted ρ fun _ => Store.getKeyRing_redact ρ)

theorem tracks_listKeyRings : Tracks (State.Mirrors ρ R) (Stop.FailsWith I)
    (fun rs rs' => rs' = rs.map (·.redact ρ))
    (listKeyRings env ctx name token) (listKeyRings env' ctx' name token) := by
  refine (tracks_ensureLive h).bind fun _ _ _ => ?_
  refine (tracks_demandAs _ _).bind fun location _ hl => ?_
  subst hl
  refine (tracks_demand _).bind fun _ _ _ => ?_
  exact tracks_inStore _ (Store.tracks_look_redacted ρ fun _ =>
    congrArg Except.ok (Store.listKeyRings_redact ρ))

theorem tracks_getCryptoKey : Tracks (State.Mirrors ρ R) (Stop.FailsWith I)
    (fun k k' => k' = k.redact ρ) (getCryptoKey env ctx name) (getCryptoKey env' ctx' name) := by
  refine (tracks_ensureLive h).bind fun _ _ _ => ?_
  refine (tracks_demandAs _ _).discard.bind fun _ _ _ => ?_
  exact tracks_inStore _ (Store.tracks_look_redacted ρ fun _ => Store.getCryptoKey_redact ρ)

theorem tracks_listCryptoKeys : Tracks (State.Mirrors ρ R) (Stop.FailsWith I)
    (fun ks ks' => ks' = ks.map (·.redact ρ))
    (listCryptoKeys env ctx name token) (listCryptoKeys env' ctx' name token) := by
  refine (tracks_ensureLive h).bind fun _ _ _ => ?_
  refine (tracks_demandAs _ _).discard.bind fun _ _ _ => ?_
  refine (tracks_demand _).bind fun _ _ _ => ?_
  exact tracks_inStore _ (Store.tracks_look_redacted ρ fun _ => Store.listCryptoKeys_redact ρ)

theorem tracks_getVersion : Tracks (State.Mirrors ρ R) (Stop.FailsWith I)
    (fun v v' => v' = v.redact ρ) (getVersion env ctx name) (getVersion env' ctx' name) := by
  refine (tracks_ensureLive h).bind fun _ _ _ => ?_
  refine (tracks_demandAs _ _).discard.bind fun _ _ _ => ?_
  refine (tracks_inStore _ (Store.tracks_look_redacted ρ fun _ =>
    Store.getVersion_redact ρ)).bind fun p _ hp => ?_
  subst hp
  exact .pure rfl

theorem tracks_listVersions : Tracks (State.Mirrors ρ R) (Stop.FailsWith I)
    (fun vs vs' => vs' = vs.map (·.redact ρ))
    (listVersions env ctx name token) (listVersions env' ctx' name token) := by
  refine (tracks_ensureLive h).bind fun _ _ _ => ?_
  refine (tracks_demandAs _ _).discard.bind fun _ _ _ => ?_
  refine (tracks_demand _).bind fun _ _ _ => ?_
  exact tracks_inStore _ (Store.tracks_look_redacted ρ fun _ => Store.listVersions_redact ρ)

end Reads

section Writes

variable (h : env.Mirrors ctx env' ctx' ρ R I) (parent id : String)
include h

theorem tracks_createKeyRing : Tracks (State.Mirrors ρ R) (Stop.FailsWith I)
    (fun r r' => r' = r.redact ρ) (createKeyRing env ctx parent id)
    (createKeyRing env' ctx' parent id) := by
  refine (tracks_ensureLive h).bind fun _ _ _ => ?_
  refine (tracks_demand _).bind fun n _ hn => ?_
  subst hn
  refine (tracks_readClock h).bind fun now _ hnow => ?_
  subst hnow
  refine (tracks_ensureLive h).bind fun _ _ _ => ?_
  exact (tracks_inStore _ (Store.tracks_createKeyRing ρ ⟨n.resourceName, now⟩)).bind
    fun _ _ _ => .pure rfl

theorem tracks_createCryptoKey (spec : Option CryptoKeySpec) :
    Tracks (State.Mirrors ρ R) (Stop.FailsWith I) (fun k k' => k' = k.redact ρ)
      (createCryptoKey env ctx parent id spec) (createCryptoKey env' ctx' parent id spec) := by
  refine (tracks_ensureLive h).bind fun _ _ _ => ?_
  refine (tracks_demand _).bind fun request _ hr => ?_
  subst hr
  obtain ⟨n, labels⟩ := request
  refine (tracks_generate h).bind fun m _ hm => ?_
  subst hm
  refine (tracks_readClock h).bind fun now _ hnow => ?_
  subst hnow
  refine (tracks_readClockAgain h).bind fun later _ hlater => ?_
  subst hlater
  refine (tracks_ensureLive h).bind fun _ _ _ => ?_
  exact (tracks_inStore _ (Store.tracks_createCryptoKey ρ n.parent.resourceName
    (createdKey n labels (firstVersion n now) later) (firstVersion n now) m)).bind
      fun _ _ _ => .pure rfl

theorem tracks_createVersion : Tracks (State.Mirrors ρ R) (Stop.FailsWith I)
    (fun v v' => v' = v.redact ρ) (createVersion env ctx parent)
    (createVersion env' ctx' parent) := by
  refine (tracks_ensureLive h).bind fun _ _ _ => ?_
  refine (tracks_demandAs _ _).discard.bind fun _ _ _ => ?_
  refine (tracks_inStore _ (Store.tracks_look_redacted ρ fun _ =>
    Store.getCryptoKey_redact ρ)).bind fun key _ hkey => ?_
  subst hkey
  refine (tracks_generate h).bind fun m _ hm => ?_
  subst hm
  refine (tracks_ensureLive h).bind fun _ _ _ => ?_
  refine (tracks_readClock h).bind fun now _ hnow => ?_
  subst hnow
  exact tracks_inStore _
    (Store.tracks_createNextVersion ρ .checked parent key.versionTemplate m now)

theorem tracks_updatePrimary : Tracks (State.Mirrors ρ R) (Stop.FailsWith I)
    (fun k k' => k' = k.redact ρ) (updatePrimary env ctx parent id)
    (updatePrimary env' ctx' parent id) := by
  refine (tracks_ensureLive h).bind fun _ _ _ => ?_
  refine (tracks_demandAs _ _).discard.bind fun _ _ _ => ?_
  refine (tracks_demand _).bind fun _ _ _ => ?_
  refine (tracks_ensureLive h).bind fun _ _ _ => ?_
  exact tracks_inStore _ (Store.tracks_setPrimary ρ parent (versionNameOf parent id))

end Writes

/-- Operations that use no material do in the mirror what they do in the environment. -/
theorem tracks_perform (h : env.Mirrors ctx env' ctx' ρ R I) {op : Operation}
    (hop : op.keyless) : Tracks (State.Mirrors ρ R) (Stop.FailsWith I) (Response.Mirrors ρ)
      (perform env ctx op) (perform env' ctx' op) := by
  have hanswer : ∀ {r r' : Response}, r' = r.redact ρ → r.Mirrors ρ r' := by
    rintro r _ rfl
    exact .redacted r
  cases op with
  | createKeyRing parent id =>
    exact (tracks_createKeyRing h parent id).map fun _ _ hr => hanswer (congrArg _ hr)
  | getKeyRing name => exact (tracks_getKeyRing h name).map fun _ _ hr => hanswer (congrArg _ hr)
  | listKeyRings parent token =>
    exact (tracks_listKeyRings h parent token).map fun _ _ hr => hanswer (congrArg _ hr)
  | createCryptoKey parent id spec =>
    exact (tracks_createCryptoKey h parent id spec).map fun _ _ hr => hanswer (congrArg _ hr)
  | getCryptoKey name =>
    exact (tracks_getCryptoKey h name).map fun _ _ hr => hanswer (congrArg _ hr)
  | listCryptoKeys parent token =>
    exact (tracks_listCryptoKeys h parent token).map fun _ _ hr => hanswer (congrArg _ hr)
  | createVersion parent =>
    exact (tracks_createVersion h parent).map fun _ _ hr => hanswer (congrArg _ hr)
  | getVersion name => exact (tracks_getVersion h name).map fun _ _ hr => hanswer (congrArg _ hr)
  | listVersions parent token =>
    exact (tracks_listVersions h parent token).map fun _ _ hr => hanswer (congrArg _ hr)
  | updatePrimary name id =>
    exact (tracks_updatePrimary h name id).map fun _ _ hr => hanswer (congrArg _ hr)
  | encrypt request => contradiction
  | decrypt request => contradiction

end Service

end KeyManagement
