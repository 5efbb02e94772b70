import KeyManagement.Proofs.Service.Write
import KeyManagement.Proofs.Store.Frame

/-! # What a call changes

A call is an operation together with the context and the world that it meets. The store after
a call differs from the store before by the record that the call answered, and by the material
that the engine made in the call.
-/

namespace KeyManagement.Service

variable {σ : Type}

structure Call (σ : Type) where
  ctx : Context
  op : Operation
  world : σ

namespace Call

variable (env : Environment σ) (s : Store) (c : Call σ)

def outcome : EStateM.Result (Stop ServiceError) (State Store σ) Response :=
  perform env c.ctx c.op ⟨s, c.world⟩

def answer : Except (Stop ServiceError) Response := answerOf (c.outcome env s)

/-- The store that the call leaves. -/
def after : Store := (finalState (c.outcome env s)).store

/-- The engine makes the material in the course of the call. -/
def Generates (material : KeyMaterial) : Prop :=
  ∃ v v', env.check c.ctx c.world = .ok () v ∧ env.engine.generate c.ctx v = .ok material v'

variable {env c} {m m' : KeyMaterial}

theorem Generates.unique (h : c.Generates env m) (h' : c.Generates env m') : m = m' := by
  obtain ⟨v, w, hv, hm⟩ := h
  obtain ⟨v', w', hv', hm'⟩ := h'
  rw [hv] at hv'
  cases hv'
  rw [hm] at hm'
  cases hm'
  rfl

end Call

/-- A call and the answer to it. -/
structure Exchange (σ : Type) where
  call : Call σ
  answer : Except (Stop ServiceError) Response

namespace Exchange

variable {e : Exchange σ}

/-- The key ring that was created. -/
def createdRing? (e : Exchange σ) : Option KeyRing :=
  match e.call.op, e.answer with
  | .createKeyRing .., .ok (.keyRing ring) => some ring
  | _, _ => none

/-- The crypto key that was created. -/
def createdKey? (e : Exchange σ) : Option CryptoKey :=
  match e.call.op, e.answer with
  | .createCryptoKey .., .ok (.cryptoKey key) => some key
  | _, _ => none

/-- The version that was created. The first version is created with its crypto key. -/
def createdVersion? (e : Exchange σ) : Option CryptoKeyVersion :=
  match e.call.op, e.answer with
  | .createVersion .., .ok (.version v) => some v
  | .createCryptoKey .., .ok (.cryptoKey key) => key.primary
  | _, _ => none

/-- The crypto key of the given name, with the primary that was designated for it. -/
def designated? (name : String) (e : Exchange σ) : Option CryptoKey :=
  match e.call.op, e.answer with
  | .updatePrimary name' _, .ok (.cryptoKey key) => if name' = name then some key else none
  | _, _ => none

theorem createdRing?_eq_some_iff {ring : KeyRing} : e.createdRing? = some ring ↔
    (∃ parent id, e.call.op = .createKeyRing parent id) ∧ e.answer = .ok (.keyRing ring) := by
  unfold createdRing?
  split
  · simp_all
  · next h =>
    simp only [reduceCtorEq, false_iff, not_and]
    rintro ⟨parent, id, ho⟩ ha
    exact h _ _ _ ho ha

theorem createdVersion?_eq_some_iff {v : CryptoKeyVersion} : e.createdVersion? = some v ↔
    ((∃ parent, e.call.op = .createVersion parent) ∧ e.answer = .ok (.version v)) ∨
      (∃ parent id spec, e.call.op = .createCryptoKey parent id spec) ∧
        ∃ key, e.answer = .ok (.cryptoKey key) ∧ key.primary = some v := by
  unfold createdVersion?
  split
  · simp_all
  · simp_all
  · next h h' =>
    simp only [reduceCtorEq, false_iff, not_or, not_and, not_exists]
    constructor
    · rintro ⟨parent, ho⟩ ha
      exact h _ _ ho ha
    · rintro ⟨parent, id, spec, ho⟩ key ha
      exact absurd ha (h' _ _ _ _ ho)

/-- Nothing was created or designated. -/
structure Idle (e : Exchange σ) : Prop where
  ring : e.createdRing? = none
  key : e.createdKey? = none
  version : e.createdVersion? = none
  primary : ∀ name, e.designated? name = none

theorem idle_of_error (call : Call σ) (x : Stop ServiceError) : Idle ⟨call, .error x⟩ := by
  obtain ⟨ctx, op, w⟩ := call
  cases op <;> exact ⟨rfl, rfl, rfl, fun _ => rfl⟩

theorem idle_of_reading {call : Call σ} (h : call.op.writes = false)
    (a : Except (Stop ServiceError) Response) : Idle ⟨call, a⟩ := by
  obtain ⟨ctx, op, w⟩ := call
  cases op with
  | createKeyRing | createCryptoKey | createVersion | updatePrimary => contradiction
  | _ => exact ⟨rfl, rfl, rfl, fun _ => rfl⟩

end Exchange

/-- What a call can lead to: an answer and a store. -/
inductive Effect (env : Environment σ) (s : Store) (c : Call σ) :
    Except (Stop ServiceError) Response → Store → Prop
  | failure {e : Stop ServiceError} : Effect env s c (.error e) s
  | reading {r : Response} (hop : c.op.writes = false) : Effect env s c (.ok r) s
  | ring {n : KeyRingName} {now : Timestamp} {s' : Store}
      (hop : c.op = .createKeyRing n.parent.resourceName n.keyRing) (hn : n.Valid)
      (hs : Store.createKeyRing ⟨n.resourceName, now⟩ s = .ok () s') :
      Effect env s c (.ok (.keyRing ⟨n.resourceName, now⟩)) s'
  | key {spec : Option CryptoKeySpec} {n : CryptoKeyName} {labels : Labels}
      {now later : Timestamp} {material : KeyMaterial} {s' : Store}
      (hop : c.op = .createCryptoKey n.parent.resourceName n.cryptoKey spec) (hn : n.Valid)
      (hm : c.Generates env material)
      (hs : Store.createCryptoKey n.parent.resourceName
        (createdKey n labels (firstVersion n now) later) (firstVersion n now) material s =
          .ok () s') :
      Effect env s c (.ok (.cryptoKey (createdKey n labels (firstVersion n now) later))) s'
  | version {parent : String} {template : VersionTemplate} {now : Timestamp}
      {material : KeyMaterial} {v : CryptoKeyVersion} {s' : Store}
      (hop : c.op = .createVersion parent) (hm : c.Generates env material)
      (hs : Store.createNextVersion .checked parent template material now s = .ok v s') :
      Effect env s c (.ok (.version v)) s'
  | primary {name id : String} {updated : CryptoKey} {s' : Store}
      (hop : c.op = .updatePrimary name id)
      (hs : Store.setPrimary name (versionNameOf name id) s = .ok updated s') :
      Effect env s c (.ok (.cryptoKey updated)) s'

theorem effect_of_perform {env : Environment σ} {s : Store} {c : Call σ} {r : Response}
    {st : State Store σ} (h : perform env c.ctx c.op ⟨s, c.world⟩ = .ok r st) :
    Effect env s c (.ok r) st.store := by
  cases hop : c.op with
  | createKeyRing parent id =>
    rw [hop] at h
    obtain ⟨ring, hk, rfl⟩ := map_eq_ok_iff.mp h
    obtain ⟨n, v, -, hr, -, rfl, hs⟩ := createKeyRing_eq_ok_iff.mp hk
    obtain ⟨location, hl, -, hn, rfl⟩ := ringRequest_eq_ok_iff.mp hr
    obtain ⟨rfl, -⟩ := LocationName.parse_eq_ok_iff.mp hl
    exact .ring (n := location.ring id) hop hn hs
  | createCryptoKey parent id spec =>
    rw [hop] at h
    obtain ⟨key, hk, rfl⟩ := map_eq_ok_iff.mp h
    obtain ⟨n, labels, material, v, v', hv, hr, hm, -, rfl, hs⟩ :=
      createCryptoKey_eq_ok_iff.mp hk
    obtain ⟨ring, spec', hring, -, -, -, hn, rfl, -⟩ := keyRequest_eq_ok_iff.mp hr
    obtain ⟨rfl, -⟩ := KeyRingName.parse_eq_ok_iff.mp hring
    exact .key (n := ring.key id) hop hn ⟨v, v', hv, hm⟩ hs
  | createVersion parent =>
    rw [hop] at h
    obtain ⟨version, hk, rfl⟩ := map_eq_ok_iff.mp h
    obtain ⟨n, key, material, v, v', hv, -, -, hm, -, hs⟩ := createVersion_eq_ok_iff.mp hk
    exact .version hop ⟨v, v', hv, hm⟩ hs
  | updatePrimary name id =>
    rw [hop] at h
    obtain ⟨updated, hk, rfl⟩ := map_eq_ok_iff.mp h
    obtain ⟨n, v, -, -, -, -, hs⟩ := updatePrimary_eq_ok_iff.mp hk
    exact .primary hop hs
  | _ =>
    have hw : c.op.writes = false := by rw [hop]; rfl
    rw [(keeps_perform hw).of_ok h]
    exact .reading hw

theorem Call.effect (env : Environment σ) (s : Store) (c : Call σ) :
    Effect env s c (c.answer env s) (c.after env s) := by
  unfold Call.answer Call.after Call.outcome
  cases hp : perform env c.ctx c.op ⟨s, c.world⟩ with
  | error e st =>
    rw [answerOf, finalState, store_of_perform_error hp]
    exact .failure
  | ok r st =>
    rw [answerOf, finalState]
    exact effect_of_perform hp

namespace Effect

variable {env : Environment σ} {s s' : Store} {c : Call σ} {a : Except (Stop ServiceError) Response}

theorem findRing?_eq_some_iff (h : Effect env s c a s') {name : String} {ring : KeyRing} :
    s'.findRing? name = some ring ↔ s.findRing? name = some ring ∨
      (Exchange.mk c a).createdRing? = some ring ∧ ring.name = name := by
  cases h with
  | failure => simp [(Exchange.idle_of_error c _).ring]
  | reading hop => simp [(Exchange.idle_of_reading hop _).ring]
  | ring hop _ hs =>
    rw [Store.findRing?_createKeyRing hs, Store.ite_some_eq_some_iff fun hn =>
      hn ▸ Store.findRing?_eq_none_of_createKeyRing hs]
    rw [Exchange.createdRing?_eq_some_iff]
    refine or_congr_right ⟨?_, ?_⟩
    · rintro ⟨rfl, rfl⟩
      exact ⟨⟨⟨_, _, hop⟩, rfl⟩, rfl⟩
    · rintro ⟨⟨-, ⟨⟩⟩, rfl⟩
      exact ⟨rfl, rfl⟩
  | key hop _ _ hs =>
    simp [Exchange.createdRing?_eq_some_iff, hop, Store.findRing?_createCryptoKey hs]
  | version hop _ hs =>
    obtain ⟨-, -, -, -, -, hs⟩ := Store.createNextVersion_eq_ok_iff.mp hs
    simp [Exchange.createdRing?_eq_some_iff, hop, Store.findRing?_createVersion hs]
  | primary hop hs =>
    simp [Exchange.createdRing?_eq_some_iff, hop, Store.findRing?_setPrimary hs]

theorem findVersion?_eq_some_iff (h : Effect env s c a s') {name : String} {r : VersionRecord} :
    s'.findVersion? name = some r ↔ s.findVersion? name = some r ∨
      (Exchange.mk c a).createdVersion? = some r.version ∧ c.Generates env r.material ∧
        r.version.name = name := by
  cases h with
  | failure => simp [(Exchange.idle_of_error c _).version]
  | reading hop => simp [(Exchange.idle_of_reading hop _).version]
  | ring hop _ hs => simp [Exchange.createdVersion?, hop, Store.findVersion?_createKeyRing hs]
  | key hop hn hm hs =>
    have hp := CryptoKeyName.parse_resourceName hn
    rw [Store.findVersion?_createCryptoKey hs hp rfl rfl, Store.ite_some_eq_some_iff fun he =>
      he ▸ Store.findVersion?_eq_none_of_createCryptoKey hs hp rfl rfl]
    rw [Exchange.createdVersion?_eq_some_iff]
    refine or_congr_right ⟨?_, ?_⟩
    · rintro ⟨rfl, rfl⟩
      exact ⟨.inr ⟨⟨_, _, _, hop⟩, _, rfl, rfl⟩, hm, rfl⟩
    · obtain ⟨v, m⟩ := r
      rintro ⟨⟨-, ⟨⟩⟩ | ⟨-, _, ⟨⟩, ⟨⟩⟩, hm', rfl⟩
      exact ⟨rfl, congrArg _ (hm.unique hm')⟩
  | version hop hm hs =>
    obtain ⟨n, hn, hk⟩ := Store.parse_createNextVersion hs
    obtain ⟨-, -, -, -, -, hs⟩ := Store.createNextVersion_eq_ok_iff.mp hs
    rw [Store.findVersion?_createVersion hs hn hk, Store.ite_some_eq_some_iff fun he =>
      he ▸ Store.findVersion?_eq_none_of_createVersion hs hn hk]
    rw [Exchange.createdVersion?_eq_some_iff]
    refine or_congr_right ⟨?_, ?_⟩
    · rintro ⟨rfl, rfl⟩
      exact ⟨.inl ⟨⟨_, hop⟩, rfl⟩, hm, rfl⟩
    · obtain ⟨v, m⟩ := r
      rintro ⟨⟨-, ⟨⟩⟩ | ⟨-, _, ⟨⟩, -⟩, hm', rfl⟩
      exact ⟨rfl, congrArg _ (hm.unique hm')⟩
  | primary hop hs => simp [Exchange.createdVersion?, hop, Store.findVersion?_setPrimary hs]

theorem exists_generates (h : Effect env s c a s') {v : CryptoKeyVersion}
    (hv : (Exchange.mk c a).createdVersion? = some v) : ∃ m, c.Generates env m := by
  cases h with
  | failure => simp [(Exchange.idle_of_error c _).version] at hv
  | reading hop => simp [(Exchange.idle_of_reading hop _).version] at hv
  | ring hop _ _ => simp [Exchange.createdVersion?, hop] at hv
  | key _ _ hm _ => exact ⟨_, hm⟩
  | version _ hm _ => exact ⟨_, hm⟩
  | primary hop _ => simp [Exchange.createdVersion?, hop] at hv

end Effect

/-- The crypto keys after an exchange: at most one is another than before. -/
inductive KeyChange (e : Exchange σ) (s s' : Store) : Prop
  | unchanged (hc : e.createdKey? = none) (hd : ∀ name, e.designated? name = none)
      (hs : ∀ name, s'.findCryptoKey? name = s.findCryptoKey? name)
  | created {key : CryptoKey} (hc : e.createdKey? = some key)
      (hd : ∀ name, e.designated? name = none) (hnew : s.findCryptoKey? key.name = none)
      (hs : ∀ name, s'.findCryptoKey? name =
        if name = key.name then some key else s.findCryptoKey? name)
  | designated {key : String} {old updated : CryptoKey} (hc : e.createdKey? = none)
      (hd : ∀ name, e.designated? name = if key = name then some updated else none)
      (hold : s.findCryptoKey? key = some old)
      (hkeeps : updated = { old with primary := updated.primary })
      (hs : ∀ name, s'.findCryptoKey? name =
        if name = key then some updated else s.findCryptoKey? name)

theorem Effect.keyChange {env : Environment σ} {s s' : Store} {c : Call σ}
    {a : Except (Stop ServiceError) Response} (h : Effect env s c a s') :
    KeyChange ⟨c, a⟩ s s' := by
  cases h with
  | @failure e =>
    have hi := Exchange.idle_of_error c e
    exact .unchanged hi.key hi.primary fun _ => rfl
  | @reading r hop =>
    have hi := Exchange.idle_of_reading hop (.ok r)
    exact .unchanged hi.key hi.primary fun _ => rfl
  | ring hop _ hs =>
    exact .unchanged (by simp [Exchange.createdKey?, hop]) (by simp [Exchange.designated?, hop])
      (Store.findCryptoKey?_createKeyRing hs)
  | key hop hn _ hs =>
    have hp := CryptoKeyName.parse_resourceName hn
    refine .created (by simp only [Exchange.createdKey?, hop])
      (by simp [Exchange.designated?, hop]) ?_ (Store.findCryptoKey?_createCryptoKey hs hp rfl)
    exact congrArg _ (Store.findKey?_eq_none_of_createCryptoKey hs hp rfl)
  | version hop _ hs =>
    obtain ⟨-, -, -, -, -, hs⟩ := Store.createNextVersion_eq_ok_iff.mp hs
    exact .unchanged (by simp [Exchange.createdKey?, hop]) (by simp [Exchange.designated?, hop])
      (Store.findCryptoKey?_createVersion hs)
  | primary hop hs =>
    obtain ⟨old, hold, hkeeps⟩ := Store.setPrimary_keeps hs
    exact .designated (by simp [Exchange.createdKey?, hop]) (by simp [Exchange.designated?, hop])
      hold hkeeps (Store.findCryptoKey?_setPrimary hs)

end KeyManagement.Service
