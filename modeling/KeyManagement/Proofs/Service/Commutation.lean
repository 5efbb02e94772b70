import KeyManagement.Proofs.Service.Effect
import KeyManagement.Proofs.Service.History
import KeyManagement.Proofs.Store.Place

/-! # Independent writes

What a writing operation looks at and what it changes is the place of its subject. So two calls
with different subjects, neither of them the key ring of the other, can be made in either order.
-/

namespace KeyManagement

/-- The name of the key ring or the crypto key that an operation writes. -/
def Operation.subject? : Operation → Option String
  | .createKeyRing parent id => some (parent ++ "/keyRings/" ++ id)
  | .createCryptoKey parent id _ => some (parent ++ "/cryptoKeys/" ++ id)
  | .createVersion parent => some parent
  | .updatePrimary name _ => some name
  | _ => none

namespace Service

open Store

variable {σ τ : Type} {x y : String}

section Places

variable {α β γ δ ε : Type} {p : Place γ δ}

/-- What a step comes to depends on one place, and it leaves the store as it is. -/
def ReadBy (p : Place γ δ) (x : Action Store σ α) : Prop :=
  ∀ s w, (∃ e v, ∀ s', p.read s' = p.read s → x ⟨s', w⟩ = .error e ⟨s', v⟩) ∨
    ∃ a v, ∀ s', p.read s' = p.read s → x ⟨s', w⟩ = .ok a ⟨s', v⟩

/-- What a step comes to depends on one place, and that place is all it writes. -/
def WrittenBy (p : Place γ δ) (x : Action Store σ α) : Prop :=
  ∀ s w, (∃ e v, ∀ s', p.read s' = p.read s → x ⟨s', w⟩ = .error e ⟨s', v⟩) ∨
    ∃ a v u, ∀ s', p.read s' = p.read s → x ⟨s', w⟩ = .ok a ⟨p.write s' u, v⟩

theorem readBy_inWorld (f : ε → ServiceError) (x : EStateM ε σ α) :
    ReadBy p (inWorld f x) := by
  intro s w
  cases h : x w with
  | ok a v => exact .inr ⟨a, v, fun s' _ => inWorld_eq_ok_iff.mpr ⟨v, h, rfl⟩⟩
  | error e v => exact .inl ⟨_, v, fun s' _ => inWorld_eq_error_iff.mpr ⟨e, v, h, rfl, rfl⟩⟩

theorem readBy_demandAs (f : ε → ServiceError) (r : Except ε α) :
    ReadBy p (demandAs f r : Action Store σ α) := by
  intro s w
  cases r with
  | ok a => exact .inr ⟨a, w, fun _ _ => rfl⟩
  | error e => exact .inl ⟨.failed (f e), w, fun _ _ => rfl⟩

theorem readBy_readClock (env : Environment σ) : ReadBy p (readClock env) :=
  fun _ w => .inr ⟨env.time w, w, fun _ _ => rfl⟩

theorem readBy_readClockAgain (env : Environment σ) : ReadBy p (readClockAgain env) :=
  fun _ w => .inr ⟨env.timeAgain w, w, fun _ _ => rfl⟩

theorem readBy_getCryptoKey (f : StoreError → ServiceError) (name : String) :
    ReadBy (keyPlace name) (inStore f (KeyStore.getCryptoKey name) : Action Store σ CryptoKey) := by
  intro s w
  have hc : ∀ s', (keyPlace name).read s' = (keyPlace name).read s →
      s'.getCryptoKey name = s.getCryptoKey name := fun s' hs' => by
    rw [Store.getCryptoKey, Store.getCryptoKey, findKey_congr hs']
  cases h : s.getCryptoKey name with
  | ok key =>
    exact .inr ⟨key, w, fun s' hs' => inStore_look_eq_ok_iff.mpr ⟨(hc s' hs').trans h, rfl⟩⟩
  | error e =>
    exact .inl ⟨_, w, fun s' hs' =>
      inStore_look_eq_error_iff.mpr ⟨⟨e, (hc s' hs').trans h, rfl⟩, rfl⟩⟩

theorem writtenBy_inStore (f : StoreError → ServiceError) {x : Access Store α}
    (hx : p.UpdatedBy x) : WrittenBy p (inStore f x : Action Store σ α) := by
  intro s w
  rcases hx s with ⟨e, he⟩ | ⟨a, u, hu⟩
  · exact .inl ⟨e.map f, w, fun s' hs' =>
      inStore_eq_error_iff.mpr ⟨e, s', he s' hs', rfl, rfl⟩⟩
  · exact .inr ⟨a, w, u, fun s' hs' => inStore_eq_ok_iff.mpr ⟨_, hu s' hs', rfl⟩⟩

theorem ReadBy.discard {x : Action Store σ α} (hx : ReadBy p x) : ReadBy p (discard x) := by
  intro s w
  rcases hx s w with ⟨e, v, he⟩ | ⟨a, v, ha⟩
  · exact .inl ⟨e, v, fun s' hs' => discard_eq_error_iff.mpr (he s' hs')⟩
  · exact .inr ⟨⟨⟩, v, fun s' hs' => discard_eq_ok_iff.mpr ⟨a, ha s' hs'⟩⟩

theorem ReadBy.bind {x : Action Store σ α} {f : α → Action Store σ β} (hx : ReadBy p x)
    (hf : ∀ a, WrittenBy p (f a)) : WrittenBy p (x >>= f) := by
  intro s w
  rcases hx s w with ⟨e, v, he⟩ | ⟨a, v, ha⟩
  · exact .inl ⟨e, v, fun s' hs' => bind_eq_of_error (he s' hs')⟩
  · rcases hf a s v with ⟨e, v', he⟩ | ⟨b, v', u, hb⟩
    · exact .inl ⟨e, v', fun s' hs' => bind_eq_error_of_ok (ha s' hs') (he s' hs')⟩
    · exact .inr ⟨b, v', u, fun s' hs' => (bind_eq_of_ok (ha s' hs')).trans (hb s' hs')⟩

theorem writtenBy_demand_bind {r : Except ServiceError α} {f : α → Action Store σ β}
    (hf : ∀ a, r = .ok a → WrittenBy p (f a)) : WrittenBy p (demand r >>= f) := by
  cases r with
  | error e => exact fun _ w => .inl ⟨.failed e, w, fun _ _ => rfl⟩
  | ok a => exact hf a rfl

theorem WrittenBy.map {x : Action Store σ α} (hx : WrittenBy p x) (f : α → β) :
    WrittenBy p (f <$> x) := by
  intro s w
  rcases hx s w with ⟨e, v, he⟩ | ⟨a, v, u, ha⟩
  · exact .inl ⟨e, v, fun s' hs' => map_eq_error_iff.mpr (he s' hs')⟩
  · exact .inr ⟨f a, v, u, fun s' hs' => map_eq_ok_iff.mpr ⟨a, ha s' hs', rfl⟩⟩

end Places

section Subjects

variable (env : Environment σ) (ctx : Context)

theorem writtenBy_createKeyRing (parent id : String) :
    WrittenBy (ringPlace (parent ++ "/keyRings/" ++ id))
      (createKeyRing env ctx parent id : Action Store σ KeyRing) := by
  refine (readBy_inWorld _ _).bind fun _ => writtenBy_demand_bind fun n hn => ?_
  obtain ⟨location, hl, -, -, rfl⟩ := ringRequest_eq_ok_iff.mp hn
  obtain ⟨rfl, -⟩ := LocationName.parse_eq_ok_iff.mp hl
  refine (readBy_readClock env).bind fun now => (readBy_inWorld _ _).bind fun _ => ?_
  rw [bind_pure_comp]
  exact (writtenBy_inStore _
    (updatedBy_createKeyRing ⟨(location.ring id).resourceName, now⟩)).map _

theorem writtenBy_createCryptoKey (parent id : String) (spec : Option CryptoKeySpec) :
    WrittenBy (keyPlace (parent ++ "/cryptoKeys/" ++ id))
      (createCryptoKey env ctx parent id spec : Action Store σ CryptoKey) := by
  refine (readBy_inWorld _ _).bind fun _ => writtenBy_demand_bind fun p hp => ?_
  obtain ⟨n, labels⟩ := p
  obtain ⟨ring, -, hr, -, -, -, hn, rfl, -⟩ := keyRequest_eq_ok_iff.mp hp
  obtain ⟨rfl, -⟩ := KeyRingName.parse_eq_ok_iff.mp hr
  refine (readBy_inWorld _ _).bind fun material => (readBy_readClock env).bind fun now =>
    (readBy_readClockAgain env).bind fun later => (readBy_inWorld _ _).bind fun _ => ?_
  rw [bind_pure_comp]
  exact (writtenBy_inStore _ (updatedBy_createCryptoKey
    (createdKey (ring.key id) labels (firstVersion (ring.key id) now) later)
    (CryptoKeyName.parse_resourceName hn) _ _)).map _

theorem writtenBy_createVersion (parent : String) :
    WrittenBy (keyPlace parent) (createVersion env ctx parent : Action Store σ CryptoKeyVersion) :=
  (readBy_inWorld _ _).bind fun _ => (readBy_demandAs _ _).discard.bind fun _ =>
    (readBy_getCryptoKey _ parent).bind fun _ => (readBy_inWorld _ _).bind fun _ =>
    (readBy_inWorld _ _).bind fun _ => (readBy_readClock env).bind fun _ =>
    writtenBy_inStore _ (updatedBy_createNextVersion _ parent _ _ _)

theorem writtenBy_updatePrimary (name versionId : String) :
    WrittenBy (keyPlace name) (updatePrimary env ctx name versionId : Action Store σ CryptoKey) :=
  (readBy_inWorld _ _).bind fun _ => (readBy_demandAs _ _).discard.bind fun _ =>
    writtenBy_demand_bind fun _ _ => (readBy_inWorld _ _).bind fun _ =>
    writtenBy_inStore _ (updatedBy_setPrimary name _)

end Subjects

variable {env : Environment σ} {env' : Environment τ} {c : Call σ} {c' : Call τ}

namespace Call

/-- The answer and the store that a call leaves. -/
def step (env : Environment σ) (c : Call σ) (s : Store) :
    Except (Stop ServiceError) Response × Store :=
  (c.answer env s, c.after env s)

theorem actsOn_of_writtenBy {γ δ : Type} {p : Place γ δ}
    (h : WrittenBy p (perform env c.ctx c.op)) : p.ActsOn (c.step env) := by
  intro s
  unfold step answer after outcome
  rcases h s c.world with ⟨e, v, he⟩ | ⟨r, v, u, hr⟩
  · refine ⟨.error e, none, fun s' hs' => ?_⟩
    rw [he s' hs', answerOf, finalState, Option.elim_none]
  · refine ⟨.ok r, some u, fun s' hs' => ?_⟩
    rw [hr s' hs', answerOf, finalState, Option.elim_some]

/-- A writing call acts on the place of its subject. -/
theorem actsOn_subject (env : Environment σ) (h : c.op.subject? = some x) :
    (ringPlace x).ActsOn (c.step env) ∨ (keyPlace x).ActsOn (c.step env) := by
  obtain ⟨ctx, op, w⟩ := c
  cases op with
  | createKeyRing parent id =>
    obtain rfl := Option.some.inj h
    exact .inl (actsOn_of_writtenBy ((writtenBy_createKeyRing env ctx parent id).map _))
  | createCryptoKey parent id spec =>
    obtain rfl := Option.some.inj h
    exact .inr (actsOn_of_writtenBy ((writtenBy_createCryptoKey env ctx parent id spec).map _))
  | createVersion parent =>
    obtain rfl := Option.some.inj h
    exact .inr (actsOn_of_writtenBy ((writtenBy_createVersion env ctx parent).map _))
  | updatePrimary name id =>
    obtain rfl := Option.some.inj h
    exact .inr (actsOn_of_writtenBy ((writtenBy_updatePrimary env ctx name id).map _))
  | _ => contradiction

end Call

/-- Two writing calls with different subjects, of which neither is the key ring of the other,
give the same answers in either order, and leave the same store. Each call has its own context
and its own world, and with these its own material and its own time. -/
theorem independent_writes_commute (s : Store) (hx : c.op.subject? = some x)
    (hy : c'.op.subject? = some y) (hne : x ≠ y) (hxy : ¬ Contains x y) (hyx : ¬ Contains y x) :
    c.answer env s = c.answer env (c'.after env' s) ∧
    c'.answer env' (c.after env s) = c'.answer env' s ∧
    c'.after env' (c.after env s) = c.after env (c'.after env' s) := by
  have hcomm : c.answer env (c'.after env' s) = c.answer env s ∧
      c'.answer env' (c.after env s) = c'.answer env' s ∧
      c'.after env' (c.after env s) = c.after env (c'.after env' s) := by
    rcases Call.actsOn_subject env hx with hc | hc
    · rcases Call.actsOn_subject env' hy with hc' | hc'
      · exact (ringPlace_apart hne).steps_comm hc hc' s
      · exact (ringPlace_apart_keyPlace hxy).steps_comm hc hc' s
    · rcases Call.actsOn_subject env' hy with hc' | hc'
      · exact (ringPlace_apart_keyPlace hyx).symm.steps_comm hc hc' s
      · exact (keyPlace_apart hne).steps_comm hc hc' s
  exact ⟨hcomm.1.symm, hcomm.2⟩

end Service

namespace Sample

open Service Store

/-- A second version is there to become the primary of the second crypto key. -/
def prepared : State Store (World Generator) :=
  run env created [.perform ctx (.createVersion (key "k2"))]

def versionCall : Call (World Generator) := ⟨ctx, .createVersion (key "k"), world⟩

def primaryCall : Call (World Generator) := ⟨ctx, .updatePrimary (key "k2") "2", world⟩

def primaryOf (s : Store) : Option (Option String) :=
  (s.findKey? (key "k2")).map fun record => record.key.primary.map (·.name)

theorem primaryOf_primaryCall :
    primaryOf prepared.store = some (some (key "k2" ++ "/cryptoKeyVersions/1")) ∧
    primaryOf (primaryCall.after env prepared.store) =
      some (some (key "k2" ++ "/cryptoKeyVersions/2")) := by
  decide +kernel

theorem sample_independent_writes :
    key "k" ≠ key "k2" ∧ ¬ Contains (key "k") (key "k2") ∧ ¬ Contains (key "k2") (key "k") ∧
    primaryCall.after env prepared.store ≠ prepared.store ∧
    versionCall.answer env prepared.store =
      versionCall.answer env (primaryCall.after env prepared.store) ∧
    primaryCall.answer env (versionCall.after env prepared.store) =
      primaryCall.answer env prepared.store ∧
    primaryCall.after env (versionCall.after env prepared.store) =
      versionCall.after env (primaryCall.after env prepared.store) := by
  have hne : key "k" ≠ key "k2" := by decide
  have hk : ¬ Contains (key "k") (key "k2") := by decide +kernel
  have hk2 : ¬ Contains (key "k2") (key "k") := by decide +kernel
  have hchanges : primaryCall.after env prepared.store ≠ prepared.store := by
    intro h
    have hp := congrArg primaryOf h
    rw [primaryOf_primaryCall.1, primaryOf_primaryCall.2] at hp
    exact absurd hp (by decide)
  exact ⟨hne, hk, hk2, hchanges, independent_writes_commute _ rfl rfl hne hk hk2⟩

end Sample

end KeyManagement
