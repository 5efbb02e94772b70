import KeyManagement.Engine.Scripted
import KeyManagement.Proofs.Service.History

/-! # Atomicity of operations

An operation either does all of its work or leaves the store as it was. Cancellation comes
before any other complaint, and once more between the generation of key material and the
write that would file it.
-/

namespace KeyManagement.Service

variable {σ : Type} {env : Environment σ} {ctx : Context} {s : Store} {w : σ}
  {op : Operation} {st : State Store σ}

/-- The operation passes all checks that come before the generation of key material. -/
inductive AsksForMaterial (s : Store) : Operation → Prop
  | createCryptoKey {ring : KeyRingName} {id : String} {spec : CryptoKeySpec}
      (hn : (ring.key id).Valid) (hp : spec.purpose = .encryptDecrypt) :
      AsksForMaterial s (.createCryptoKey ring.resourceName id (some spec))
  | createVersion {name : String} {key : CryptoKey} (hk : s.getCryptoKey name = .ok key) :
      AsksForMaterial s (.createVersion name)

theorem asksForMaterial_createCryptoKey_iff {parent id : String} {spec : Option CryptoKeySpec} :
    AsksForMaterial s (.createCryptoKey parent id spec) ↔
      ∃ n labels, keyRequest parent id spec = .ok (n, labels) := by
  simp only [keyRequest_eq_ok_iff]
  constructor
  · intro h
    cases h with
    | createCryptoKey hn hp =>
      exact ⟨_, _, _, _, KeyRingName.parse_resourceName hn.1, ne_empty_of_isId hn.2, rfl, hp, hn,
        rfl, rfl⟩
  · rintro ⟨_, _, ring, spec', hr, -, rfl, hp, hn, -, -⟩
    obtain ⟨rfl, -⟩ := KeyRingName.parse_eq_ok_iff.mp hr
    exact .createCryptoKey hn hp

theorem asksForMaterial_createVersion_iff {name : String} :
    AsksForMaterial s (.createVersion name) ↔
      ∃ n key, CryptoKeyName.parse name = .ok n ∧ s.getCryptoKey name = .ok key := by
  constructor
  · intro h
    cases h with
    | createVersion hk =>
      obtain ⟨r, hr, -⟩ := Store.getCryptoKey_eq_ok_iff.mp hk
      obtain ⟨n, -, hn, -, -⟩ := Store.findKey?_eq_some_iff.mp hr
      exact ⟨n, _, hn, hk⟩
  · rintro ⟨_, _, -, hk⟩
    exact .createVersion hk

theorem ensureLive_of_dead {e : ContextError} (h : env.check ctx st.world = .error e w) :
    ensureLive env ctx st = .error (.failed (.context e)) ⟨st.store, w⟩ :=
  ensureLive_eq_error_iff.mpr ⟨e, w, h, rfl, rfl⟩

/-- Under a dead context an operation looks at nothing else. -/
theorem perform_of_dead {e : ContextError} (h : env.check ctx st.world = .error e w)
    (op : Operation) :
    perform env ctx op st = .error (.failed (.context e)) ⟨st.store, w⟩ := by
  have hd : ensureLive env ctx st = .error (.failed (.context e)) ⟨st.store, w⟩ :=
    ensureLive_of_dead h
  cases op <;> exact map_eq_error_iff.mpr (bind_eq_of_error hd)

/-- Material that arrives too late is dropped. -/
theorem perform_of_dead_after_generation (ha : AsksForMaterial st.store op)
    {material : KeyMaterial} {v v' : σ} {e : ContextError}
    (hv : env.check ctx st.world = .ok () v) (hm : env.engine.generate ctx v = .ok material v')
    (hd : env.check ctx v' = .error e w) :
    perform env ctx op st = .error (.failed (.context e)) ⟨st.store, w⟩ := by
  cases op with
  | createCryptoKey parent id spec =>
    obtain ⟨n, labels, hr⟩ := asksForMaterial_createCryptoKey_iff.mp ha
    refine map_eq_error_iff.mpr ?_
    refine bind_eq_error_of_ok (ensureLive_of_check hv) ?_
    refine bind_eq_error_of_ok (demand_eq_ok_iff.mpr ⟨hr, rfl⟩) ?_
    refine bind_eq_error_of_ok (generate_eq_ok_iff.mpr ⟨v', hm, rfl⟩) ?_
    refine bind_eq_error_of_ok (readClock_eq_ok_iff.mpr ⟨rfl, rfl⟩) ?_
    refine bind_eq_error_of_ok (readClockAgain_eq_ok_iff.mpr ⟨rfl, rfl⟩) ?_
    exact bind_eq_of_error (ensureLive_of_dead hd)
  | createVersion name =>
    obtain ⟨n, key, hn, hk⟩ := asksForMaterial_createVersion_iff.mp ha
    refine map_eq_error_iff.mpr ?_
    refine bind_eq_error_of_ok (ensureLive_of_check hv) ?_
    refine bind_eq_error_of_ok (discard_demandAs_of_ok hn) ?_
    refine bind_eq_error_of_ok (inStore_look_eq_ok_iff.mpr ⟨hk, rfl⟩) ?_
    refine bind_eq_error_of_ok (generate_eq_ok_iff.mpr ⟨v', hm, rfl⟩) ?_
    exact bind_eq_of_error (ensureLive_of_dead hd)
  | _ => contradiction

/-- An operation that does not come to it runs alike whatever the engine would generate. -/
theorem perform_of_not_asksForMaterial (ha : ¬ AsksForMaterial st.store op)
    (generate : Context → EStateM EngineError σ KeyMaterial) :
    perform { env with engine := { env.engine with generate } } ctx op st =
      perform env ctx op st := by
  cases op with
  | createCryptoKey parent id spec =>
    refine map_congr_of_eq (bind_congr_of_ok fun _ _ _ => bind_congr_of_ok fun p _ hr => ?_) _
    obtain ⟨hr, -⟩ := demand_eq_ok_iff.mp hr
    exact absurd (asksForMaterial_createCryptoKey_iff.mpr ⟨p.1, p.2, hr⟩) ha
  | createVersion name =>
    refine map_congr_of_eq (bind_congr_of_ok fun _ _ hv => bind_congr_of_ok fun _ _ hn =>
      bind_congr_of_ok fun key _ hk => ?_) _
    obtain ⟨_, -, rfl⟩ := ensureLive_eq_ok_iff.mp hv
    obtain ⟨_, hn⟩ := discard_eq_ok_iff.mp hn
    obtain ⟨-, rfl⟩ := demandAs_eq_ok_iff.mp hn
    obtain ⟨hk, -⟩ := inStore_look_eq_ok_iff.mp hk
    exact absurd (.createVersion hk) ha
  | _ => rfl

/-- A failure leaves the store as it was, whatever caused it. A context that is dead at the
start is reported before any other fault, and one that dies while material is generated is
reported in place of the record. Only the four writing operations ever change the store. -/
theorem perform_all_or_nothing (env : Environment σ) (ctx : Context) (op : Operation)
    (st : State Store σ) :
    (∀ e st', perform env ctx op st = .error e st' → st'.store = st.store) ∧
    (∀ e w, env.check ctx st.world = .error e w →
      perform env ctx op st = .error (.failed (.context e)) ⟨st.store, w⟩ ∧
      (ServiceError.context e).code = .cancelled) ∧
    (AsksForMaterial st.store op → ∀ v material v' e w, env.check ctx st.world = .ok () v →
      env.engine.generate ctx v = .ok material v' → env.check ctx v' = .error e w →
      perform env ctx op st = .error (.failed (.context e)) ⟨st.store, w⟩ ∧
      (ServiceError.context e).code = .cancelled) ∧
    (¬ AsksForMaterial st.store op → ∀ generate,
      perform { env with engine := { env.engine with generate } } ctx op st =
        perform env ctx op st) ∧
    (op.writes = false → (finalState (perform env ctx op st)).store = st.store) := by
  refine ⟨fun _ _ h => store_of_perform_error h, fun e w h => ?_, ?_, ?_,
    fun h => keeps_perform h st⟩
  · exact ⟨perform_of_dead h op, rfl⟩
  · intro ha v material v' e w hv hm hd
    exact ⟨perform_of_dead_after_generation ha hv hm hd, rfl⟩
  · exact fun ha generate => perform_of_not_asksForMaterial ha generate

theorem sample_all_or_nothing :
    perform Sample.env Sample.ctx (.getCryptoKey "")
        { Sample.created with world := Sample.world.cancel Sample.ctx } =
      .error (.failed (.context .cancelled))
        { Sample.created with world := Sample.world.cancel Sample.ctx } ∧
    ∃ w, perform (World.environment (Engine.cancelling [.generate] .random)) Sample.ctx
      (.createVersion (Sample.key "k")) Sample.created =
        .error (.failed (.context .cancelled)) { Sample.created with world := w } := by
  constructor
  · exact ((perform_all_or_nothing _ _ _ _).2.1 .cancelled _ rfl).1
  · obtain ⟨record, hr⟩ := Sample.exists_findKey?_created (.inl rfl)
    have ha : AsksForMaterial Sample.created.store (.createVersion (Sample.key "k")) :=
      .createVersion (Store.getCryptoKey_eq_ok_iff.mpr ⟨record, hr, rfl⟩)
    exact ⟨_, ((perform_all_or_nothing _ _ _ _).2.2.1 ha _ _ _ .cancelled _ rfl rfl rfl).1⟩

end KeyManagement.Service
