import KeyManagement.Proofs.Seed.Fulfilment
import KeyManagement.Proofs.Service.Effect
import KeyManagement.Proofs.Service.History
import KeyManagement.Proofs.Service.Recovery
import Mathlib.Data.List.Induction

/-! # Which version is the primary

The primary of a crypto key is the version that was last designated, or else the first one.
Nothing but a designation for the crypto key itself moves it, so that a history tells under
which version the next encryption seals.
-/

namespace KeyManagement.Service

variable {σ : Type} {env : Environment σ} {name : String} {s s' t : Store} {st : State Store σ}

section Designations

variable (env : Environment σ) (name : String)

/-- The version identifier that an event designates for the crypto key, if it succeeds. -/
def Event.designation? (st : State Store σ) : Event σ → Option String
  | .perform ctx (.updatePrimary key id) =>
    match Service.perform env ctx (.updatePrimary key id) st with
    | .ok _ _ => if key = name then some id else none
    | .error _ _ => none
  | _ => none

/-- The version identifiers that a history designates for the crypto key, one after another. -/
def designatedIn (st : State Store σ) : List (Event σ) → List String
  | [] => []
  | event :: history =>
    (event.designation? env name st).toList ++ designatedIn (event.apply env st) history

/-- The version identifier that was designated last. A new crypto key has its first version
as its primary. -/
def lastDesignated (st : State Store σ) (history : List (Event σ)) : String :=
  (designatedIn env name st history).getLast?.getD "1"

theorem run_append_singleton (st : State Store σ) (history : List (Event σ)) (event : Event σ) :
    run env st (history ++ [event]) = event.apply env (run env st history) :=
  List.foldl_append

theorem designatedIn_append_singleton (st : State Store σ) (history : List (Event σ))
    (event : Event σ) : designatedIn env name st (history ++ [event]) =
      designatedIn env name st history ++
        (event.designation? env name (run env st history)).toList := by
  induction history generalizing st with
  | nil => simp [designatedIn, run]
  | cons first history ih =>
    rw [List.cons_append, designatedIn, ih, designatedIn, List.append_assoc]
    rfl

end Designations

/-- A primary with the given version identifier. -/
def HasPrimary (name id : String) (key : CryptoKey) : Prop :=
  ∃ primary, key.primary = some primary ∧ primary.name = versionNameOf name id

/-- The crypto key of the given name stays as it is, or comes into being with its first version
as its primary. -/
def Undesignated (name : String) (s s' : Store) : Prop :=
  s'.findCryptoKey? name = s.findCryptoKey? name ∨
    s.findCryptoKey? name = none ∧
      ∃ key, s'.findCryptoKey? name = some key ∧ HasPrimary name "1" key

namespace Undesignated

theorem refl (name : String) (s : Store) : Undesignated name s s := .inl rfl

theorem trans (h : Undesignated name s t) (h' : Undesignated name t s') :
    Undesignated name s s' := by
  rcases h' with h' | ⟨hnone, hnew⟩
  · rwa [Undesignated, h']
  · rcases h with h | ⟨-, key, hkey, -⟩
    · exact .inr ⟨h ▸ hnone, hnew⟩
    · rw [hnone] at hkey
      contradiction

theorem find (h : Undesignated name s s') {key : CryptoKey}
    (hk : s.findCryptoKey? name = some key) : s'.findCryptoKey? name = some key := by
  rcases h with h | ⟨hnone, -⟩
  · rw [h, hk]
  · rw [hnone] at hk
    contradiction

end Undesignated

section Steps

theorem hasPrimary_createdKey (n : CryptoKeyName) (labels : Labels) (now later : Timestamp) :
    HasPrimary n.resourceName "1" (createdKey n labels (firstVersion n now) later) :=
  ⟨_, rfl, rfl⟩

theorem Effect.undesignated {c : Call σ} {a : Except (Stop ServiceError) Response}
    (h : Effect env s c a s')
    (hd : ∀ id r, c.op = .updatePrimary name id → a ≠ .ok r) : Undesignated name s s' := by
  cases h with
  | failure => exact .refl _ _
  | reading _ => exact .refl _ _
  | ring _ _ hs => exact .inl (Store.findCryptoKey?_createKeyRing hs name)
  | @key _ n labels now later _ _ _ hn _ hs =>
    have hp := CryptoKeyName.parse_resourceName hn
    have hf := Store.findCryptoKey?_createCryptoKey hs hp rfl name
    have hnone := Store.findKey?_eq_none_of_createCryptoKey hs hp rfl
    rw [createdKey_name] at hf hnone
    split at hf
    · next he =>
      subst he
      refine .inr ⟨?_, _, hf, hasPrimary_createdKey n labels now later⟩
      rw [Store.findCryptoKey?, hnone, Option.map_none]
    · exact .inl hf
  | version _ _ hs =>
    obtain ⟨-, -, -, -, -, hs⟩ := Store.createNextVersion_eq_ok_iff.mp hs
    exact .inl (Store.findCryptoKey?_createVersion hs name)
  | @primary key _ _ _ hop hs =>
    have hne : name ≠ key := by
      rintro rfl
      exact hd _ _ hop rfl
    exact .inl (by rw [Store.findCryptoKey?_setPrimary hs, if_neg hne])

theorem undesignated_perform {ctx : Context} {op : Operation}
    (hd : ∀ id r w, op = .updatePrimary name id → perform env ctx op st ≠ .ok r w) :
    Undesignated name st.store (finalState (perform env ctx op st)).store := by
  refine (Call.effect env st.store ⟨ctx, op, st.world⟩).undesignated fun id r hop ha => ?_
  obtain ⟨w, hr⟩ := exists_of_answerOf ha
  exact hd id r w hop hr

theorem undesignated_seed (name : String) (ctx : Context) (doc : Seed.Document)
    (st : State Store σ) :
    Undesignated name st.store (finalState (Seed.apply env ctx doc st)).store := by
  have h : Relation.ReflTransGen (Seed.Performed env ctx) st
      (finalState (Seed.apply env ctx doc st)) := Seed.performs_apply doc st
  generalize finalState (Seed.apply env ctx doc st) = st' at h
  induction h with
  | refl => exact .refl _ _
  | tail _ hp ih =>
    refine ih.trans ?_
    cases hp with
    | _ => exact undesignated_perform (by simp)

theorem undesignated_event {event : Event σ} (h : event.designation? env name st = none) :
    Undesignated name st.store (event.apply env st).store := by
  cases event with
  | perform ctx op =>
    refine undesignated_perform ?_
    rintro id r w rfl hr
    simp [Event.designation?, hr] at h
  | seed ctx doc => exact undesignated_seed name ctx doc st
  | elapse w => exact .refl _ _

theorem Event.designation?_eq_some {event : Event σ} {id : String}
    (h : event.designation? env name st = some id) : ∃ ctx r w,
      event = .perform ctx (.updatePrimary name id) ∧
      Service.perform env ctx (.updatePrimary name id) st = .ok r w := by
  unfold Event.designation? at h
  split at h
  · next ctx key id' =>
    split at h
    · next r w hr =>
      split at h
      · next hkey =>
        cases h
        subst hkey
        exact ⟨ctx, r, w, rfl, hr⟩
      · contradiction
    · contradiction
  · contradiction

theorem hasPrimary_setPrimary (hs : s.WellFormed) {id : String} {updated : CryptoKey}
    (h : Store.setPrimary name (versionNameOf name id) s = .ok updated s') :
    HasPrimary name id updated := by
  obtain ⟨record, found, hf, hv, rfl, -⟩ := Store.setPrimary_eq_ok_iff.mp h
  exact ⟨found.version, rfl, (hs.findKey hf).filed _ _ hv⟩

theorem hasPrimary_of_designation {event : Event σ} (hs : st.store.WellFormed) {id : String}
    (h : event.designation? env name st = some id) :
    ∃ key, (event.apply env st).store.findCryptoKey? name = some key ∧ HasPrimary name id key := by
  obtain ⟨ctx, r, w, rfl, hr⟩ := Event.designation?_eq_some h
  obtain ⟨updated, hu, -⟩ := map_eq_ok_iff.mp hr
  obtain ⟨n, v, -, -, -, -, hset⟩ := updatePrimary_eq_ok_iff.mp hu
  rw [Event.apply, hr, finalState]
  refine ⟨updated, ?_, hasPrimary_setPrimary hs hset⟩
  rw [Store.findCryptoKey?_setPrimary hset, if_pos rfl]

end Steps

section Histories

/-- The primary of a crypto key is as a list of designations tells it. -/
structure Follows (name : String) (ids : List String) (s : Store) : Prop where
  primary : ∀ key, s.findCryptoKey? name = some key → HasPrimary name (ids.getLast?.getD "1") key
  absent : s.findCryptoKey? name = none → ids = []

theorem Follows.undesignated {ids : List String} (h : Follows name ids s)
    (hu : Undesignated name s s') : Follows name ids s' := by
  rcases hu with he | ⟨hnone, key, hkey, hp⟩
  · exact ⟨he ▸ h.primary, he ▸ h.absent⟩
  · rw [h.absent hnone]
    refine ⟨fun key' hkey' => ?_, fun _ => rfl⟩
    rw [hkey, Option.some.injEq] at hkey'
    exact hkey' ▸ hp

/-- A history starts without crypto keys, so that no designation comes before the creation. -/
theorem follows_designatedIn (env : Environment σ) (name : String) (w : σ)
    (history : List (Event σ)) :
    Follows name (designatedIn env name ⟨.empty, w⟩ history)
      (run env ⟨.empty, w⟩ history).store := by
  induction history using List.reverseRecOn with
  | nil =>
    refine ⟨fun key hkey => ?_, fun _ => rfl⟩
    cases (Store.findCryptoKey?_empty name).symm.trans hkey
  | append_singleton history event ih =>
    rw [run_append_singleton, designatedIn_append_singleton]
    cases hd : event.designation? env name (run env ⟨.empty, w⟩ history) with
    | none =>
      rw [Option.toList_none, List.append_nil]
      exact ih.undesignated (undesignated_event hd)
    | some id =>
      have hs : (run env ⟨.empty, w⟩ history).store.WellFormed :=
        wellFormed_run env Store.wellFormed_empty history
      obtain ⟨key, hkey, hp⟩ := hasPrimary_of_designation hs hd
      rw [Option.toList_some]
      constructor
      · intro key' hkey'
        rw [hkey, Option.some.injEq] at hkey'
        rw [List.getLast?_append, List.getLast?_singleton, Option.some_or, Option.getD_some]
        exact hkey' ▸ hp
      · intro hnone
        rw [hkey] at hnone
        contradiction

/-- Whatever has happened, the primary of a crypto key is the version that was designated last,
and only another designation moves it. Encryption seals under the material of this version, in
an envelope with its name. -/
theorem encrypt_uses_last_designated (env : Environment σ) (w : σ) (history : List (Event σ))
    {name : String} {key : CryptoKey}
    (hk : (run env ⟨.empty, w⟩ history).store.getCryptoKey name = .ok key) :
    let st := run env ⟨.empty, w⟩ history
    let current := versionNameOf name (lastDesignated env name ⟨.empty, w⟩ history)
    (∃ primary, key.primary = some primary ∧ primary.name = current) ∧
    (∀ event : Event σ, event.designation? env name st = none →
      (event.apply env st).store.getCryptoKey name = .ok key) ∧
    ∀ ctx request r st', request.name = name →
      perform env ctx (.encrypt request) st = .ok (.encrypted r) st' →
      r.name = current ∧ ∃ version material body v,
        Envelope.unwrap r.ciphertext = .ok (current, body) ∧
        st.store.getVersion current = .ok (version, material) ∧
        env.check ctx st.world = .ok () v ∧
        env.engine.encrypt ctx material request.plaintext request.aad v = .ok body st'.world := by
  intro st current
  have hs : st.store.WellFormed := wellFormed_run env Store.wellFormed_empty history
  rw [Store.getCryptoKey_eq_ok_iff_findCryptoKey?] at hk
  have hp : HasPrimary name _ key := (follows_designatedIn env name w history).primary key hk
  refine ⟨hp, fun event hd => ?_, ?_⟩
  · rw [Store.getCryptoKey_eq_ok_iff_findCryptoKey?]
    exact (undesignated_event hd).find hk
  · rintro ctx request r st' rfl h
    have henc := perform_encrypt_eq_ok_iff.mp h
    obtain ⟨record, hr, rfl⟩ := Option.map_eq_some_iff.mp hk
    obtain ⟨rec, body, v, hv, hprimary, hf, -, -, hb, hw, hn, -⟩ :=
      (encrypt_eq_ok_iff_primary hs request hr).mp henc
    obtain ⟨primary, hprimary', hcurrent⟩ := hp
    obtain rfl := Option.some.inj (hprimary.symm.trans hprimary')
    rw [hcurrent] at hf hw hn
    obtain ⟨-, -, -, hf⟩ := (hs.find?_versions_iff hr).mp hf
    exact ⟨hn, rec.version, rec.material, body, v, Envelope.unwrap_eq_ok_iff_wrap.mpr hw,
      Store.getVersion_eq_ok_iff.mpr hf, hv, hb⟩

end Histories

end KeyManagement.Service

namespace KeyManagement.Sample

open Service

/-- The second version is designated, and then a seeding creates a third one. -/
def designation : List (Event (World Generator)) := rotation ++ [.seed ctx document]

end KeyManagement.Sample

namespace KeyManagement.Service

open Sample in
/-- Before the designation encryption seals under the first version. -/
theorem sample_uses_last_designated :
    (∃ r st body, perform env ctx (.encrypt request) created = .ok (.encrypted r) st ∧
      r.name = versionNameOf (key "k") "1" ∧
      Envelope.unwrap r.ciphertext = .ok (versionNameOf (key "k") "1", body)) ∧
    ∃ k primary,
      (run env ⟨.empty, world⟩ (creation ++ designation)).store.getCryptoKey (key "k") = .ok k ∧
      k.primary = some primary ∧ primary.name = versionNameOf (key "k") "2" := by
  obtain ⟨record, hr⟩ := exists_findKey?_created (.inl rfl)
  constructor
  · obtain ⟨r, st, h⟩ := exists_encrypted
    have hlast : lastDesignated env (key "k") ⟨.empty, world⟩ creation = "1" := rfl
    obtain ⟨hn, -, -, body, -, hb, -⟩ := (encrypt_uses_last_designated env world creation
      (Store.getCryptoKey_eq_ok_iff.mpr ⟨record, hr, rfl⟩)).2.2 ctx request r st rfl h
    exact ⟨r, st, body, h, hlast ▸ hn, hlast ▸ hb⟩
  · obtain ⟨record', hr', -⟩ := (grows_run env created designation).keys _ record hr
    rw [created, run, run, ← List.foldl_append] at hr'
    have hk := Store.getCryptoKey_eq_ok_iff.mpr ⟨record', hr', rfl⟩
    have hlast : lastDesignated env (key "k") ⟨.empty, world⟩ (creation ++ designation) = "2" := by
      decide +kernel
    obtain ⟨primary, hp, hn⟩ :=
      (encrypt_uses_last_designated env world (creation ++ designation) hk).1
    exact ⟨record'.key, primary, hk, hp, hlast ▸ hn⟩

end KeyManagement.Service
