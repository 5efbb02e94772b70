import KeyManagement.Proofs.Engine.Keys
import KeyManagement.Proofs.Seed.Mirror
import KeyManagement.Proofs.Service.Ciphertext
import KeyManagement.Proofs.Service.History

/-! # What answers show of key material

Answers depend on key material only in the bytes of ciphertexts, and so do the failures. Any two
histories that differ in nothing but the keys that the engine draws are compared with a third
one, in which all keys are zero.
-/

namespace KeyManagement

variable {σ τ : Type} {env : Environment σ} {env' : Environment τ}
  {random : Nat → σ → Bytes × σ} {random' : Nat → τ → Bytes × τ} {R : σ → τ → Prop}

section Redacted

/-- All material is made the same. -/
def Redaction.secrets : Redaction := ⟨id, fun _ => AesGcm.zeroMaterial⟩

theorem CryptoKeyVersion.redact_secrets (v : CryptoKeyVersion) : v.redact .secrets = v := rfl

theorem CryptoKey.redact_secrets (key : CryptoKey) : key.redact .secrets = key := by
  obtain ⟨_, _, _, _, _, primary⟩ := key
  cases primary <;> rfl

theorem Response.redact_secrets (r : Response) : r.redact .secrets = r := by
  cases r with
  | cryptoKey key => exact congrArg Response.cryptoKey key.redact_secrets
  | keyRings rings => exact congrArg Response.keyRings (List.map_id' rings)
  | cryptoKeys keys =>
    refine congrArg Response.cryptoKeys ?_
    simp only [CryptoKey.redact_secrets, List.map_id']
  | versions vs => exact congrArg Response.versions (List.map_id' vs)
  | _ => rfl

end Redacted

namespace EncryptResponse.Alike

variable {r r' r'' : EncryptResponse}

theorem symm (h : r.Alike r') : r'.Alike r :=
  ⟨h.name.symm, h.verifiedPlaintext.symm, h.verifiedAad.symm, h.length.symm⟩

theorem trans (h : r.Alike r') (h' : r'.Alike r'') : r.Alike r'' where
  name := h.name.trans h'.name
  verifiedPlaintext := h.verifiedPlaintext.trans h'.verifiedPlaintext
  verifiedAad := h.verifiedAad.trans h'.verifiedAad
  length := h.length.trans h'.length

end EncryptResponse.Alike

/-- Answers that are the same apart from the bytes of a ciphertext and their checksum. -/
inductive AnswersAgree :
    Except (Stop ServiceError) Response → Except (Stop ServiceError) Response → Prop
  | same (a : Except (Stop ServiceError) Response) : AnswersAgree a a
  | encrypted {r r' : EncryptResponse} (h : r.Alike r') :
      AnswersAgree (.ok (.encrypted r)) (.ok (.encrypted r'))

namespace AnswersAgree

variable {a b c : Except (Stop ServiceError) Response}

theorem symm (h : AnswersAgree a b) : AnswersAgree b a := by
  cases h with
  | same => exact .same a
  | encrypted h => exact .encrypted h.symm

theorem trans (h : AnswersAgree a b) (h' : AnswersAgree b c) : AnswersAgree a c := by
  cases h with
  | same => exact h'
  | encrypted h =>
    cases h' with
    | same => exact .encrypted h
    | encrypted h' => exact .encrypted (h.trans h')

theorem of_mirrors {r r' : Response} (h : r.Mirrors .secrets r') :
    AnswersAgree (.ok r) (.ok r') := by
  cases h with
  | redacted =>
    rw [r.redact_secrets]
    exact .same _
  | encrypted h => exact .encrypted h

theorem of_matches {S : σ → τ → Prop} {x : EStateM.Result (Stop ServiceError) σ Response}
    {y : EStateM.Result (Stop ServiceError) τ Response}
    (h : Matches S (Stop.FailsWith fun _ => False) (Response.Mirrors .secrets) x y) :
    AnswersAgree (answerOf x) (answerOf y) := by
  cases h with
  | ok _ h => exact .of_mirrors h
  | error e _ => exact .same (.error e)
  | interrupted h _ _ => exact absurd h (Stop.not_failsWith _)

end AnswersAgree

theorem Environment.EqualButKeys.mirrors (h : env.EqualButKeys random env' random' R)
    (ctx : Context) :
    env.Mirrors ctx (env'.zeroed random') ctx .secrets R fun _ => False where
  time := h.time
  timeAgain := h.timeAgain
  check := Tracks.mono ((h.check ctx).adaptExcept fun _ => id) fun _ _ _ => trivial
  generate := (AesGcm.tracks_generate_zeroed h).adaptExcept fun _ => id

namespace Service

variable {ctx : Context}

/-- A store whose material comes from the engine, and its redaction. -/
structure GeneratedAndRedacted (env : Environment σ) (s s' : Store) : Prop where
  redacted : Store.Redacted .secrets s s'
  generated : s.EveryVersion fun rec => env.Generates rec.material

section Engine

variable (h : env.EqualButKeys random env' random' R)
include h

theorem tracks_encrypt (ctx : Context) (request : EncryptRequest) :
    Tracks (State.Related (GeneratedAndRedacted env) R) (Stop.FailsWith fun _ => False)
      EncryptResponse.Alike (encrypt env ctx request)
      (encrypt (env'.zeroed random') ctx request) := by
  unfold encrypt
  refine (tracks_ensureLive (h.mirrors ctx)).bind fun _ _ _ => ?_
  refine (tracks_demandAs _ _).discard.bind fun _ _ _ => ?_
  refine (tracks_inStore _ (Store.tracks_look (g := id) ?_)).bind ?_
  · rintro s _ ⟨rfl, -⟩
    rw [Store.getCryptoKey_redact, funext CryptoKey.redact_secrets]
    rfl
  rintro key _ ⟨rfl, -⟩
  refine (tracks_demand _).bind ?_
  rintro primary _ rfl
  refine (tracks_demand _).bind ?_
  rintro verifiedPlaintext _ rfl
  refine (tracks_demand _).bind ?_
  rintro verifiedAad _ rfl
  refine (tracks_inStore _ (Store.tracks_look
    (g := fun found => (found.1, AesGcm.zeroMaterial)) ?_)).bind ?_
  · rintro s _ ⟨rfl, -⟩
    exact Store.getVersion_redact .secrets
  rintro ⟨version, material⟩ _ ⟨rfl, s, _, ⟨-, hs⟩, hv⟩
  have hm : env.Generates material := hs.findVersion? (Store.getVersion_eq_ok_iff.mp hv)
  obtain ⟨_, _, _, hg⟩ := hm
  obtain ⟨k, hk⟩ := AesGcm.exists_key_of_generate h.uses hg
  have hzero := AesGcm.key_eq_ok (List.length_replicate (n := Aes.Key.size) (a := 0))
  refine (tracks_inWorld ((AesGcm.tracks_encrypt h.zeroed hk hzero request.plaintext
    request.aad).adaptExcept fun _ => id)).bind fun body body' hl => ?_
  rcases Envelope.wrap_cases version.name with hw | ⟨e, hw⟩
  · rw [hw body, hw body']
    exact .pure ⟨rfl, rfl, rfl, by simp only [List.length_append, hl]⟩
  · rw [hw body, hw body']
    exact .throw _

/-- Whether decryption succeeds depends on the material, but not what it does to the world. -/
theorem keepsTogether_decrypt (request : DecryptRequest) :
    KeepsTogether (State.Mirrors .secrets R) (decrypt env ctx request)
      (decrypt (env'.zeroed random') ctx request) := by
  have hI : ∀ e : Stop ServiceError, ¬ e.FailsWith fun _ => False := Stop.not_failsWith
  unfold decrypt
  refine (tracks_ensureLive (h.mirrors ctx)).bind_keepsTogether hI fun _ _ _ => ?_
  refine (tracks_demandAs _ _).discard.bind_keepsTogether hI fun _ _ _ => ?_
  refine (tracks_inStore _ (Store.tracks_look_redacted _ fun _ =>
    Store.getCryptoKey_redact _)).bind_keepsTogether hI fun key _ hkey => ?_
  subst hkey
  refine (tracks_demand _).discard.bind_keepsTogether hI fun _ _ _ => ?_
  refine (tracks_demand _).discard.bind_keepsTogether hI fun _ _ _ => ?_
  refine (tracks_demandAs _ _).bind_keepsTogether hI ?_
  rintro ⟨name, body⟩ _ rfl
  refine (tracks_demandAs _ _).bind_keepsTogether hI ?_
  rintro parsed _ rfl
  dsimp only
  split
  · exact fun _ _ hst => hst
  · refine (tracks_inStore _ (Store.tracks_look_redacted _ fun _ =>
      Store.getVersion_redact _)).bind_keepsTogether hI ?_
    rintro ⟨version, material⟩ _ rfl
    simp only [bind_pure_comp]
    exact (keepsTogether_inWorld _ (AesGcm.keepsTogether_decrypt h.zeroed body request.aad)).map _ _

end Engine

section Steps

variable (h : env.EqualButKeys random env' random' R)
include h

theorem matches_perform_zeroed (ctx : Context) {st : State Store σ} {st' : State Store τ}
    (hs : st.store.EveryVersion fun rec => env.Generates rec.material)
    (hst : st.Mirrors .secrets R st') {op : Operation} (hop : ∀ request, op ≠ .decrypt request) :
    Matches (State.Mirrors .secrets R) (Stop.FailsWith fun _ => False)
      (Response.Mirrors .secrets) (perform env ctx op st)
      (perform (env'.zeroed random') ctx op st') := by
  cases hop' : op.keyless with
  | true => exact tracks_perform (h.mirrors ctx) hop' st st' hst
  | false =>
    cases op with
    | encrypt request =>
      have hanswer : ∀ r r' : EncryptResponse, r.Alike r' →
          Response.Mirrors .secrets (.encrypted r) (.encrypted r') := fun _ _ => .encrypted
      have ht :=
        ((tracks_encrypt h ctx request).map hanswer) st st' ⟨⟨hst.store, hs⟩, hst.world⟩
      exact ht.mono_state fun _ _ hst => ⟨hst.store.redacted, hst.world⟩
    | decrypt request => exact absurd rfl (hop request)
    | _ => contradiction

theorem mirrors_perform {st : State Store σ} {st' : State Store τ}
    (hs : st.store.EveryVersion fun rec => env.Generates rec.material)
    (hst : st.Mirrors .secrets R st') (op : Operation) :
    State.Mirrors .secrets R (finalState (perform env ctx op st))
      (finalState (perform (env'.zeroed random') ctx op st')) := by
  by_cases hop : ∃ request, op = .decrypt request
  · obtain ⟨request, rfl⟩ := hop
    exact ((keepsTogether_decrypt h request).map _ _) st st' hst
  · exact (matches_perform_zeroed h ctx hs hst (not_exists.mp hop)).finalState Stop.not_failsWith

end Steps

section Histories

/-- The same call, or changes to related worlds. -/
inductive Event.Alike (R : σ → τ → Prop) : Event σ → Event τ → Prop
  | perform (ctx : Context) (op : Operation) : Alike R (.perform ctx op) (.perform ctx op)
  | seed (ctx : Context) (doc : Seed.Document) : Alike R (.seed ctx doc) (.seed ctx doc)
  | elapse {w : σ} {v : τ} (h : R w v) : Alike R (.elapse w) (.elapse v)

theorem Event.Alike.refl (event : Event σ) : event.Alike Eq event := by
  cases event with
  | perform ctx op => exact .perform ctx op
  | seed ctx doc => exact .seed ctx doc
  | elapse w => exact .elapse rfl

variable (h : env.EqualButKeys random env' random' R) {st : State Store σ} {st' : State Store τ}
include h

theorem mirrors_event (hs : st.store.EveryVersion fun rec => env.Generates rec.material)
    (hst : st.Mirrors .secrets R st') {event : Event σ} {event' : Event τ}
    (he : event.Alike R event') : State.Mirrors .secrets R (event.apply env st)
      (event'.apply (env'.zeroed random') st') := by
  cases he with
  | perform ctx op => exact mirrors_perform h hs hst op
  | seed ctx doc =>
    exact (Seed.tracks_seedAll (h.mirrors ctx) (fun _ => False.elim) doc {} st st' hst).finalState
      Seed.ApplyError.not_failsWith
  | elapse hw => exact ⟨hst.store, hw⟩

theorem mirrors_run (hs : st.store.EveryVersion fun rec => env.Generates rec.material)
    (hst : st.Mirrors .secrets R st') {history : List (Event σ)} {history' : List (Event τ)}
    (hh : history.Forall₂ (Event.Alike R) history') :
    State.Mirrors .secrets R (run env st history) (run (env'.zeroed random') st' history') := by
  induction hh generalizing st st' with
  | nil => exact hst
  | cons he _ ih => exact ih (generated_run env hs [_]) (mirrors_event h hs hst he)

end Histories

/-- Whatever keys the engine draws, after any history the store is the same apart from the
material, and so is every answer apart from plaintexts and the bytes of ciphertexts. -/
theorem answers_show_no_keys (h : env.EqualButKeys random env' random' R) {w : σ} {v : τ}
    (hw : R w v) {history : List (Event σ)} {history' : List (Event τ)}
    (hh : history.Forall₂ (Event.Alike R) history') :
    (run env ⟨.empty, w⟩ history).store.redact .secrets =
      (run env' ⟨.empty, v⟩ history').store.redact .secrets ∧
    ∀ ctx op, (∀ request, op ≠ .decrypt request) →
      AnswersAgree (answerOf (perform env ctx op (run env ⟨.empty, w⟩ history)))
        (answerOf (perform env' ctx op (run env' ⟨.empty, v⟩ history'))) := by
  have hempty : Store.Redacted .secrets .empty .empty := rfl
  -- The run with zero keys, which both runs are compared with.
  have hst : State.Mirrors .secrets R (run env ⟨.empty, w⟩ history)
      (run (env'.zeroed random') ⟨.empty, v⟩ history') :=
    mirrors_run h Store.everyVersion_empty ⟨hempty, hw⟩ hh
  have h₀ : env'.EqualButKeys random' (env'.zeroed random') (AesGcm.zeroKeys random') Eq :=
    h.uses'.equalButKeys.zeroed
  have hst₀ : State.Mirrors .secrets Eq (run env' ⟨.empty, v⟩ history')
      (run (env'.zeroed random') ⟨.empty, v⟩ history') :=
    mirrors_run h₀ Store.everyVersion_empty ⟨hempty, rfl⟩
      (List.forall₂_same.mpr fun e _ => .refl e)
  refine ⟨hst.store.symm.trans hst₀.store, fun ctx op hop => ?_⟩
  have hm := matches_perform_zeroed h ctx
    (generated_run env Store.everyVersion_empty history) hst hop
  have hm₀ := matches_perform_zeroed h₀ ctx
    (generated_run env' Store.everyVersion_empty history') hst₀ hop
  exact (AnswersAgree.of_matches hm).trans (AnswersAgree.of_matches hm₀).symm

end Service

end KeyManagement

namespace KeyManagement.Sample

open Service

/-- One byte, that all keys are made of, and another one for nonces. -/
abbrev KeyedWorld := World (UInt8 × UInt8)

def KeyedWorld.withKey (k : UInt8) (w : KeyedWorld) : KeyedWorld :=
  { w with entropy := (k, w.entropy.2) }

def repeated (size : Nat) (w : KeyedWorld) : Bytes × KeyedWorld :=
  (List.replicate size (if size = Aes.Key.size then w.entropy.1 else w.entropy.2), w)

def repetitive : Environment KeyedWorld :=
  World.environment (AesGcm.engine World.check repeated)

theorem equalButKeys_repetitive : repetitive.EqualButKeys repeated repetitive repeated
    fun w v => ∃ k, v = w.withKey k where
  uses := ⟨rfl, fun _ _ => List.length_replicate⟩
  uses' := ⟨rfl, fun _ _ => List.length_replicate⟩
  time := by
    rintro w _ ⟨k, rfl⟩
    rfl
  timeAgain := by
    rintro w _ ⟨k, rfl⟩
    rfl
  check ctx := by
    rintro w _ ⟨k, rfl⟩
    change Matches _ _ _ (World.check ctx w) (World.check ctx (w.withKey k))
    rw [World.check_eq, World.check_eq]
    exact Tracks.ofResult_same _ w (w.withKey k) ⟨k, rfl⟩
  key := by
    rintro w _ ⟨k, rfl⟩
    exact ⟨k, rfl⟩
  nonce := by
    rintro w _ ⟨k, rfl⟩
    exact ⟨rfl, k, rfl⟩

/-- A crypto key is made. -/
def keyed (k : UInt8) : State Store KeyedWorld :=
  run repetitive ⟨.empty, { time := world.time, entropy := (k, 0) }⟩
    [.perform ctx (.createKeyRing "projects/p/locations/l" "r"),
      .perform ctx (.createCryptoKey "projects/p/locations/l/keyRings/r" "k"
        (some { purpose := .encryptDecrypt }))]

end KeyManagement.Sample

namespace KeyManagement.Service

open Sample in
theorem sample_shows_no_keys :
    (keyed 1).store.getVersion (versionNameOf (key "k") "1") ≠
      (keyed 2).store.getVersion (versionNameOf (key "k") "1") ∧
    isEncrypted (perform repetitive ctx (.encrypt request) (keyed 1)) = true ∧
    (keyed 1).store.redact .secrets = (keyed 2).store.redact .secrets ∧
    AnswersAgree (answerOf (perform repetitive ctx (.encrypt request) (keyed 1)))
      (answerOf (perform repetitive ctx (.encrypt request) (keyed 2))) := by
  obtain ⟨hstore, hanswer⟩ := answers_show_no_keys equalButKeys_repetitive ⟨2, rfl⟩
    (.cons (.perform _ _) (.cons (.perform _ _) .nil))
  exact ⟨by decide +kernel, by decide +kernel, hstore, hanswer _ _ (by simp)⟩

end KeyManagement.Service
