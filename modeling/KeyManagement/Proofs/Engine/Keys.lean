import KeyManagement.Proofs.Engine.AesGcm
import KeyManagement.Proofs.Tracking

/-! # The engine under other keys

With other keys, the engine draws the same nonces, and encryption fails where it failed before.
What it seals is different, but as long. Whatever the keys are, they can be compared with keys of
zeros.
-/

namespace KeyManagement

variable {σ τ : Type} {env : Environment σ} {env' : Environment τ}
  {random : Nat → σ → Bytes × σ} {random' : Nat → τ → Bytes × τ} {R : σ → τ → Prop}

/-- Two environments with AES-256-GCM engines that show the same in worlds related by `R`, except
that the keys which are drawn need not agree. -/
structure Environment.EqualButKeys (env : Environment σ) (random : Nat → σ → Bytes × σ)
    (env' : Environment τ) (random' : Nat → τ → Bytes × τ) (R : σ → τ → Prop) : Prop where
  uses : env.UsesAesGcm random
  uses' : env'.UsesAesGcm random'
  time : ∀ {w v}, R w v → env'.time v = env.time w
  timeAgain : ∀ {w v}, R w v → env'.timeAgain v = env.timeAgain w
  check : ∀ ctx, Tracks R (fun _ => False) Eq (env.check ctx) (env'.check ctx)
  key : ∀ {w v}, R w v → R (random Aes.Key.size w).2 (random' Aes.Key.size v).2
  nonce : ∀ {w v}, R w v → (random Gcm.nonceSize w).1 = (random' Gcm.nonceSize v).1 ∧
    R (random Gcm.nonceSize w).2 (random' Gcm.nonceSize v).2

namespace AesGcm

section Zeroed

def zeroMaterial : KeyMaterial := ⟨format :: List.replicate Aes.Key.size 0⟩

/-- The same source, but with keys of nothing but zeros. -/
def zeroKeys (random : Nat → σ → Bytes × σ) (size : Nat) (w : σ) : Bytes × σ :=
  if size = Aes.Key.size then (List.replicate size 0, (random size w).2) else random size w

@[simp] theorem zeroKeys_key (w : σ) : zeroKeys random Aes.Key.size w =
    (List.replicate Aes.Key.size 0, (random Aes.Key.size w).2) :=
  if_pos rfl

@[simp] theorem zeroKeys_nonce (w : σ) :
    zeroKeys random Gcm.nonceSize w = random Gcm.nonceSize w :=
  if_neg (by decide)

theorem length_zeroKeys (h : ∀ size w, (random size w).1.length = size) (size : Nat) (w : σ) :
    (zeroKeys random size w).1.length = size := by
  unfold zeroKeys
  split
  · exact List.length_replicate
  · exact h size w

end Zeroed

end AesGcm

namespace Environment

def zeroed (env : Environment σ) (random : Nat → σ → Bytes × σ) : Environment σ :=
  { env with engine := AesGcm.engine env.check (AesGcm.zeroKeys random) }

theorem UsesAesGcm.equalButKeys (h : env.UsesAesGcm random) :
    env.EqualButKeys random env random Eq where
  uses := h
  uses' := h
  time := by
    rintro w _ rfl
    rfl
  timeAgain := by
    rintro w _ rfl
    rfl
  check ctx := by
    rintro w _ rfl
    cases env.check ctx w with
    | ok _ w' => exact .ok rfl rfl
    | error e w' => exact .error e rfl
  key := by
    rintro w _ rfl
    rfl
  nonce := by
    rintro w _ rfl
    exact ⟨rfl, rfl⟩

theorem EqualButKeys.zeroed (h : env.EqualButKeys random env' random' R) :
    env.EqualButKeys random (env'.zeroed random') (AesGcm.zeroKeys random') R where
  uses := h.uses
  uses' := ⟨rfl, AesGcm.length_zeroKeys h.uses'.length⟩
  time := h.time
  timeAgain := h.timeAgain
  check := h.check
  key hw := by
    rw [AesGcm.zeroKeys_key]
    exact h.key hw
  nonce hw := by
    rw [AesGcm.zeroKeys_nonce]
    exact h.nonce hw

end Environment

namespace AesGcm

variable {ctx : Context} {m m' : KeyMaterial} {k k' : Aes.Key}

theorem exists_key_of_generate (h : env.UsesAesGcm random) {w w' : σ}
    (hg : env.engine.generate ctx w = .ok m w') : ∃ k, key m = .ok k := by
  rw [h.engine] at hg
  obtain ⟨bytes, v, -, hr, rfl⟩ := generate_eq_ok_iff.mp hg
  refine ⟨_, key_eq_ok ?_⟩
  rw [← h.length Aes.Key.size v, hr]

theorem tracks_generate_zeroed (h : env.EqualButKeys random env' random' R) :
    Tracks R (fun _ => False) (fun _ m' => m' = zeroMaterial) (env.engine.generate ctx)
      ((env'.zeroed random').engine.generate ctx) := by
  rw [h.uses.engine]
  refine ((h.check ctx).adaptExcept fun _ => id).bind fun _ _ _ w v hw => ?_
  exact .ok (h.key hw) rfl

theorem tracks_encrypt (h : env.EqualButKeys random env' random' R) (hk : key m = .ok k)
    (hk' : key m' = .ok k') (plaintext aad : Bytes) :
    Tracks R (fun _ => False) (fun c c' => c.length = c'.length)
      (env.engine.encrypt ctx m plaintext aad) (env'.engine.encrypt ctx m' plaintext aad) := by
  have hseal : ∀ nonce, Tracks R (fun _ => False) (fun c c' => c.length = c'.length)
      (ofResult (sealUnder k nonce plaintext aad) : EStateM EngineError σ Bytes)
      (ofResult (sealUnder k' nonce plaintext aad)) := by
    intro nonce
    rcases sealUnder_cases nonce plaintext aad with hs | hs
    · obtain ⟨c, hc, hl⟩ := hs k
      obtain ⟨c', hc', hl'⟩ := hs k'
      rw [hc, hc']
      exact .pure (hl.trans hl'.symm)
    · rw [hs k, hs k']
      exact .throw _
  rw [h.uses.engine, h.uses'.engine]
  refine ((h.check ctx).adaptExcept fun _ => id).bind fun _ _ _ => ?_
  rw [hk, hk']
  refine Tracks.bind (Q := fun a a' => a = k ∧ a' = k') (.pure ⟨rfl, rfl⟩) ?_
  rintro _ _ ⟨rfl, rfl⟩
  refine Tracks.bind (Q := Eq) (fun w v hw => .ok (h.nonce hw).2 (h.nonce hw).1) ?_
  rintro nonce _ rfl
  exact hseal nonce

theorem keepsTogether_decrypt (h : env.EqualButKeys random env' random' R)
    (ciphertext aad : Bytes) : KeepsTogether R (env.engine.decrypt ctx m ciphertext aad)
      (env'.engine.decrypt ctx m' ciphertext aad) := by
  rw [h.uses.engine, h.uses'.engine]
  refine Tracks.bind_keepsTogether ((h.check ctx).adaptExcept fun _ => id) (fun _ => id) ?_
  exact fun _ _ _ => .ofResult _ _

end AesGcm

end KeyManagement
