import KeyManagement.Proofs.Seed.Fulfilment
import KeyManagement.Proofs.Seed.Ideal
import KeyManagement.Proofs.Seed.Write

/-! # Seeding once more

A seeding that was cut short, wherever that was, is completed by another one, which ends as a
single seeding would have ended. What a stage has settled stays settled while the store grows,
so that another seeding passes it by.
-/

namespace KeyManagement.Seed

variable {σ : Type} {env : Environment σ} {ctx ctx₀ : Context}

/-- The stage can be taken up again wherever it has stopped. What is left to do then is told by
its ideal version, on the outlines of the states. -/
structure Resumes (env : Environment σ) (F : Stage Store σ) (G : Stage Store Unit) : Prop where
  tracks : ∀ m, Step.Tracks .blank (fun _ _ => True) ServiceError.Interrupts Eq (F m) (G m)
  writes : ∀ m, (F m).Writes env
  idealWrites : ∀ m, (G m).Writes .ideal
  /-- The summary so far has no effect. -/
  blind : ∀ m l t, ending id (G m t) = ending id (G l t)
  /-- After a success there is nothing left to do, now or later. -/
  settled : ∀ {m m' t t'}, G m t = .ok m' t' →
    ∀ l u, t'.store.Grows u.store → G l u = .ok l u
  /-- After a failure what is left to do leads to the same end. -/
  resumed : ∀ {m e st st'}, F m st = .error e st' →
    ∀ l, ending id (G l st'.outline) = ending id (G l st.outline)

namespace Resumes

variable {F F' : Stage Store σ} {G G' : Stage Store Unit}

theorem pure : Resumes env (Pure.pure : Stage Store σ) Pure.pure where
  tracks _ := .pure rfl
  writes _ := writes_pure _
  idealWrites _ := writes_pure _
  blind _ _ _ := rfl
  settled _ _ _ _ := rfl
  resumed h := absurd h pure_ne_error

theorem resumed_comp (h : Resumes env F G) (h' : Resumes env F' G') {m l : Summary}
    {e : Stop ApplyError} {st st' : Service.State Store σ} (hk : (F >=> F') m st = .error e st') :
    ending id ((G >=> G') l st'.outline) = ending id ((G >=> G') l st.outline) := by
  rcases bind_eq_error_iff.mp hk with hk | ⟨m₁, st₁, hk, hk'⟩
  · exact ending_bind (h.resumed hk l) h'.blind
  · -- The second stage was cut short, so the first one has nothing left to do.
    have hg : st₁.store.Grows st'.store := by
      simpa only [hk', finalState] using (h'.writes m₁).grows st₁
    have hideal := (h.tracks m).of_ok hk
    have hlater : G l st'.outline = .ok l st'.outline := h.settled hideal l _ hg.redact
    obtain ⟨l₁, hl⟩ : ∃ l₁, G l st.outline = .ok l₁ st₁.outline := by
      refine ending_eq_none_iff.mp ((h.blind l m _).trans ?_)
      rw [hideal]
      rfl
    calc ending id ((G >=> G') l st'.outline)
        = ending id (G' l st'.outline) := congrArg _ (bind_eq_of_ok hlater)
      _ = ending id (G' l st₁.outline) := h'.resumed hk' l
      _ = ending id (G' l₁ st₁.outline) := h'.blind l l₁ _
      _ = ending id ((G >=> G') l st.outline) := congrArg _ (bind_eq_of_ok hl).symm

theorem comp (h : Resumes env F G) (h' : Resumes env F' G') :
    Resumes env (F >=> F') (G >=> G') where
  tracks m := by
    refine (h.tracks m).bind ?_
    rintro l _ rfl
    exact h'.tracks l
  writes m := writes_bind (h.writes m) h'.writes
  idealWrites m := writes_bind (h.idealWrites m) h'.idealWrites
  blind m l t := ending_bind (h.blind m l t) h'.blind
  settled := by
    intro m m' t t' hk l u hg
    obtain ⟨m₁, t₁, hk₁, hk₂⟩ := bind_eq_ok_iff.mp hk
    have hg₁ : t₁.store.Grows t'.store := by
      simpa only [hk₂, finalState] using (h'.idealWrites m₁).grows t₁
    exact bind_eq_ok_iff.mpr ⟨l, u, h.settled hk₁ l u (hg₁.trans hg), h'.settled hk₂ l u hg⟩
  resumed hk _ := resumed_comp h h' hk

/-- However a stage has ended, doing it once more ends as it would have ended at first. -/
theorem again (h : Resumes env F G) (m l : Summary) (st : Service.State Store σ) :
    ending id (G l (finalState (F m st)).outline) = ending id (G l st.outline) := by
  cases hk : F m st with
  | error e st' => exact h.resumed hk l
  | ok m' st' =>
    have hideal := (h.tracks m).of_ok hk
    calc ending id (G l st'.outline)
        = (none, st'.outline) := by rw [h.settled hideal l _ (.refl _), ending, id]
      _ = ending id (G m st.outline) := by rw [hideal, ending, id]
      _ = ending id (G l st.outline) := h.blind m l _

end Resumes

section Stages

theorem resumes_ensureRing (n : KeyRingName) :
    Resumes env (ensureRing env ctx n) (ensureRing .ideal ctx₀ n) where
  tracks _ :=
    tracks_ensureRing (env.mirrors_ideal ctx ctx₀) (fun _ => ServiceError.Interrupts.code_ne) n
  writes _ := (performs_ensureRing n).writes
  idealWrites _ := (performs_ensureRing n).writes
  blind _ _ _ := ending_bind rfl fun _ _ _ => rfl
  settled h l u hg := by
    obtain ⟨hn, ring, hr⟩ := present_of_ensureRing h
    exact ensureRing_of_present hn (hg.findRing? hr) l
  resumed h _ := by rw [Service.State.outline_congr (store_of_counted_error h)]

theorem resumes_checkPurpose (n : CryptoKeyName) (purpose : String) :
    Resumes env (checkPurpose n purpose) (checkPurpose n purpose) where
  tracks _ := tracks_checkPurpose n purpose
  writes m := writes_checkPurpose m n purpose
  idealWrites m := writes_checkPurpose m n purpose
  blind _ _ _ := by
    unfold checkPurpose
    split <;> rfl
  settled h l u _ := by
    unfold checkPurpose at h ⊢
    split at h
    · exact absurd h throw_ne_ok
    · next hp =>
      rw [if_neg hp]
      rfl
  resumed h _ := by rw [Service.State.outline_congr (store_of_checkPurpose_error h)]

theorem resumes_ensureKey (n : CryptoKeyName) (labels : Labels) :
    Resumes env (ensureKey env ctx n labels) (ensureKey .ideal ctx₀ n labels) where
  tracks _ :=
    tracks_ensureKey (env.mirrors_ideal ctx ctx₀) (fun _ => ServiceError.Interrupts.code_ne) n
      labels
  writes _ := (performs_ensureKey n labels).writes
  idealWrites _ := (performs_ensureKey n labels).writes
  blind _ _ _ := ending_bind rfl fun _ _ _ => rfl
  settled h l u hg := by
    obtain ⟨hn, r, hr⟩ := present_of_ensureKey h
    obtain ⟨r', hr', -⟩ := hg.keys _ r hr
    exact ensureKey_of_present hn hr' l
  resumed h _ := by rw [Service.State.outline_congr (store_of_counted_error h)]

theorem enough_of_topUp {n : CryptoKeyName} {wanted : Nat} {m m' : Summary}
    {st st' : Service.State Store σ} (h : topUp env ctx n wanted m st = .ok m' st') :
    ∃ r, st'.store.findKey? n.resourceName = some r ∧ wanted ≤ r.versions.values.length := by
  obtain ⟨r, hr, -, hv⟩ := topUp_eq_ok h
  obtain ⟨r', hr', -, hl⟩ := hv.findKey? hr
  exact ⟨r', hr', by omega⟩

theorem resumed_topUp {n : CryptoKeyName} {wanted : Nat} {m : Summary} {e : Stop ApplyError}
    {st st' : Service.State Store σ} (h : topUp env ctx n wanted m st = .error e st')
    (l : Summary) : ending id (topUp .ideal ctx₀ n wanted l st'.outline) =
      ending id (topUp .ideal ctx₀ n wanted l st.outline) := by
  rcases topUp_eq_error h with hs | ⟨r, j, t, t', hr, hj, ht, hc, hs⟩
  · rw [Service.State.outline_congr hs]
  · -- The versions created before the failure are listed, so that no others replace them.
    have hideal : createVersions .ideal ctx₀ n.resourceName j t.outline = .ok () t'.outline :=
      (tracks_createVersions (env.mirrors_ideal ctx ctx₀) n.resourceName j).of_ok hc
    rw [Service.State.outline_congr ht, ← Service.State.outline_congr hs] at hideal
    have hbefore : st.outline.store.findKey? n.resourceName = some (r.redact .blank) :=
      (Store.findKey?_redact _).trans (congrArg _ hr)
    obtain ⟨r', hafter, -, hl⟩ := (createVersions_eq_ok hideal).findKey? hbefore
    have hlack : wanted - (r.redact .blank).versions.values.length =
        j + (wanted - r'.versions.values.length) := by
      rw [KeyRecord.length_redact] at hl ⊢
      omega
    rw [topUp_of_present hafter, topUp_of_present hbefore, hlack, createVersions_add, bind_assoc,
      bind_eq_of_ok hideal]
    exact ending_bind_congr fun _ _ => rfl

theorem resumes_topUp (n : CryptoKeyName) (wanted : Nat) :
    Resumes env (topUp env ctx n wanted) (topUp .ideal ctx₀ n wanted) where
  tracks _ := tracks_topUp (env.mirrors_ideal ctx ctx₀) n wanted
  writes _ := (performs_topUp n wanted).writes
  idealWrites _ := (performs_topUp n wanted).writes
  blind _ _ _ := ending_bind_congr fun _ _ => ending_bind_congr fun _ _ => rfl
  settled h l u hg := by
    obtain ⟨r, hr, hw⟩ := enough_of_topUp h
    obtain ⟨r', hr', hg'⟩ := hg.keys _ r hr
    have h0 : wanted - r'.versions.values.length = 0 :=
      Nat.sub_eq_zero_of_le (hw.trans hg'.length_le)
    rw [topUp_of_present hr', h0]
    rfl
  resumed h := resumed_topUp h

theorem resumes_seedAll (env : Environment σ) (ctx ctx₀ : Context) (doc : Document) :
    Resumes env (seedAll env ctx doc) (seedAll .ideal ctx₀ doc) :=
  seedAll_induction env ctx .ideal ctx₀ .pure .comp resumes_ensureRing resumes_checkPurpose
    resumes_ensureKey resumes_topUp doc

end Stages

def Summary.total (m : Summary) : Nat := m.keyRings + m.cryptoKeys + m.versions

/-- What a stage creates is counted in its summary. -/
def Stage.Counts (F : Stage Store σ) : Prop :=
  ∀ m m' st st', F m st = .ok m' st' →
    m.total ≤ m'.total ∧ (m'.total = m.total → st'.store = st.store)

section Counting

variable {F F' : Stage Store σ}

theorem Stage.Counts.comp (h : F.Counts) (h' : F'.Counts) : Stage.Counts (F >=> F') := by
  intro m m' st st' hk
  obtain ⟨m₁, st₁, hk₁, hk₂⟩ := bind_eq_ok_iff.mp hk
  obtain ⟨hle, hs⟩ := h _ _ _ _ hk₁
  obtain ⟨hle', hs'⟩ := h' _ _ _ _ hk₂
  refine ⟨hle.trans hle', fun ht => ?_⟩
  rw [hs' (by omega), hs (by omega)]

theorem counts_ensureRing (n : KeyRingName) : Stage.Counts (ensureRing env ctx n) := by
  intro m m' st st' h
  obtain ⟨-, ⟨rfl, hs, -⟩ | ⟨rfl, -⟩⟩ := ensureRing_eq_ok h
  · exact ⟨Nat.le_refl _, fun _ => hs⟩
  · simp only [Summary.total]
    omega

theorem counts_checkPurpose (n : CryptoKeyName) (purpose : String) :
    Stage.Counts (checkPurpose n purpose : Stage Store σ) := by
  intro m m' st st' h
  obtain ⟨rfl, rfl⟩ := checkPurpose_eq_ok h
  exact ⟨Nat.le_refl _, fun _ => rfl⟩

theorem counts_ensureKey (n : CryptoKeyName) (labels : Labels) :
    Stage.Counts (ensureKey env ctx n labels) := by
  intro m m' st st' h
  obtain ⟨-, ⟨rfl, hs, -⟩ | ⟨rfl, -⟩⟩ := ensureKey_eq_ok h
  · exact ⟨Nat.le_refl _, fun _ => hs⟩
  · simp only [Summary.total]
    omega

theorem counts_topUp (n : CryptoKeyName) (wanted : Nat) :
    Stage.Counts (topUp env ctx n wanted) := by
  intro m m' st st' h
  obtain ⟨r, -, rfl, hv⟩ := topUp_eq_ok h
  simp only [Summary.total]
  refine ⟨by omega, fun ht => ?_⟩
  have h0 : wanted - r.versions.values.length = 0 := by omega
  rw [h0] at hv
  exact hv.eq_of_zero

theorem counts_seedAll (env : Environment σ) (ctx : Context) (doc : Document) :
    Stage.Counts (seedAll env ctx doc : Stage Store σ) := by
  refine seedAll_induction (P := fun F (_ : Stage Store σ) => F.Counts) env ctx env ctx ?_
    .comp counts_ensureRing counts_checkPurpose counts_ensureKey counts_topUp doc
  intro m m' st st' h
  obtain ⟨rfl, rfl⟩ := pure_eq_ok_iff.mp h
  exact ⟨Nat.le_refl _, fun _ => rfl⟩

end Counting

section Applications

variable {doc : Document} {s : Store} {w : σ}

/-- A seeding that is never interrupted ends as it does in the ideal environment. -/
theorem ending_apply (h : env.Sustained ctx w) (ctx₀ : Context) :
    ending Service.State.outline (apply env ctx doc ⟨s, w⟩) =
      ending id (seedAll .ideal ctx₀ doc {} ⟨s.outline, ()⟩) :=
  (tracks_seedAll (env.mirrors_ideal_sustained ctx ctx₀) (fun _ => False.elim) doc {} ⟨s, w⟩
    ⟨s.outline, ()⟩ ⟨rfl, h⟩).ending_eq ApplyError.not_failsWith fun _ _ hst => hst.eq_outline.symm

/-- A seeding of what has been seeded creates nothing. -/
theorem apply_of_settled (h : env.Sustained ctx w)
    (hs : seedAll .ideal ctx₀ doc {} ⟨s.outline, ()⟩ = .ok {} ⟨s.outline, ()⟩) :
    ∃ v, apply env ctx doc ⟨s, w⟩ = .ok {} ⟨s, v⟩ := by
  obtain ⟨⟨t, v⟩, hk, -⟩ := exists_apply_of_ideal h hs
  obtain ⟨-, hstore⟩ := counts_seedAll env ctx doc _ _ _ _ hk
  obtain rfl : t = s := hstore rfl
  exact ⟨v, hk⟩

/-- Wherever a first seeding was cut short, if at all, another one that is not cut short ends
as a single one does, with the same store apart from times and material. After a first seeding
that succeeded it creates nothing. -/
theorem apply_again {σ₁ σ₂ σ₃ : Type} (env₁ : Environment σ₁) (ctx₁ : Context) (doc : Document)
    (st : Service.State Store σ₁) {env₂ : Environment σ₂} {ctx₂ : Context} {w₂ : σ₂}
    {env₃ : Environment σ₃} {ctx₃ : Context} {w₃ : σ₃} (h₂ : env₂.Sustained ctx₂ w₂)
    (h₃ : env₃.Sustained ctx₃ w₃) :
    let first := apply env₁ ctx₁ doc st
    let again := apply env₂ ctx₂ doc ⟨(finalState first).store, w₂⟩
    let single := apply env₃ ctx₃ doc ⟨st.store, w₃⟩
    ending Service.State.outline again = ending Service.State.outline single ∧
      ∀ m st', first = .ok m st' → ∃ w, again = .ok {} ⟨st'.store, w⟩ := by
  intro first again single
  have hr := resumes_seedAll env₁ ctx₁ ctx₂ doc
  constructor
  · calc ending Service.State.outline again
        = ending id (seedAll .ideal ctx₂ doc {} (finalState first).outline) := ending_apply h₂ ctx₂
      _ = ending id (seedAll .ideal ctx₂ doc {} st.outline) := hr.again {} {} st
      _ = ending Service.State.outline single := (ending_apply h₃ ctx₂).symm
  · intro m st' hfirst
    have hideal := (hr.tracks {}).of_ok hfirst
    have hsettled : seedAll .ideal ctx₂ doc {} st'.outline = .ok {} st'.outline :=
      hr.settled hideal {} _ (.refl _)
    change ∃ w, apply env₂ ctx₂ doc ⟨(finalState first).store, w₂⟩ = .ok {} ⟨st'.store, w⟩
    rw [hfirst, finalState]
    exact apply_of_settled h₂ hsettled

end Applications

end KeyManagement.Seed

namespace KeyManagement.Sample

open Seed

/-- An engine that has run out of randomness after two keys. -/
def exhausted : Engine (World Generator) :=
  { Engine.random with
    generate := fun ctx w =>
      if w.entropy.counter < 4 then Engine.random.generate ctx w
      else .error (.invalidKeyMaterial "entropy unavailable") w }

end KeyManagement.Sample

namespace KeyManagement.Seed

open Sample in
/-- The first seeding stops between two versions of a crypto key. -/
theorem sample_again :
    answerOf (apply (World.environment exhausted) ctx document created) =
      .error (.failed (.create .cryptoKeyVersion (key "k")
        (.engine .generate (.invalidKeyMaterial "entropy unavailable")))) ∧
    ending Service.State.outline (apply env ctx document
      ⟨(finalState (apply (World.environment exhausted) ctx document created)).store,
        created.world⟩) =
      ending Service.State.outline (apply env ctx document created) ∧
    ∃ m st w, apply env ctx document created = .ok m st ∧
      apply env ctx document ⟨st.store, created.world⟩ = .ok {} ⟨st.store, w⟩ := by
  have hcut := apply_again (World.environment exhausted) ctx document created sustained sustained
  have hall := apply_again env ctx document created sustained sustained
  obtain ⟨st, h⟩ := seeded
  obtain ⟨w, hw⟩ := hall.2 _ st h
  rw [h, finalState] at hw
  exact ⟨by decide +kernel, hcut.1, _, st, w, h, hw⟩

end KeyManagement.Seed
