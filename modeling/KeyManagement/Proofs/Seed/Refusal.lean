import KeyManagement.Proofs.Seed.Declaration
import KeyManagement.Proofs.Seed.Progress

/-! # Documents that are refused

A seeding that nothing interrupts fails exactly on a document with a declaration that is not
acceptable. It stops at the first of them and leaves what the declarations before it have made.
-/

namespace KeyManagement.Seed

variable {σ : Type} {env : Environment σ} {ctx : Context}

/-- Identifiers follow their grammar, and crypto keys have a purpose that is supported. -/
def Declaration.Acceptable : Declaration → Prop
  | .ring n => n.Valid
  | .key n seed => isId n.cryptoKey = true ∧ seed.Supported

instance : DecidablePred Declaration.Acceptable
  | .ring _ => inferInstanceAs (Decidable ((_ ∧ _) ∧ _))
  | .key _ _ => inferInstanceAs (Decidable (_ ∧ _))

/-- There are numbers for all versions that are declared. No list in memory is too long. -/
def Declaration.Numerable : Declaration → Prop
  | .ring _ => True
  | .key _ seed => seed.versions.length < versionNumberLimit

instance : DecidablePred Declaration.Numerable
  | .ring _ => inferInstanceAs (Decidable True)
  | .key _ _ => inferInstanceAs (Decidable (_ < _))

/-- The error with which a declaration is refused. The purpose of a crypto key is looked at
before its identifier. -/
inductive Declaration.Refused : Declaration → ApplyError → Prop
  | ring {n : KeyRingName} {cause : ServiceError} (hn : ¬ n.Valid)
      (hc : Service.ringRequest n.parent.resourceName n.keyRing = .error cause) :
      Refused (.ring n) (.create .keyRing n.resourceName cause)
  | purpose {n : CryptoKeyName} {seed : CryptoKeySeed} (hp : ¬ seed.Supported) :
      Refused (.key n seed) (.unsupportedPurpose n.resourceName seed.purpose)
  | key {n : CryptoKeyName} {seed : CryptoKeySeed} {cause : ServiceError} (hp : seed.Supported)
      (hn : isId n.cryptoKey = false)
      (hc : Service.keyRequest n.parent.resourceName n.cryptoKey
        (some { purpose := .encryptDecrypt, labels := seed.labels }) = .error cause) :
      Refused (.key n seed) (.create .cryptoKey n.resourceName cause)

section Declarations

theorem seedable_of_acceptable {doc : Document} (ha : ∀ d ∈ doc.declarations, d.Acceptable)
    (hn : ∀ d ∈ doc.declarations, d.Numerable) :
    ∀ d ∈ doc.declared, d.2.Seedable d.1 := by
  intro d hd
  have hring : .ring d.1 ∈ doc.declarations :=
    List.mem_flatMap.mpr ⟨d, hd, List.mem_cons_self⟩
  have hkey : ∀ k ∈ d.2.cryptoKeys.entries, .key (d.1.key k.1) k.2 ∈ doc.declarations :=
    fun k hk => List.mem_flatMap.mpr ⟨d, hd, List.mem_cons_of_mem _ (List.mem_map_of_mem hk)⟩
  exact ⟨ha _ hring, fun k hk => ha _ (hkey k hk), fun k hk => hn _ (hkey k hk)⟩

theorem Document.mem_declarations_of_before {doc : Document} {d d' : Declaration}
    (h : d ∈ doc.declarations) (h' : d' ∈ (doc.before d).declarations) :
    d' ∈ doc.declarations := by
  obtain ⟨back, hb⟩ := doc.declarations_before h
  rw [hb]
  exact List.mem_append_left _ h'

variable {m : Summary} {st : Service.State Store σ}

theorem ensure_of_refused {op : Operation} {cause : ServiceError}
    {st' : Service.State Store σ} (subject : Subject) (name : String)
    (h : Service.perform env ctx op st = .error (.failed cause) st')
    (hc : cause.code = .invalidArgument) :
    ensure env ctx subject name op st = .error (.failed (.create subject name cause)) st' :=
  ensure_eq_error_iff.mpr ⟨.failed cause, by simp [hc], h, rfl⟩

theorem exists_refused_ring {n : KeyRingName} (hl : env.Sustained ctx st.world)
    (hn : ¬ n.Valid) : ∃ e st', (Declaration.ring n).Refused e ∧
      ensureRing env ctx n m st = .error (.failed e) st' ∧ st'.store = st.store := by
  obtain ⟨v, hv, -⟩ := hl.check
  cases hc : Service.ringRequest n.parent.resourceName n.keyRing with
  | ok n' => exact absurd (Service.ringRequest_resourceName.mp hc).2 hn
  | error cause =>
    have hp : Service.perform env ctx (.createKeyRing n.parent.resourceName n.keyRing) st =
        .error (.failed cause) ⟨st.store, v⟩ := Service.perform_createKeyRing_of_refused hv hc
    have he := ensure_of_refused .keyRing n.resourceName hp (Service.code_of_ringRequest hc)
    exact ⟨_, _, .ring hn hc, bind_eq_of_error he, rfl⟩

theorem exists_refused_key {n : CryptoKeyName} (labels : Labels)
    (hl : env.Sustained ctx st.world) (hn : isId n.cryptoKey = false) : ∃ cause st',
      Service.keyRequest n.parent.resourceName n.cryptoKey
        (some { purpose := .encryptDecrypt, labels }) = .error cause ∧
      ensureKey env ctx n labels m st =
        .error (.failed (.create .cryptoKey n.resourceName cause)) st' ∧ st'.store = st.store := by
  obtain ⟨v, hv, -⟩ := hl.check
  cases hc : Service.keyRequest n.parent.resourceName n.cryptoKey
      (some { purpose := .encryptDecrypt, labels }) with
  | ok p =>
    have hvalid := (Service.keyRequest_resourceName.mp hc).2.2.2
    exact absurd hvalid (by simp [hn])
  | error cause =>
    have hp : Service.perform env ctx (.createCryptoKey n.parent.resourceName n.cryptoKey
        (some { purpose := .encryptDecrypt, labels })) st = .error (.failed cause) ⟨st.store, v⟩ :=
      Service.perform_createCryptoKey_of_refused hv hc
    have he := ensure_of_refused .cryptoKey n.resourceName hp (Service.code_of_keyRequest hc)
    exact ⟨cause, _, rfl, bind_eq_of_error he, rfl⟩

theorem exists_refused {d : Declaration} (hl : env.Sustained ctx st.world)
    (hd : ¬ d.Acceptable) : ∃ e st', d.Refused e ∧
      seedDeclaration env ctx m d st = .error (.failed e) st' ∧ st'.store = st.store := by
  cases d with
  | ring n => exact exists_refused_ring hl hd
  | key n seed =>
    simp only [seedDeclaration, congrFun (seedKey_eq env ctx n seed) m]
    by_cases hp : seed.Supported
    · have hn : isId n.cryptoKey = false := by
        simpa using fun hn => hd ⟨hn, hp⟩
      obtain ⟨cause, st', hc, he, hs⟩ := exists_refused_key (m := m) seed.labels hl hn
      refine ⟨_, st', .key hp hn hc, ?_, hs⟩
      refine bind_eq_error_of_ok (v := st) ?_ (bind_eq_of_error he)
      rw [checkPurpose_of_supported hp]
      rfl
    · refine ⟨_, st, .purpose hp, bind_eq_of_error ?_, rfl⟩
      have hc : seed.purpose ≠ "" ∧ seed.purpose ≠ "ENCRYPT_DECRYPT" := not_or.mp hp
      rw [checkPurpose, if_pos hc]
      rfl

end Declarations

section Documents

variable {doc : Document} {s : Store} {w : σ}

theorem exists_apply_of_acceptable (hs : s.WellFormed) (hl : env.Sustained ctx w)
    (ha : ∀ d ∈ doc.declarations, d.Acceptable) (hn : ∀ d ∈ doc.declarations, d.Numerable) :
    ∃ m st, apply env ctx doc ⟨s, w⟩ = .ok m st ∧ env.Sustained ctx st.world :=
  exists_apply hs hl (seedable_of_acceptable ha hn)

/-- The first declaration that is not acceptable cuts the seeding off. -/
theorem apply_of_refused {d : Declaration} (hs : s.WellFormed) (hl : env.Sustained ctx w)
    (hn : ∀ d ∈ doc.declarations, d.Numerable)
    (hd : doc.declarations.find? (fun d => ¬ d.Acceptable) = some d) :
    ∃ e m st st', d.Refused e ∧ apply env ctx (doc.before d) ⟨s, w⟩ = .ok m st ∧
      apply env ctx doc ⟨s, w⟩ = .error (.failed e) st' ∧ st'.store = st.store := by
  have hmem := List.mem_of_find?_eq_some hd
  have hbad : ¬ d.Acceptable := by simpa using List.find?_some hd
  have hacceptable : ∀ d' ∈ (doc.before d).declarations, d'.Acceptable :=
    fun d' h' => by simpa using Document.before_of_find? hd d' h'
  obtain ⟨m, st, hbefore, hst⟩ := exists_apply_of_acceptable hs hl hacceptable
    fun d' h' => hn d' (Document.mem_declarations_of_before hmem h')
  obtain ⟨e, st', hr, he, hstore⟩ := exists_refused (m := m) hst hbad
  obtain ⟨rest, hsplit⟩ := apply_eq_of_mem (S := Store) env ctx hmem
  rw [hsplit]
  exact ⟨e, m, st, st', hr, hbefore, bind_eq_error_of_ok hbefore (bind_eq_of_error he), hstore⟩

/-- A seeding succeeds exactly if every declaration is acceptable. Otherwise it fails with the
error of the first one that is not, and with the store that seeding the document cut off before
it leaves. -/
theorem apply_stops_at_first_refused {σ₀ : Type} {env₀ : Environment σ₀} {w₀ : σ₀}
    (hr : Service.Reachable env₀ ⟨s, w₀⟩) (hl : env.Sustained ctx w)
    (hn : ∀ d ∈ doc.declarations, d.Numerable) :
    ((∃ m st, apply env ctx doc ⟨s, w⟩ = .ok m st) ↔ ∀ d ∈ doc.declarations, d.Acceptable) ∧
    ∀ d, doc.declarations.find? (fun d => ¬ d.Acceptable) = some d →
      ∃ e m st st', d.Refused e ∧ apply env ctx (doc.before d) ⟨s, w⟩ = .ok m st ∧
        apply env ctx doc ⟨s, w⟩ = .error (.failed e) st' ∧ st'.store = st.store := by
  have hs : s.WellFormed := hr.wellFormed
  refine ⟨⟨?_, fun ha => ?_⟩, fun d hd => apply_of_refused hs hl hn hd⟩
  · rintro ⟨m, st, hok⟩ d hd
    by_contra hbad
    obtain ⟨d', hd'⟩ : ∃ d', doc.declarations.find? (fun d => ¬ d.Acceptable) = some d' :=
      Option.isSome_iff_exists.mp (List.find?_isSome.mpr ⟨d, hd, by simpa using hbad⟩)
    obtain ⟨e, _, _, st', -, -, herr, -⟩ := apply_of_refused hs hl hn hd'
    cases hok.symm.trans herr
  · obtain ⟨m, st, h, -⟩ := exists_apply_of_acceptable hs hl ha hn
    exact ⟨m, st, h⟩

end Documents

end KeyManagement.Seed

namespace KeyManagement.Sample

open Seed

/-- A purpose that is not supported stands between a crypto key that exists and a key ring
whose identifier is none. -/
def flawed : Document where
  projects := .ofList [("p", { locations := .ofList [("l", { keyRings := .ofList [
    ("r", { cryptoKeys := .ofList [("k", { versions := [{}, {}] }),
      ("no key", { purpose := "ASYMMETRIC_SIGN" }), ("z", {})] }),
    ("r/s", {})] })] })]

def flaw : Declaration :=
  .key ⟨⟨⟨"p", "l"⟩, "r"⟩, "no key"⟩ { purpose := "ASYMMETRIC_SIGN" }

end KeyManagement.Sample

namespace KeyManagement.Seed

open Sample in
theorem sample_stops_at_first_refused : ∃ m st st',
    apply env ctx (flawed.before flaw) created = .ok m st ∧
    apply env ctx flawed created =
      .error (.failed (.unsupportedPurpose (key "no key") "ASYMMETRIC_SIGN")) st' ∧
    st'.store = st.store := by
  have hd : flawed.declarations.find? (fun d => ¬ d.Acceptable) = some flaw := by decide +kernel
  have hn : ∀ d ∈ flawed.declarations, d.Numerable := by decide +kernel
  obtain ⟨e, m, st, st', he, hbefore, herr, hs⟩ :=
    (apply_stops_at_first_refused reachable_created sustained hn).2 _ hd
  cases he with
  | purpose hp => exact ⟨m, st, st', hbefore, herr, hs⟩
  | key hp => exact absurd hp (by decide)

end KeyManagement.Seed
