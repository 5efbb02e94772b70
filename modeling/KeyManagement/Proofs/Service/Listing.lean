import KeyManagement.Proofs.Service.Memory
import KeyManagement.Proofs.Store.Listing
import KeyManagement.Proofs.Text.Utf8

/-! # What a service lists

A listing answers with all that was created under its parent and with nothing else. Every
element is what a read of its name answers, and the names ascend byte by byte.
-/

namespace KeyManagement.Service

variable {σ : Type} {env : Environment σ} {ctx : Context} {s s' : Store} {w v : σ}
  {parent : String}

section Answers

theorem perform_listKeyRings {n : LocationName} (hv : env.check ctx w = .ok () v)
    (hn : LocationName.parse parent = .ok n) :
    perform env ctx (.listKeyRings parent "") ⟨s, w⟩ =
      .ok (.keyRings (s.listKeyRings n.resourceName)) ⟨s, v⟩ :=
  map_eq_ok_iff.mpr ⟨_, listKeyRings_eq_ok_iff.mpr ⟨v, n, hv, hn, rfl, rfl, rfl⟩, rfl⟩

theorem perform_listCryptoKeys {n : KeyRingName} {keys : List CryptoKey}
    (hv : env.check ctx w = .ok () v) (hn : KeyRingName.parse parent = .ok n)
    (hl : s.listCryptoKeys parent = .ok keys) :
    perform env ctx (.listCryptoKeys parent "") ⟨s, w⟩ = .ok (.cryptoKeys keys) ⟨s, v⟩ :=
  map_eq_ok_iff.mpr ⟨_, listCryptoKeys_eq_ok_iff.mpr ⟨v, hv, ⟨n, hn⟩, rfl, hl, rfl⟩, rfl⟩

theorem perform_listVersions {n : CryptoKeyName} {versions : List CryptoKeyVersion}
    (hv : env.check ctx w = .ok () v) (hn : CryptoKeyName.parse parent = .ok n)
    (hl : s.listVersions parent = .ok versions) :
    perform env ctx (.listVersions parent "") ⟨s, w⟩ = .ok (.versions versions) ⟨s, v⟩ :=
  map_eq_ok_iff.mpr ⟨_, listVersions_eq_ok_iff.mpr ⟨v, hv, ⟨n, hn⟩, rfl, hl, rfl⟩, rfl⟩

theorem list_eq_error {α β : Type} {x : Except NameError α} {n : α}
    {f : Store → Except StoreError β} {e : StoreError} (hv : env.check ctx w = .ok () v)
    (hx : x = .ok n) (hf : f s = .error e) :
    (do
      ensureLive env ctx
      discard <| demandAs (.invalidName .parent) x
      demand (rejectPageToken "")
      inStore .store (Store.look f) : Action Store σ β) ⟨s, w⟩ =
        .error (.failed (.store e)) ⟨s, v⟩ := by
  refine bind_eq_error_of_ok (ensureLive_of_check hv) ?_
  refine bind_eq_error_of_ok (discard_demandAs_of_ok hx) ?_
  refine bind_eq_error_of_ok (demand_eq_ok_iff.mpr ⟨rfl, rfl⟩) ?_
  exact inStore_look_eq_error_iff.mpr ⟨⟨e, hf, rfl⟩, rfl⟩

theorem perform_listCryptoKeys_eq_error {n : KeyRingName} {e : StoreError}
    (hv : env.check ctx w = .ok () v) (hn : KeyRingName.parse parent = .ok n)
    (hl : s.listCryptoKeys parent = .error e) :
    perform env ctx (.listCryptoKeys parent "") ⟨s, w⟩ = .error (.failed (.store e)) ⟨s, v⟩ :=
  map_eq_error_iff.mpr (list_eq_error hv hn hl)

theorem perform_listVersions_eq_error {n : CryptoKeyName} {e : StoreError}
    (hv : env.check ctx w = .ok () v) (hn : CryptoKeyName.parse parent = .ok n)
    (hl : s.listVersions parent = .error e) :
    perform env ctx (.listVersions parent "") ⟨s, w⟩ = .error (.failed (.store e)) ⟨s, v⟩ :=
  map_eq_error_iff.mpr (list_eq_error hv hn hl)

end Answers

section Parents

variable {c : Call σ} {a : Except (Stop ServiceError) Response} {e : Exchange σ}

/-- The crypto key was created under the key ring of the given name. -/
def Exchange.CreatesKey (e : Exchange σ) (ring : String) (key : CryptoKey) : Prop :=
  (∃ id spec, e.call.op = .createCryptoKey ring id spec) ∧ e.answer = .ok (.cryptoKey key)

/-- The version was created under the crypto key of the given name, as its first one or as a
later one. -/
def Exchange.CreatesVersion (e : Exchange σ) (key : String) (v : CryptoKeyVersion) : Prop :=
  (∃ ring created, e.CreatesKey ring created ∧ created.name = key ∧ created.primary = some v) ∨
    e.call.op = .createVersion key ∧ e.answer = .ok (.version v)

theorem Exchange.createdKey?_eq_some_iff {key : CryptoKey} :
    e.createdKey? = some key ↔ ∃ ring, e.CreatesKey ring key := by
  unfold createdKey? CreatesKey
  split
  · simp_all
  · next h =>
    simp only [reduceCtorEq, false_iff, not_exists, not_and]
    rintro ring ⟨id, spec, ho⟩ ha
    exact h _ _ _ _ ho ha

theorem Exchange.createdVersion?_eq_some_iff_exists {version : CryptoKeyVersion} :
    e.createdVersion? = some version ↔ ∃ key, e.CreatesVersion key version := by
  rw [createdVersion?_eq_some_iff]
  simp only [CreatesVersion, CreatesKey]
  constructor
  · rintro (⟨⟨key, ho⟩, ha⟩ | ⟨⟨ring, id, spec, ho⟩, key, ha, hp⟩)
    · exact ⟨key, .inr ⟨ho, ha⟩⟩
    · exact ⟨_, .inl ⟨ring, key, ⟨⟨id, spec, ho⟩, ha⟩, rfl, hp⟩⟩
  · rintro ⟨key, ⟨ring, created, ⟨⟨id, spec, ho⟩, ha⟩, -, hp⟩ | ⟨ho, ha⟩⟩
    · exact .inr ⟨⟨ring, id, spec, ho⟩, created, ha, hp⟩
    · exact .inl ⟨⟨key, ho⟩, ha⟩

theorem Effect.parent_of_createsKey (h : Effect env s c a s') {ring : String} {key : CryptoKey}
    (hk : (Exchange.mk c a).CreatesKey ring key) :
    ∃ n now, n.Valid ∧ key = createdKey n key.labels (firstVersion n now) key.createTime ∧
      n.parent.resourceName = ring := by
  have hc := Exchange.createdKey?_eq_some_iff.mpr ⟨ring, hk⟩
  obtain ⟨⟨id, spec, ho⟩, ha⟩ := hk
  cases h with
  | failure => contradiction
  | reading hop => simp [(Exchange.idle_of_reading hop _).key] at hc
  | key hop hn =>
    cases hop.symm.trans ho
    cases ha
    exact ⟨_, _, hn, rfl, rfl⟩
  | ring hop | version hop | primary hop => cases hop.symm.trans ho

theorem Effect.parent_of_createsVersion (h : Effect env s c a s') {key : String}
    {version : CryptoKeyVersion} (hv : (Exchange.mk c a).CreatesVersion key version) :
    ∃ n, CryptoKeyVersionName.parse version.name = .ok n ∧ n.parent.resourceName = key := by
  rcases hv with ⟨ring, created, hk, rfl, hp⟩ | ⟨ho, ha⟩
  · obtain ⟨n, _, hn, hc, -⟩ := h.parent_of_createsKey hk
    rw [hc] at hp ⊢
    cases hp
    exact ⟨_, CryptoKeyVersionName.parse_resourceName (n.version_valid hn 1), rfl⟩
  · have hc := Exchange.createdVersion?_eq_some_iff.mpr (.inl ⟨⟨key, ho⟩, ha⟩)
    cases h with
    | failure => contradiction
    | reading hop => simp [(Exchange.idle_of_reading hop _).version] at hc
    | version hop hm hs =>
      cases hop.symm.trans ho
      cases ha
      exact Store.parse_createNextVersion hs
    | ring hop | key hop | primary hop => cases hop.symm.trans ho

end Parents

section Listings

variable {log : List (Exchange σ)}

/-- The list of all that has a property, in ascending order of the names. These compare byte by
byte, and so nothing is listed twice. -/
structure Listing {α : Type} (name : α → String) (p : α → Prop) (l : List α) : Prop where
  mem : ∀ a, a ∈ l ↔ p a
  ascending : l.Pairwise fun a b => Bytes.ofText (name a) < Bytes.ofText (name b)

theorem Listing.of_lt {α : Type} {name : α → String} {p : α → Prop} {l : List α}
    (hm : ∀ a, a ∈ l ↔ p a) (ha : l.Pairwise fun a b => name a < name b) : Listing name p l :=
  ⟨hm, ha.imp Bytes.ofText_lt⟩

/-- What listings answer, under a live context, after the exchanges in a log. -/
structure Lists (env : Environment σ) (log : List (Exchange σ)) (s : Store) : Prop where
  /-- The key rings of a location are listed even if there are none. -/
  rings : ∀ {ctx w v parent n}, env.check ctx w = .ok () v → LocationName.parse parent = .ok n →
    ∃ rings, perform env ctx (.listKeyRings parent "") ⟨s, w⟩ = .ok (.keyRings rings) ⟨s, v⟩ ∧
      Listing KeyRing.name (fun ring => ring ∈ createdRings log ∧
        ∃ r, KeyRingName.parse ring.name = .ok r ∧ r.parent = n) rings ∧
      ∀ ring ∈ rings,
        perform env ctx (.getKeyRing ring.name) ⟨s, w⟩ = .ok (.keyRing ring) ⟨s, v⟩
  /-- Crypto keys are listed as they are now. -/
  keys : ∀ {ctx w v parent n}, env.check ctx w = .ok () v → KeyRingName.parse parent = .ok n →
    (∃ ring ∈ createdRings log, ring.name = parent) →
    ∃ keys, perform env ctx (.listCryptoKeys parent "") ⟨s, w⟩ = .ok (.cryptoKeys keys) ⟨s, v⟩ ∧
      Listing CryptoKey.name (fun key => ∃ e ∈ log, ∃ created, e.CreatesKey parent created ∧
        key = (designations created.name log).getLast?.getD created) keys ∧
      ∀ key ∈ keys,
        perform env ctx (.getCryptoKey key.name) ⟨s, w⟩ = .ok (.cryptoKey key) ⟨s, v⟩
  ringUnknown : ∀ {ctx w v parent n}, env.check ctx w = .ok () v →
    KeyRingName.parse parent = .ok n → (∀ ring ∈ createdRings log, ring.name ≠ parent) →
    ∃ e, e.code = .notFound ∧
      perform env ctx (.listCryptoKeys parent "") ⟨s, w⟩ =
        .error (.failed e) ⟨s, v⟩
  versions : ∀ {ctx w v parent n}, env.check ctx w = .ok () v →
    CryptoKeyName.parse parent = .ok n → (∃ key ∈ createdKeys log, key.name = parent) →
    ∃ versions, perform env ctx (.listVersions parent "") ⟨s, w⟩ =
        .ok (.versions versions) ⟨s, v⟩ ∧
      Listing CryptoKeyVersion.name (fun version => ∃ e ∈ log, e.CreatesVersion parent version)
        versions ∧
      ∀ version ∈ versions,
        perform env ctx (.getVersion version.name) ⟨s, w⟩ = .ok (.version version) ⟨s, v⟩
  keyUnknown : ∀ {ctx w v parent n}, env.check ctx w = .ok () v →
    CryptoKeyName.parse parent = .ok n → (∀ key ∈ createdKeys log, key.name ≠ parent) →
    ∃ e, e.code = .notFound ∧
      perform env ctx (.listVersions parent "") ⟨s, w⟩ =
        .error (.failed e) ⟨s, v⟩

theorem effect_of_mem_transcript {calls : List (Call σ)} {e : Exchange σ}
    (h : e ∈ transcript env s calls) : ∃ t t', Effect env t e.call e.answer t' := by
  induction calls generalizing s with
  | nil => contradiction
  | cons c calls ih =>
    rcases List.mem_cons.mp h with rfl | h
    · exact ⟨s, _, c.effect env s⟩
    · exact ih h

section Traced

variable (h : Traced env log s)
  (he : ∀ e ∈ log, ∃ t t', Effect env t e.call e.answer t')
include h he

/-- The crypto keys below a key ring are those that were created under it. -/
theorem Traced.findCryptoKey?_below_iff {key : CryptoKey} :
    (s.findCryptoKey? key.name = some key ∧
        ∃ n, CryptoKeyName.parse key.name = .ok n ∧ n.parent.resourceName = parent) ↔
      ∃ e ∈ log, ∃ created, e.CreatesKey parent created ∧
        key = (designations created.name log).getLast?.getD created := by
  have hparent : ∀ e ∈ log, ∀ ring created, e.CreatesKey ring created →
      ∃ n, CryptoKeyName.parse created.name = .ok n ∧ n.parent.resourceName = ring := by
    intro e hm ring created hk
    obtain ⟨t, t', heff⟩ := he e hm
    obtain ⟨n, _, hn, hc, hp⟩ := heff.parent_of_createsKey hk
    exact ⟨n, hc ▸ CryptoKeyName.parse_resourceName hn, hp⟩
  constructor
  · rintro ⟨hf, n, hn, hp⟩
    obtain ⟨created, hm, hname, hkey⟩ := (h.keys.found _ _).mp hf
    obtain ⟨e, hm, hc⟩ := List.mem_filterMap.mp hm
    obtain ⟨ring, hk⟩ := Exchange.createdKey?_eq_some_iff.mp hc
    obtain ⟨n', hn', hp'⟩ := hparent e hm ring created hk
    rw [hname, hn, Except.ok.injEq] at hn'
    rw [← hn', hp] at hp'
    exact ⟨e, hm, created, hp' ▸ hk, hname ▸ hkey⟩
  · rintro ⟨e, hm, created, hk, hkey⟩
    have hc : created ∈ createdKeys log :=
      List.mem_filterMap.mpr ⟨e, hm, Exchange.createdKey?_eq_some_iff.mpr ⟨parent, hk⟩⟩
    have hf := (h.keys.found _ _).mpr ⟨created, hc, rfl, hkey⟩
    have hname : key.name = created.name := by rw [h.keys.find_keeps hc hf]
    rw [hname]
    exact ⟨hf, hparent e hm parent created hk⟩

/-- The versions below a crypto key are those that were created under it. -/
theorem Traced.findVersion?_below_iff {version : CryptoKeyVersion} :
    ((∃ m, s.findVersion? version.name = some ⟨version, m⟩) ∧
        ∃ n, CryptoKeyVersionName.parse version.name = .ok n ∧ n.parent.resourceName = parent) ↔
      ∃ e ∈ log, e.CreatesVersion parent version := by
  have hparent : ∀ e ∈ log, ∀ key, e.CreatesVersion key version →
      ∃ n, CryptoKeyVersionName.parse version.name = .ok n ∧ n.parent.resourceName = key := by
    intro e hm key hk
    obtain ⟨t, t', heff⟩ := he e hm
    exact heff.parent_of_createsVersion hk
  constructor
  · rintro ⟨⟨m, hf⟩, n, hn, hp⟩
    obtain ⟨⟨e, hm, hc, -⟩, -⟩ := (h.versions _ _).mp hf
    obtain ⟨key, hk⟩ := Exchange.createdVersion?_eq_some_iff_exists.mp hc
    obtain ⟨n', hn', hp'⟩ := hparent e hm key hk
    rw [hn, Except.ok.injEq] at hn'
    rw [← hn', hp] at hp'
    exact ⟨e, hm, hp' ▸ hk⟩
  · rintro ⟨e, hm, hk⟩
    have hc := Exchange.createdVersion?_eq_some_iff_exists.mpr ⟨parent, hk⟩
    obtain ⟨m, hg⟩ := h.generated e hm version hc
    exact ⟨⟨m, (h.versions _ _).mpr ⟨⟨e, hm, hc, hg⟩, rfl⟩⟩, hparent e hm parent hk⟩

/-- What the store finds decides what the service lists. -/
theorem Traced.lists (hs : s.WellFormed) : Lists env log s := by
  constructor
  case rings =>
    intro ctx w v parent n hv hn
    refine ⟨_, perform_listKeyRings hv hn, .of_lt (fun ring => ?_)
      (hs.ascending_listKeyRings _), fun ring hm => ?_⟩
    · rw [hs.mem_listKeyRings_iff, h.rings]
      simp only [and_true]
    · obtain ⟨hf, r, hr, -⟩ := hs.mem_listKeyRings_iff.mp hm
      exact (perform_getKeyRing_eq_ok_iff hv).mpr ⟨rfl, ⟨r, hr⟩, ring, hf, rfl⟩
  case keys =>
    rintro ctx w v _ n hv hn ⟨ring, hm, rfl⟩
    obtain ⟨keys, hl⟩ := Store.exists_listCryptoKeys ((h.rings _ _).mpr ⟨hm, rfl⟩)
    refine ⟨keys, perform_listCryptoKeys hv hn hl, .of_lt (fun key => ?_)
      (hs.ascending_listCryptoKeys hl), fun key hm => ?_⟩
    · exact (hs.mem_listCryptoKeys_iff hl).trans (h.findCryptoKey?_below_iff he)
    · have hf := ((hs.mem_listCryptoKeys_iff hl).mp hm).1
      exact (perform_getCryptoKey_eq_ok_iff hv).mpr ⟨rfl, key, hf, rfl⟩
  case ringUnknown =>
    intro ctx w v parent n hv hn hnone
    have hf : s.findRing? parent = none := by
      rw [Option.eq_none_iff_forall_ne_some]
      intro ring hr
      obtain ⟨hm, hname⟩ := (h.rings _ _).mp hr
      exact hnone ring hm hname
    exact ⟨_, rfl, perform_listCryptoKeys_eq_error hv hn (Store.listCryptoKeys_of_absent hf)⟩
  case versions =>
    rintro ctx w v _ n hv hn ⟨key, hm, rfl⟩
    obtain ⟨versions, hl⟩ :=
      Store.exists_listVersions ((h.keys.found _ _).mpr ⟨key, hm, rfl, rfl⟩)
    refine ⟨versions, perform_listVersions hv hn hl, .of_lt (fun version => ?_)
      (hs.ascending_listVersions hl), fun version hm => ?_⟩
    · exact (hs.mem_listVersions_iff hl).trans (h.findVersion?_below_iff he)
    · obtain ⟨m, hf⟩ := ((hs.mem_listVersions_iff hl).mp hm).1
      exact (perform_getVersion_eq_ok_iff hv).mpr ⟨rfl, version, m, hf, rfl⟩
  case keyUnknown =>
    intro ctx w v parent n hv hn hnone
    have hf : s.findCryptoKey? parent = none := by
      rw [Option.eq_none_iff_forall_ne_some]
      intro key hk
      obtain ⟨created, hm, hname, -⟩ := (h.keys.found _ _).mp hk
      exact hnone created hm hname
    exact ⟨_, rfl, perform_listVersions_eq_error hv hn (Store.listVersions_of_absent hf)⟩

end Traced

/-- After whatever calls, listings are complete, exact and ordered. -/
theorem transcript_listed (env : Environment σ) (calls : List (Call σ)) :
    Lists env (transcript env .empty calls) (storeAfter env .empty calls) :=
  (traced_transcript env calls).lists (fun _ => effect_of_mem_transcript)
    (wellFormed_storeAfter env calls)

end Listings

end KeyManagement.Service

namespace KeyManagement.Sample

open Service

/-- Key rings of one location and of two whose identifiers begin alike. -/
def lookAlikes : List (Call (World Generator)) :=
  [("global-1", "r"), ("global", "s"), ("globalx", "r"), ("global", "r")].map fun (location, id) =>
    ⟨ctx, .createKeyRing ("projects/p/locations/" ++ location) id, world⟩

end KeyManagement.Sample

namespace KeyManagement.Service

open Sample in
theorem sample_listed : ∃ rings,
    perform env ctx (.listKeyRings "projects/p/locations/global" "")
        ⟨storeAfter env .empty lookAlikes, world⟩ =
      .ok (.keyRings rings) ⟨storeAfter env .empty lookAlikes, world⟩ ∧
    ⟨"projects/p/locations/global/keyRings/r", world.time⟩ ∈ rings ∧
    ∀ ring ∈ rings, ring.name ≠ "projects/p/locations/globalx/keyRings/r" := by
  have hv : env.check ctx world = .ok () world := rfl
  have hn : LocationName.parse "projects/p/locations/global" = .ok ⟨"p", "global"⟩ := by
    decide +kernel
  obtain ⟨rings, hp, hl, -⟩ := (transcript_listed env lookAlikes).rings hv hn
  refine ⟨rings, hp, (hl.mem _).mpr ⟨by decide +kernel, ⟨⟨"p", "global"⟩, "r"⟩, ?_, rfl⟩, ?_⟩
  · decide +kernel
  · intro ring hm hname
    have hx : KeyRingName.parse "projects/p/locations/globalx/keyRings/r" =
        .ok ⟨⟨"p", "globalx"⟩, "r"⟩ := by
      decide +kernel
    obtain ⟨-, r, hr, hp⟩ := (hl.mem ring).mp hm
    rw [hname, hx] at hr
    cases hr
    simp at hp

end KeyManagement.Service
