import KeyManagement.Proofs.Seed.Outcome
import KeyManagement.Proofs.Service.History

/-! # What a seeding leaves

A seeding that succeeds leaves a store with all that is declared and, apart from that, what was
there before. Its summary counts what is new.
-/

namespace KeyManagement.Seed

open Store

variable {σ : Type} {env : Environment σ} {ctx : Context}

/-- The record of a declared crypto key, given the record that it had before, if any. -/
structure Provides (n : CryptoKeyName) (seed : CryptoKeySeed) (before : Option KeyRecord)
    (r : KeyRecord) : Prop where
  count : r.versions.values.length =
    max (before.elim 0 fun old => old.versions.values.length) (max 1 seed.versions.length)
  new : before = none → r.key.labels = seed.labels ∧
    ∃ v, r.key.primary = some v ∧ v.name = (n.version 1).resourceName
  old : ∀ old, before = some old → r.key = old.key ∧
    ∀ v rec, old.versions.find? v = some rec → r.versions.find? v = some rec

/-- What part of a seeding makes of a store and of the summary. -/
structure Seeds (rings : List KeyRingName) (keys : List (CryptoKeyName × CryptoKeySeed))
    (s : Store) (m : Summary) (s' : Store) (m' : Summary) : Prop where
  wellFormed : s'.WellFormed
  grows : s.Grows s'
  ring : ∀ n ∈ rings, ∃ ring, s'.findRing? n.resourceName = some ring
  otherRing : ∀ name, (∀ n ∈ rings, n.resourceName ≠ name) →
    s'.findRing? name = s.findRing? name
  valid : ∀ d ∈ keys, d.1.Valid
  key : ∀ d ∈ keys, ∃ r, s'.findKey? d.1.resourceName = some r ∧
    Provides d.1 d.2 (s.findKey? d.1.resourceName) r
  otherKey : ∀ name, (∀ d ∈ keys, d.1.resourceName ≠ name) → s'.findKey? name = s.findKey? name
  ringCount : s'.census.rings + m.keyRings = s.census.rings + m'.keyRings
  keyCount : s'.census.keys + m.cryptoKeys = s.census.keys + m'.cryptoKeys
  versionCount : s'.census.versions + m.versions + m.cryptoKeys =
    s.census.versions + m'.versions + m'.cryptoKeys

namespace Seeds

variable {rings rings' : List KeyRingName} {keys keys' : List (CryptoKeyName × CryptoKeySeed)}
  {s s' t : Store} {m m' l : Summary}

theorem refl (hs : s.WellFormed) (m : Summary) : Seeds [] [] s m s m where
  wellFormed := hs
  grows := .refl s
  ring := by simp
  otherRing _ _ := rfl
  valid := by simp
  key := by simp
  otherKey _ _ := rfl
  ringCount := rfl
  keyCount := rfl
  versionCount := rfl

/-- Parts that declare different crypto keys do not get in each other's way. -/
theorem append (h : Seeds rings keys s m t l) (h' : Seeds rings' keys' t l s' m')
    (hd : ∀ d ∈ keys, ∀ d' ∈ keys', d.1 ≠ d'.1) :
    Seeds (rings ++ rings') (keys ++ keys') s m s' m' where
  wellFormed := h'.wellFormed
  grows := h.grows.trans h'.grows
  ring n hn := by
    rcases List.mem_append.mp hn with hn | hn
    · obtain ⟨ring, hr⟩ := h.ring n hn
      exact ⟨ring, h'.grows.findRing? hr⟩
    · exact h'.ring n hn
  otherRing name hn := by
    rw [h'.otherRing name fun n hm => hn n (List.mem_append_right _ hm),
      h.otherRing name fun n hm => hn n (List.mem_append_left _ hm)]
  valid d hd := by
    rcases List.mem_append.mp hd with hd | hd
    · exact h.valid d hd
    · exact h'.valid d hd
  key d hm := by
    rcases List.mem_append.mp hm with hm | hm
    · obtain ⟨r, hr, hp⟩ := h.key d hm
      refine ⟨r, ?_, hp⟩
      rw [h'.otherKey, hr]
      intro d' hm' he
      exact hd d hm d' hm' ((CryptoKeyName.resourceName_eq_iff (h.valid d hm)).mp he).symm
    · obtain ⟨r, hr, hp⟩ := h'.key d hm
      refine ⟨r, hr, ?_⟩
      rwa [h.otherKey] at hp
      intro d' hm' he
      exact hd d' hm' d hm ((CryptoKeyName.resourceName_eq_iff (h'.valid d hm)).mp he)
  otherKey name hn := by
    rw [h'.otherKey name fun d hm => hn d (List.mem_append_right _ hm),
      h.otherKey name fun d hm => hn d (List.mem_append_left _ hm)]
  ringCount := by
    have := h.ringCount
    have := h'.ringCount
    omega
  keyCount := by
    have := h.keyCount
    have := h'.keyCount
    omega
  versionCount := by
    have := h.versionCount
    have := h'.versionCount
    omega

end Seeds

section Stages

variable {m m' : Summary} {st st' : Service.State Store σ}

theorem seeds_ensureRing {n : KeyRingName} (hs : st.store.WellFormed)
    (h : ensureRing env ctx n m st = .ok m' st') : Seeds [n] [] st.store m st'.store m' := by
  obtain ⟨hn, ⟨rfl, he, ring, hr⟩ | ⟨rfl, now, hc⟩⟩ := ensureRing_eq_ok h
  · rw [he]
    exact { Seeds.refl hs m' with
      ring := by simpa using ⟨ring, hr⟩
      otherRing := fun _ _ => rfl }
  · have hs' := hs.createKeyRing hc (KeyRingName.parse_resourceName hn)
    have hf := findRing?_createKeyRing hc
    have hcount := census_createKeyRing hs hs' hc
    exact {
      wellFormed := hs'
      grows := grows_createKeyRing hc
      ring := by
        simp only [List.mem_singleton, forall_eq]
        exact ⟨_, by rw [hf, if_pos rfl]⟩
      otherRing := fun name hn => by rw [hf, if_neg (Ne.symm (hn n (by simp)))]
      valid := by simp
      key := by simp
      otherKey := fun name _ => findKey?_createKeyRing hc name
      ringCount := by
        rw [hcount]
        dsimp only
        omega
      keyCount := by rw [hcount]
      versionCount := by rw [hcount] }

variable {n : CryptoKeyName} {seed : CryptoKeySeed} {s s' t : Store}

theorem provides_old {r : KeyRecord} (hs : s.WellFormed)
    (hr : s.findKey? n.resourceName = some r)
    (hv : NewVersions n.resourceName (seed.versions.length - r.versions.values.length) s s') :
    ∃ r', s'.findKey? n.resourceName = some r' ∧ Provides n seed (some r) r' := by
  obtain ⟨r', hr', hk, hl⟩ := hv.findKey? hr
  have h1 := (hs.findKey hr).counted.1
  obtain ⟨r'', hr'', hg⟩ := hv.grows.keys _ r hr
  obtain rfl := Option.some.inj (hr'.symm.trans hr'')
  refine ⟨r', hr', ?_, fun h => ?_, ?_⟩
  · rw [hl, Option.elim_some]
    omega
  · cases h
  · rintro old ⟨⟩
    exact ⟨hk, hg.versions⟩

theorem provides_new {now later : Timestamp} {material : KeyMaterial} {r : KeyRecord} (hn : n.Valid)
    (hc : createCryptoKey n.parent.resourceName
      (Service.createdKey n seed.labels (Service.firstVersion n now) later)
      (Service.firstVersion n now) material s = .ok () t)
    (hr : t.findKey? n.resourceName = some r)
    (hv : NewVersions n.resourceName (seed.versions.length - r.versions.values.length) t s') :
    ∃ r', s'.findKey? n.resourceName = some r' ∧
      Provides n seed (s.findKey? n.resourceName) r' := by
  have hp := CryptoKeyName.parse_resourceName hn
  have hnone := findKey?_eq_none_of_createCryptoKey hc hp rfl
  rw [Service.createdKey_name] at hnone
  have hnew := findKey?_createCryptoKey hc hp rfl n.resourceName
  rw [Service.createdKey_name, if_pos rfl, hr, Option.some.injEq] at hnew
  obtain ⟨r', hr', hk, hl⟩ := hv.findKey? hr
  refine ⟨r', hr', ?_, fun _ => ?_, fun old h => ?_⟩
  · have h1 : r.versions.values.length = 1 := by
      rw [hnew]
      rfl
    rw [hl, h1, hnone, Option.elim_none]
    omega
  · rw [hk, hnew]
    exact ⟨rfl, _, rfl, rfl⟩
  · rw [hnone] at h
    cases h

theorem seeds_old {r : KeyRecord} (hn : n.Valid) (hs : s.WellFormed)
    (hr : s.findKey? n.resourceName = some r)
    (hv : NewVersions n.resourceName (seed.versions.length - r.versions.values.length) s s') :
    Seeds [] [(n, seed)] s m s'
      { m with versions := m.versions + (seed.versions.length - r.versions.values.length) } where
  wellFormed := hv.wellFormed hs
  grows := hv.grows
  ring := by simp
  otherRing name _ := hv.findRing? name
  valid := by simpa using hn
  key := by simpa only [List.mem_singleton, forall_eq, hr] using provides_old hs hr hv
  otherKey name hne := by
    simp only [List.mem_singleton, forall_eq] at hne
    exact hv.findKey?_of_ne (Ne.symm hne)
  ringCount := by rw [hv.census hs]
  keyCount := by rw [hv.census hs]
  versionCount := by
    rw [hv.census hs]
    dsimp only
    omega

theorem seeds_new {now later : Timestamp} {material : KeyMaterial} {r : KeyRecord} (hn : n.Valid)
    (hs : s.WellFormed)
    (hc : createCryptoKey n.parent.resourceName
      (Service.createdKey n seed.labels (Service.firstVersion n now) later)
      (Service.firstVersion n now) material s = .ok () t)
    (hr : t.findKey? n.resourceName = some r)
    (hv : NewVersions n.resourceName (seed.versions.length - r.versions.values.length) t s') :
    Seeds [] [(n, seed)] s m s'
      { m with
        cryptoKeys := m.cryptoKeys + 1
        versions := m.versions + (seed.versions.length - r.versions.values.length) } := by
  have hp := CryptoKeyName.parse_resourceName hn
  have ht : t.WellFormed := hs.createCryptoKey hc hn rfl rfl
  have hcount := census_createCryptoKey hs ht hc hp rfl rfl
  constructor
  case wellFormed => exact hv.wellFormed ht
  case grows => exact (grows_createCryptoKey hc).trans hv.grows
  case ring => simp
  case otherRing =>
    intro name _
    rw [hv.findRing?, findRing?_createCryptoKey hc]
  case valid => simpa using hn
  case key => simpa only [List.mem_singleton, forall_eq] using provides_new hn hc hr hv
  case otherKey =>
    intro name hne
    simp only [List.mem_singleton, forall_eq] at hne
    rw [hv.findKey?_of_ne (Ne.symm hne), findKey?_createCryptoKey hc hp rfl,
      Service.createdKey_name, if_neg (Ne.symm hne)]
  case ringCount => rw [hv.census ht, hcount]
  case keyCount =>
    rw [hv.census ht, hcount]
    dsimp only
    omega
  case versionCount =>
    rw [hv.census ht, hcount]
    dsimp only
    omega

theorem seeds_seedKey (hs : st.store.WellFormed)
    (h : seedKey env ctx n seed m st = .ok m' st') :
    Seeds [] [(n, seed)] st.store m st'.store m' := by
  rw [seedKey_eq] at h
  obtain ⟨_, _, hpurpose, hrest⟩ := bind_eq_ok_iff.mp h
  obtain ⟨rfl, rfl⟩ := checkPurpose_eq_ok hpurpose
  obtain ⟨l, t, hensure, htop⟩ := bind_eq_ok_iff.mp hrest
  obtain ⟨r, hr, rfl, hv⟩ := topUp_eq_ok htop
  obtain ⟨hn, ⟨rfl, he, -⟩ | ⟨rfl, now, later, material, hc⟩⟩ := ensureKey_eq_ok hensure
  · rw [he] at hr hv
    exact seeds_old hn hs hr hv
  · exact seeds_new hn hs hc hr hv

end Stages

section Passes

variable {β : Type} {f : Summary → β → Step Store σ Summary} {R : β → List KeyRingName}
  {K : β → List (CryptoKeyName × CryptoKeySeed)}

theorem seeds_foldlM {bs : List β} {m m' : Summary} {st st' : Service.State Store σ}
    (hf : ∀ b ∈ bs, ∀ {m m' st st'}, st.store.WellFormed → f m b st = .ok m' st' →
      Seeds (R b) (K b) st.store m st'.store m')
    (hd : bs.Pairwise fun b b' => ∀ d ∈ K b, ∀ d' ∈ K b', d.1 ≠ d'.1)
    (hs : st.store.WellFormed) (h : bs.foldlM f m st = .ok m' st') :
    Seeds (bs.flatMap R) (bs.flatMap K) st.store m st'.store m' := by
  induction bs generalizing m st with
  | nil =>
    obtain ⟨rfl, rfl⟩ := pure_eq_ok_iff.mp h
    exact .refl hs m
  | cons b bs ih =>
    rw [List.foldlM_cons] at h
    obtain ⟨l, t, hb, h⟩ := bind_eq_ok_iff.mp h
    obtain ⟨hdb, hds⟩ := List.pairwise_cons.mp hd
    have hfirst := hf b List.mem_cons_self hs hb
    have hrest := ih (fun b' hb' => hf b' (List.mem_cons_of_mem _ hb')) hds hfirst.wellFormed h
    refine hfirst.append hrest fun d hm d' hm' => ?_
    obtain ⟨b', hb', hm'⟩ := List.mem_flatMap.mp hm'
    exact hdb b' hb' d hm d' hm'

end Passes

/-- The declared crypto keys of a key ring. -/
def keysOf (d : KeyRingName × KeyRingSeed) : List (CryptoKeyName × CryptoKeySeed) :=
  d.2.cryptoKeys.entries.map fun k => (d.1.key k.1, k.2)

/-- The declared crypto keys in the order in which they are seeded. -/
def Document.declaredKeys (doc : Document) : List (CryptoKeyName × CryptoKeySeed) :=
  doc.declared.flatMap keysOf

section Distinct

theorem Document.pairwise_declared (doc : Document) :
    doc.declared.Pairwise fun d d' => d.1 ≠ d'.1 := by
  refine List.pairwise_flatMap.mpr ⟨fun p _ => List.pairwise_flatMap.mpr ⟨fun l _ => ?_, ?_⟩, ?_⟩
  · refine List.pairwise_map.mpr ((Keyed.pairwise_entries_ne _).imp fun hne he => hne ?_)
    exact congrArg KeyRingName.keyRing he
  · refine (Keyed.pairwise_entries_ne _).imp fun {l l'} hne d hd d' hd' he => hne ?_
    obtain ⟨r, -, rfl⟩ := List.mem_map.mp hd
    obtain ⟨r', -, rfl⟩ := List.mem_map.mp hd'
    exact congrArg (fun n : KeyRingName => n.parent.location) he
  · refine (Keyed.pairwise_entries_ne _).imp fun {p p'} hne d hd d' hd' he => hne ?_
    obtain ⟨l, -, hd⟩ := List.mem_flatMap.mp hd
    obtain ⟨r, -, rfl⟩ := List.mem_map.mp hd
    obtain ⟨l', -, hd'⟩ := List.mem_flatMap.mp hd'
    obtain ⟨r', -, rfl⟩ := List.mem_map.mp hd'
    exact congrArg (fun n : KeyRingName => n.parent.project) he

theorem ne_of_mem_keysOf {d d' : KeyRingName × KeyRingSeed} (h : d.1 ≠ d'.1)
    {k k' : CryptoKeyName × CryptoKeySeed} (hk : k ∈ keysOf d) (hk' : k' ∈ keysOf d') :
    k.1 ≠ k'.1 := by
  obtain ⟨_, -, rfl⟩ := List.mem_map.mp hk
  obtain ⟨_, -, rfl⟩ := List.mem_map.mp hk'
  exact fun he => h (congrArg CryptoKeyName.parent he)

end Distinct

section Documents

variable {m m' : Summary} {st st' : Service.State Store σ}

theorem seeds_seedRing {d : KeyRingName × KeyRingSeed} (hs : st.store.WellFormed)
    (h : seedRing env ctx m d st = .ok m' st') :
    Seeds [d.1] (keysOf d) st.store m st'.store m' := by
  rw [congrFun (seedRing_eq env ctx d) m] at h
  obtain ⟨l, t, hring, hkeys⟩ := bind_eq_ok_iff.mp h
  have hfirst := seeds_ensureRing hs hring
  have hrest : Seeds (d.2.cryptoKeys.entries.flatMap fun _ => []) (keysOf d) t.store l
      st'.store m' := by
    rw [keysOf, List.map_eq_flatMap]
    refine seeds_foldlM (fun _ _ _ _ _ _ hs h => seeds_seedKey hs h) ?_ hfirst.wellFormed hkeys
    refine (Keyed.pairwise_entries_ne _).imp fun hne d hd d' hd' he => hne ?_
    rw [List.mem_singleton.mp hd, List.mem_singleton.mp hd'] at he
    exact congrArg CryptoKeyName.cryptoKey he
  rw [List.flatMap_eq_nil_iff.mpr (by simp)] at hrest
  exact hfirst.append hrest (by simp)

theorem seeds_apply {doc : Document} {s : Store} {w : σ} (hs : s.WellFormed)
    (h : apply env ctx doc ⟨s, w⟩ = .ok m st') :
    Seeds (doc.declared.map (·.1)) doc.declaredKeys s {} st'.store m := by
  rw [List.map_eq_flatMap]
  exact seeds_foldlM (fun _ _ _ _ _ _ hs h => seeds_seedRing hs h)
    (doc.pairwise_declared.imp fun hne _ hd _ hd' => ne_of_mem_keysOf hne hd hd') hs h

end Documents

/-- What a successful seeding makes of a store, and what its summary says. -/
structure Fulfils (doc : Document) (s s' : Store) (m : Summary) : Prop where
  ring : ∀ d ∈ doc.declared, ∃ ring, s'.findRing? d.1.resourceName = some ring
  key : ∀ d ∈ doc.declaredKeys, ∃ r, s'.findKey? d.1.resourceName = some r ∧
    Provides d.1 d.2 (s.findKey? d.1.resourceName) r
  keptRing : ∀ name ring, s.findRing? name = some ring → s'.findRing? name = some ring
  otherRing : ∀ name, (∀ d ∈ doc.declared, d.1.resourceName ≠ name) →
    s'.findRing? name = s.findRing? name
  otherKey : ∀ name, (∀ d ∈ doc.declaredKeys, d.1.resourceName ≠ name) →
    s'.findKey? name = s.findKey? name
  ringCount : m.keyRings = (s'.ringNames \ s.ringNames).card
  keyCount : m.cryptoKeys = (s'.keyNames \ s.keyNames).card
  /-- The first version of a new crypto key is not counted. -/
  versionCount : m.versions + m.cryptoKeys = (s'.versionNames \ s.versionNames).card

/-- A seeding that succeeds leaves all that the document declares, and else nothing new. -/
theorem apply_fulfils {σ₀ : Type} {env₀ : Environment σ₀} {w₀ : σ₀} {env : Environment σ}
    {ctx : Context} {doc : Document} {s : Store} {w : σ} {m : Summary}
    {st : Service.State Store σ} (hr : Service.Reachable env₀ ⟨s, w₀⟩)
    (h : apply env ctx doc ⟨s, w⟩ = .ok m st) : Fulfils doc s st.store m := by
  have hs : s.WellFormed := hr.wellFormed
  have hd := seeds_apply hs h
  constructor
  case ring => exact fun d hm => hd.ring _ (List.mem_map_of_mem hm)
  case key => exact hd.key
  case keptRing => exact fun name ring hr => hd.grows.findRing? hr
  case otherRing =>
    intro name hne
    refine hd.otherRing name fun n hn => ?_
    obtain ⟨d, hm, rfl⟩ := List.mem_map.mp hn
    exact hne d hm
  case otherKey => exact hd.otherKey
  case ringCount =>
    have hc := hd.ringCount
    rw [Finset.card_sdiff_of_subset hd.grows.ringNames_subset]
    simp only [census] at hc
    omega
  case keyCount =>
    have hc := hd.keyCount
    rw [Finset.card_sdiff_of_subset (hd.grows.keyNames_subset hs hd.wellFormed)]
    simp only [census] at hc
    omega
  case versionCount =>
    have hc := hd.versionCount
    rw [Finset.card_sdiff_of_subset (hd.grows.versionNames_subset hs hd.wellFormed)]
    simp only [census] at hc
    omega

end KeyManagement.Seed

namespace KeyManagement.Sample

open Seed

/-- Asks for two more versions of a crypto key that exists, and for a key that does not. -/
def document : Document where
  projects := .ofList [("p", { locations := .ofList [("l", { keyRings := .ofList [("r",
    { cryptoKeys := .ofList [("k", { versions := [{}, {}, {}] }), ("new", {})] })] })] })]

theorem seeded : ∃ st, apply env ctx document created =
    .ok { cryptoKeys := 1, versions := 2 } st :=
  exists_of_answerOf (by decide +kernel)

end KeyManagement.Sample

namespace KeyManagement.Seed

open Sample in
theorem sample_fulfils : ∃ m st, apply env ctx document created = .ok m st ∧
    m = { cryptoKeys := 1, versions := 2 } ∧ Fulfils document created.store st.store m := by
  obtain ⟨st, h⟩ := seeded
  exact ⟨_, st, h, rfl, apply_fulfils reachable_created h⟩

end KeyManagement.Seed
