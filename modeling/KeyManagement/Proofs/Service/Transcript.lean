import KeyManagement.Proofs.Service.Effect
import KeyManagement.Proofs.Service.Creation
import KeyManagement.Proofs.Service.History
import Mathlib.Data.List.Induction

/-! # Transcripts

The transcript of a service that starts without resources tells what its store holds. A key
ring or a version is found as it was created, and a crypto key is found as it was created or as
the last designation of a primary left it.
-/

namespace KeyManagement.Service

variable {σ : Type} {env : Environment σ}

section Transcripts

variable (env : Environment σ)

def storeAfter (s : Store) (calls : List (Call σ)) : Store :=
  calls.foldl (fun s c => c.after env s) s

/-- Calls made one after another, with the answers to them. -/
def transcript (s : Store) : List (Call σ) → List (Exchange σ)
  | [] => []
  | c :: calls => ⟨c, c.answer env s⟩ :: transcript (c.after env s) calls

theorem storeAfter_append_singleton (s : Store) (calls : List (Call σ)) (c : Call σ) :
    storeAfter env s (calls ++ [c]) = c.after env (storeAfter env s calls) := by
  simp [storeAfter]

theorem transcript_append_singleton (s : Store) (calls : List (Call σ)) (c : Call σ) :
    transcript env s (calls ++ [c]) =
      transcript env s calls ++ [⟨c, c.answer env (storeAfter env s calls)⟩] := by
  induction calls generalizing s with
  | nil => rfl
  | cons c' calls ih => exact congrArg _ (ih _)

theorem reachable_storeAfter (calls : List (Call σ)) (w : σ) :
    Reachable env ⟨storeAfter env .empty calls, w⟩ := by
  induction calls using List.reverseRecOn generalizing w with
  | nil => exact ⟨w, [], rfl⟩
  | append_singleton calls c ih =>
    obtain ⟨v, history, h⟩ := ih c.world
    refine ⟨v, history ++ [.perform c.ctx c.op, .elapse w], ?_⟩
    rw [storeAfter_append_singleton, run, List.foldl_append]
    exact congrArg
      (fun st => (Event.elapse w).apply env ((Event.perform c.ctx c.op).apply env st)) h

theorem wellFormed_storeAfter (calls : List (Call σ)) :
    (storeAfter env .empty calls).WellFormed := by
  cases calls with
  | nil => exact Store.wellFormed_empty
  | cons c calls => exact (reachable_storeAfter env (c :: calls) c.world).wellFormed

end Transcripts

def createdRings (log : List (Exchange σ)) : List KeyRing := log.filterMap Exchange.createdRing?

def createdKeys (log : List (Exchange σ)) : List CryptoKey := log.filterMap Exchange.createdKey?

def createdVersions (log : List (Exchange σ)) : List CryptoKeyVersion :=
  log.filterMap Exchange.createdVersion?

/-- The answers to the designations of a primary for a crypto key. -/
def designations (name : String) (log : List (Exchange σ)) : List CryptoKey :=
  log.filterMap (Exchange.designated? name)

section Lookups

variable {log : List (Exchange σ)} {s s' : Store} {e : Exchange σ}

/-- The crypto keys of the store are those that the log tells of. -/
structure TracedKeys (log : List (Exchange σ)) (s : Store) : Prop where
  found : ∀ name key, s.findCryptoKey? name = some key ↔
    ∃ created ∈ createdKeys log, created.name = name ∧
      key = (designations name log).getLast?.getD created
  designated : ∀ name, ∀ key ∈ designations name log, ∃ created ∈ createdKeys log,
    created.name = name
  kept : ∀ created ∈ createdKeys log, ∀ key ∈ designations created.name log,
    key = { created with primary := key.primary }

namespace TracedKeys

theorem start : TracedKeys ([] : List (Exchange σ)) .empty where
  found name key := by simp [createdKeys]
  designated := by simp [designations]
  kept := by simp [createdKeys]

theorem find_keeps (h : TracedKeys log s) {created key : CryptoKey}
    (hc : created ∈ createdKeys log) (hk : s.findCryptoKey? created.name = some key) :
    key = { created with primary := key.primary } := by
  have hl := (h.found _ _).mpr ⟨created, hc, rfl, rfl⟩
  rw [hk, Option.some.injEq] at hl
  cases hd : (designations created.name log).getLast? with
  | none =>
    rw [hd] at hl
    subst hl
    rfl
  | some last =>
    rw [hd] at hl
    subst hl
    exact h.kept _ hc _ (List.mem_of_getLast? hd)

theorem ne_of_created (h : TracedKeys log s) {name : String}
    (hnew : s.findCryptoKey? name = none) : ∀ created ∈ createdKeys log, created.name ≠ name := by
  intro created hc hn
  have hf := (h.found _ _).mpr ⟨created, hc, rfl, rfl⟩
  rw [hn, hnew] at hf
  contradiction

theorem designations_eq_nil (h : TracedKeys log s) {name : String}
    (hnew : s.findCryptoKey? name = none) : designations name log = [] := by
  rw [List.eq_nil_iff_forall_not_mem]
  intro key hkey
  obtain ⟨created, hc, hn⟩ := h.designated name key hkey
  exact h.ne_of_created hnew created hc hn

theorem create (h : TracedKeys log s) {new : CryptoKey} (hc : e.createdKey? = some new)
    (hd : ∀ name, e.designated? name = none) (hnew : s.findCryptoKey? new.name = none)
    (hs : ∀ name, s'.findCryptoKey? name =
      if name = new.name then some new else s.findCryptoKey? name) :
    TracedKeys (log ++ [e]) s' := by
  have hck : createdKeys (log ++ [e]) = createdKeys log ++ [new] := by
    simp [createdKeys, hc]
  have hde : ∀ name, designations name (log ++ [e]) = designations name log := by
    simp [designations, hd]
  have hfree := h.ne_of_created hnew
  have hnil := h.designations_eq_nil hnew
  constructor
  case found =>
    intro name key
    rw [hs, hck, hde]
    split
    · next hn =>
      subst hn
      simp only [List.mem_append, List.mem_singleton, hnil, List.getLast?_nil, Option.getD_none,
        Option.some.injEq]
      constructor
      · rintro rfl
        exact ⟨_, .inr rfl, rfl, rfl⟩
      · rintro ⟨_, hm | rfl, hn, rfl⟩
        · exact absurd hn (hfree _ hm)
        · rfl
    · next hn =>
      rw [h.found]
      constructor
      · rintro ⟨created, hm, rfl, rfl⟩
        exact ⟨created, List.mem_append_left _ hm, rfl, rfl⟩
      · rintro ⟨created, hm, rfl, rfl⟩
        rcases List.mem_append.mp hm with hm | hm
        · exact ⟨created, hm, rfl, rfl⟩
        · exact absurd (congrArg _ (List.mem_singleton.mp hm)) hn
  case designated =>
    intro name key hkey
    rw [hde] at hkey
    obtain ⟨created, hm, hn⟩ := h.designated name key hkey
    exact ⟨created, hck ▸ List.mem_append_left _ hm, hn⟩
  case kept =>
    intro created hm key hkey
    rw [hde] at hkey
    rw [hck] at hm
    rcases List.mem_append.mp hm with hm | hm
    · exact h.kept created hm key hkey
    · rw [List.mem_singleton.mp hm, hnil] at hkey
      contradiction

theorem designate (h : TracedKeys log s) {name : String} {old updated : CryptoKey}
    (hc : e.createdKey? = none)
    (hd : ∀ name', e.designated? name' = if name = name' then some updated else none)
    (hold : s.findCryptoKey? name = some old)
    (hkeeps : updated = { old with primary := updated.primary })
    (hs : ∀ name', s'.findCryptoKey? name' =
      if name' = name then some updated else s.findCryptoKey? name') :
    TracedKeys (log ++ [e]) s' := by
  have hck : createdKeys (log ++ [e]) = createdKeys log := by simp [createdKeys, hc]
  have hde : designations name (log ++ [e]) = designations name log ++ [updated] := by
    simp [designations, hd]
  have hde' : ∀ name', name' ≠ name →
      designations name' (log ++ [e]) = designations name' log := by
    intro name' hn
    simp [designations, hd, Ne.symm hn]
  obtain ⟨origin, ho, hon, -⟩ := (h.found _ _).mp hold
  constructor
  case found =>
    intro name' key
    rw [hs, hck]
    split
    · next hn =>
      subst hn
      simp only [hde, List.getLast?_append, List.getLast?_singleton, Option.some_or,
        Option.getD_some, Option.some.injEq]
      constructor
      · rintro rfl
        exact ⟨origin, ho, hon, rfl⟩
      · rintro ⟨-, -, -, rfl⟩
        rfl
    · next hn => rw [h.found, hde' _ hn]
  case designated =>
    intro name' key hkey
    rw [hck]
    by_cases hn : name' = name
    · exact ⟨origin, ho, hn ▸ hon⟩
    · exact h.designated name' key (hde' _ hn ▸ hkey)
  case kept =>
    intro created hm key hkey
    rw [hck] at hm
    by_cases hn : created.name = name
    · rw [hn, hde] at hkey
      rcases List.mem_append.mp hkey with hkey | hkey
      · exact h.kept created hm key (hn ▸ hkey)
      · have ho : old = { created with primary := old.primary } :=
          h.find_keeps hm (by rw [hn, hold])
        rw [List.mem_singleton.mp hkey]
        exact hkeeps.trans (by rw [ho])
    · exact h.kept created hm key (hde' _ hn ▸ hkey)

theorem step (h : TracedKeys log s) (hk : KeyChange e s s') : TracedKeys (log ++ [e]) s' := by
  cases hk with
  | unchanged hc hd hs =>
    have hck : createdKeys (log ++ [e]) = createdKeys log := by simp [createdKeys, hc]
    have hde : ∀ name, designations name (log ++ [e]) = designations name log := by
      simp [designations, hd]
    constructor
    case found => simpa only [hck, hde, hs] using h.found
    case designated => simpa only [hck, hde] using h.designated
    case kept => simpa only [hck, hde] using h.kept
  | created hc hd hnew hs => exact h.create hc hd hnew hs
  | designated hc hd hold hkeeps hs => exact h.designate hc hd hold hkeeps hs

end TracedKeys

/-- The store finds what the log tells of, and nothing else. -/
structure Traced (env : Environment σ) (log : List (Exchange σ)) (s : Store) : Prop where
  rings : ∀ name ring, s.findRing? name = some ring ↔
    ring ∈ createdRings log ∧ ring.name = name
  keys : TracedKeys log s
  versions : ∀ name r, s.findVersion? name = some r ↔
    (∃ e ∈ log, e.createdVersion? = some r.version ∧ e.call.Generates env r.material) ∧
      r.version.name = name
  generated : ∀ e ∈ log, ∀ version, e.createdVersion? = some version →
    ∃ material, e.call.Generates env material

theorem traced_start : Traced env [] .empty where
  rings name ring := by simp [createdRings, Store.findRing?, Store.empty]
  keys := .start
  versions name r := by simp
  generated := by simp

theorem Traced.step {c : Call σ} {a : Except (Stop ServiceError) Response} (h : Traced env log s)
    (he : Effect env s c a s') : Traced env (log ++ [⟨c, a⟩]) s' where
  rings name ring := by
    rw [he.findRing?_eq_some_iff, h.rings, ← or_and_right]
    simp only [createdRings, List.filterMap_append, List.mem_append, List.mem_filterMap,
      List.mem_singleton, exists_eq_left]
  keys := h.keys.step he.keyChange
  versions name r := by
    rw [he.findVersion?_eq_some_iff, h.versions, ← and_assoc, ← or_and_right]
    simp only [List.mem_append, List.mem_singleton, or_and_right, exists_or, exists_eq_left]
  generated e hm version hv := by
    rcases List.mem_append.mp hm with hm | hm
    · exact h.generated e hm version hv
    · obtain rfl := List.mem_singleton.mp hm
      exact he.exists_generates hv

theorem traced_transcript (env : Environment σ) (calls : List (Call σ)) :
    Traced env (transcript env .empty calls) (storeAfter env .empty calls) := by
  induction calls using List.reverseRecOn with
  | nil => exact traced_start
  | append_singleton calls c ih =>
    rw [transcript_append_singleton, storeAfter_append_singleton]
    exact ih.step (c.effect env _)

end Lookups

end KeyManagement.Service
