import KeyManagement.Proofs.Store.Lookup

/-! # Places in a store

The part of a store that one write looks at and changes is a key ring name or a crypto key name.
Steps that act on different places, neither inside the other, can be done in either order.
-/

namespace KeyManagement

namespace Keyed

variable {α : Type} {m m' : Keyed α} {k k' : String} {u v : α} {f g : α → α}

theorem insert_comm (h : k ≠ k') :
    (m.insert k u).insert k' v = (m.insert k' v).insert k u := by
  refine ext_find? fun l => ?_
  simp only [find?_insert]
  split
  · next hl => rw [if_neg (hl ▸ h.symm)]
  · rfl

theorem modify_comm (h : k ≠ k') :
    (m.modify k f).modify k' g = (m.modify k' g).modify k f := by
  refine ext_find? fun l => ?_
  simp only [find?_modify, if_neg h, if_neg h.symm]
  split
  · next hl => rw [if_neg (hl ▸ h.symm)]
  · rfl

theorem modify_comm_of_commute (h : ∀ a, f (g a) = g (f a)) :
    (m.modify k f).modify k g = (m.modify k g).modify k f := by
  refine ext_find? fun l => ?_
  simp only [find?_modify, if_true, Option.map_map]
  rw [show g ∘ f = f ∘ g from funext fun a => (h a).symm]
  split
  · rfl
  · rfl

theorem insert_modify_comm (h : k ≠ k') :
    (m.insert k u).modify k' f = (m.modify k' f).insert k u := by
  refine ext_find? fun l => ?_
  simp only [find?_modify, find?_insert, if_neg h.symm]
  split
  · next hl => rw [if_neg (hl ▸ h.symm)]
  · rfl

end Keyed

namespace Store

/-- A part of a store that is read and written by itself. -/
structure Place (β γ : Type) where
  read : Store → β
  write : Store → γ → Store

namespace Place

variable {α β γ α' β' γ' : Type} {p : Place β γ} {q : Place β' γ'}

/-- Neither place shows what is written to the other. -/
structure Apart (p : Place β γ) (q : Place β' γ') : Prop where
  read_left : ∀ s v, p.read (q.write s v) = p.read s
  read_right : ∀ s u, q.read (p.write s u) = q.read s
  write_comm : ∀ s u v, q.write (p.write s u) v = p.write (q.write s v) u

theorem Apart.symm (h : p.Apart q) : q.Apart p where
  read_left := h.read_right
  read_right := h.read_left
  write_comm s u v := (h.write_comm s v u).symm

theorem apart_of_inert {b : β'} (h : ∀ s, q.read s = b ∧ ∀ v, q.write s v = s) : p.Apart q where
  read_left s v := by rw [(h s).2]
  read_right s u := by rw [(h _).1, (h s).1]
  write_comm s u v := by rw [(h _).2, (h s).2]

/-- What a step gives depends on one place, and that place is all it writes. -/
def ActsOn (p : Place β γ) (step : Store → α × Store) : Prop :=
  ∀ s, ∃ a, ∃ u : Option γ, ∀ s', p.read s' = p.read s → step s' = (a, u.elim s' (p.write s'))

/-- Steps on places apart give the same in either order, and leave the same store. -/
theorem Apart.steps_comm (h : p.Apart q) {f : Store → α × Store} {g : Store → α' × Store}
    (hf : p.ActsOn f) (hg : q.ActsOn g) (s : Store) :
    (f (g s).2).1 = (f s).1 ∧ (g (f s).2).1 = (g s).1 ∧ (g (f s).2).2 = (f (g s).2).2 := by
  obtain ⟨a, u, hf⟩ := hf s
  obtain ⟨b, v, hg⟩ := hg s
  have hread : p.read (v.elim s (q.write s)) = p.read s := by
    cases v with
    | none => rfl
    | some v => exact h.read_left s v
  have hread' : q.read (u.elim s (p.write s)) = q.read s := by
    cases u with
    | none => rfl
    | some u => exact h.read_right s u
  rw [hf s rfl, hg s rfl, hf _ hread, hg _ hread']
  refine ⟨rfl, rfl, ?_⟩
  cases u with
  | none => cases v <;> rfl
  | some u =>
    cases v with
    | none => rfl
    | some v => exact h.write_comm s u v

/-- What a write gives, and whether it is done, depends on the place that it writes. -/
def UpdatedBy (p : Place β γ) (x : Access Store α) : Prop :=
  ∀ s, (∃ e, ∀ s', p.read s' = p.read s → x s' = .error e s') ∨
    ∃ a u, ∀ s', p.read s' = p.read s → x s' = .ok a (p.write s' u)

end Place

/-- Whether there is a key ring of the name, and a key ring put there without keys. -/
def ringPlace (name : String) : Place Bool KeyRing where
  read s := s.rings.contains name
  write s ring := ⟨s.rings.insert name ⟨ring, .empty⟩⟩

/-- The record of a crypto key, if its key ring is there at all. -/
def keyPlace (name : String) : Place (Option (Option KeyRecord)) KeyRecord where
  read s := (CryptoKeyName.parse name).toOption.bind fun n =>
    (s.rings.find? n.parent.resourceName).map fun ring => ring.keys.find? name
  write s record := s.replaceKey name record

/-- The first name is that of the key ring in which the second name belongs. -/
def Contains (ring key : String) : Prop :=
  ∃ n, CryptoKeyName.parse key = .ok n ∧ n.parent.resourceName = ring

instance (ring key : String) : Decidable (Contains ring key) :=
  match h : CryptoKeyName.parse key with
  | .error _ => .isFalse fun ⟨_, hn, _⟩ => nomatch h.symm.trans hn
  | .ok n => decidable_of_iff (n.parent.resourceName = ring)
    ⟨fun hr => ⟨n, h, hr⟩, fun ⟨_, hn, hr⟩ => Except.ok.inj (h.symm.trans hn) ▸ hr⟩

variable {name name' : String}

theorem read_keyPlace {n : CryptoKeyName} (h : CryptoKeyName.parse name = .ok n) (s : Store) :
    (keyPlace name).read s =
      (s.rings.find? n.parent.resourceName).map fun ring => ring.keys.find? name := by
  simp [keyPlace, h, Except.toOption]

theorem write_keyPlace {n : CryptoKeyName} (h : CryptoKeyName.parse name = .ok n) (s : Store)
    (record : KeyRecord) :
    (keyPlace name).write s record = ⟨s.rings.modify n.parent.resourceName fun ring =>
      { ring with keys := ring.keys.insert name record }⟩ := by
  simp only [keyPlace, replaceKey, h]

theorem keyPlace_of_malformed {e : NameError} (h : CryptoKeyName.parse name = .error e)
    (s : Store) :
    (keyPlace name).read s = none ∧ ∀ record, (keyPlace name).write s record = s := by
  simp [keyPlace, replaceKey, h, Except.toOption]

theorem findKey?_eq_join (s : Store) (name : String) :
    s.findKey? name = ((keyPlace name).read s).join := by
  cases h : CryptoKeyName.parse name with
  | error e => rw [findKey?_eq_none h, (keyPlace_of_malformed h s).1]; rfl
  | ok n =>
    rw [findKey?_eq h, read_keyPlace h]
    cases s.rings.find? n.parent.resourceName <;> rfl

theorem ringPlace_apart (h : name ≠ name') : (ringPlace name).Apart (ringPlace name') where
  read_left s ring := by simp [ringPlace, Keyed.contains, h]
  read_right s ring := by simp [ringPlace, Keyed.contains, h.symm]
  write_comm s ring ring' := congrArg Store.mk (Keyed.insert_comm h)

theorem ringPlace_apart_keyPlace (h : ¬ Contains name name') :
    (ringPlace name).Apart (keyPlace name') := by
  cases hp : CryptoKeyName.parse name' with
  | error e => exact Place.apart_of_inert (keyPlace_of_malformed hp)
  | ok n =>
    have hn : name ≠ n.parent.resourceName := fun he => h ⟨n, hp, he.symm⟩
    constructor
    · intro s record
      simp [write_keyPlace hp, ringPlace, Keyed.contains, Keyed.find?_modify, hn]
    · intro s ring
      simp [read_keyPlace hp, ringPlace, hn.symm]
    · intro s ring record
      simp only [write_keyPlace hp]
      exact congrArg Store.mk (Keyed.insert_modify_comm hn)

/-- What is written to one crypto key is not seen at another. -/
theorem read_keyPlace_write {n n' : CryptoKeyName} (hp : CryptoKeyName.parse name = .ok n)
    (hp' : CryptoKeyName.parse name' = .ok n') (h : name ≠ name') (s : Store)
    (record : KeyRecord) :
    (keyPlace name).read ((keyPlace name').write s record) = (keyPlace name).read s := by
  rw [read_keyPlace hp, read_keyPlace hp, write_keyPlace hp', Keyed.find?_modify]
  split
  · next hr =>
    rw [hr, Option.map_map]
    refine congrArg (Option.map · _) (funext fun ring => ?_)
    rw [Function.comp_apply, Keyed.find?_insert, if_neg h]
  · rfl

theorem keyPlace_apart (h : name ≠ name') : (keyPlace name).Apart (keyPlace name') := by
  cases hp : CryptoKeyName.parse name with
  | error e => exact (Place.apart_of_inert (keyPlace_of_malformed hp)).symm
  | ok n =>
    cases hp' : CryptoKeyName.parse name' with
    | error e => exact Place.apart_of_inert (keyPlace_of_malformed hp')
    | ok n' =>
      refine ⟨read_keyPlace_write hp hp' h, read_keyPlace_write hp' hp h.symm, ?_⟩
      intro s record record'
      simp only [write_keyPlace hp, write_keyPlace hp']
      refine congrArg Store.mk ?_
      by_cases hr : n.parent.resourceName = n'.parent.resourceName
      · rw [hr]
        refine Keyed.modify_comm_of_commute fun ring => ?_
        rw [Keyed.insert_comm h]
      · exact Keyed.modify_comm hr

section Writes

theorem findKey?_congr {s s' : Store} (h : (keyPlace name).read s' = (keyPlace name).read s) :
    s'.findKey? name = s.findKey? name := by
  rw [findKey?_eq_join, findKey?_eq_join, h]

theorem findKey_congr {s s' : Store} (h : (keyPlace name).read s' = (keyPlace name).read s) :
    s'.findKey name = s.findKey name := by
  rw [findKey, findKey, findKey?_congr h]

theorem updatedBy_createKeyRing (ring : KeyRing) :
    (ringPlace ring.name).UpdatedBy (createKeyRing ring) := by
  intro s
  cases h : s.rings.contains ring.name with
  | true =>
    refine .inl ⟨.failed (.alreadyExists .keyRing ring.name), fun s' hs' => ?_⟩
    refine bind_eq_error_of_ok (get_eq_ok_iff.mpr ⟨rfl, rfl⟩) (bind_eq_of_error ?_)
    exact vacant_eq_error_iff.mpr ⟨Option.isSome_iff_exists.mp (hs'.trans h), rfl, rfl⟩
  | false =>
    refine .inr ⟨(), ring, fun s' hs' => createKeyRing_eq_ok_iff.mpr ⟨?_, rfl⟩⟩
    exact Keyed.contains_eq_false_iff.mp (hs'.trans h)

theorem updatedBy_createCryptoKey (key : CryptoKey) {n : CryptoKeyName}
    (hn : CryptoKeyName.parse key.name = .ok n) (primary : CryptoKeyVersion)
    (material : KeyMaterial) :
    (keyPlace key.name).UpdatedBy
      (createCryptoKey n.parent.resourceName key primary material) := by
  intro s
  rcases (keyPlace key.name).read s with _ | _ | record
  case none =>
    refine .inl ⟨.failed (.notFound .keyRing n.parent.resourceName), fun s' hs' => ?_⟩
    rw [read_keyPlace hn, Option.map_eq_none_iff] at hs'
    refine bind_eq_of_error (look_eq_error_iff.mpr ⟨⟨_, ?_, rfl⟩, rfl⟩)
    rw [findRing, hs']
  case some.none =>
    refine .inr ⟨(), newKeyRecord key primary material, fun s' hs' => ?_⟩
    rw [read_keyPlace hn, Option.map_eq_some_iff] at hs'
    obtain ⟨ring, hr, hk⟩ := hs'
    refine createCryptoKey_eq_ok_iff.mpr ⟨ring, hr, hk, ?_⟩
    rw [write_keyPlace hn, Keyed.modify, hr]
  case some.some =>
    refine .inl ⟨.failed (.alreadyExists .cryptoKey key.name), fun s' hs' => ?_⟩
    rw [read_keyPlace hn, Option.map_eq_some_iff] at hs'
    obtain ⟨ring, hr, hk⟩ := hs'
    refine bind_eq_error_of_ok (look_eq_ok_iff.mpr ⟨findRing_eq_ok_iff.mpr hr, rfl⟩)
      (bind_eq_of_error ?_)
    exact vacant_eq_error_iff.mpr ⟨⟨record, hk⟩, rfl, rfl⟩

theorem updatedBy_of_record {α : Type} {f : KeyRecord → Access Store α}
    (h : ∀ record, (∃ e, ∀ s, f record s = .error e s) ∨
      ∃ a u, ∀ s, f record s = .ok a (s.replaceKey name u)) :
    (keyPlace name).UpdatedBy (look (·.findKey name) >>= f) := by
  intro s
  cases hf : s.findKey name with
  | error e =>
    refine .inl ⟨.failed e, fun s' hs' => bind_eq_of_error ?_⟩
    exact look_eq_error_iff.mpr ⟨⟨e, (findKey_congr hs').trans hf, rfl⟩, rfl⟩
  | ok record =>
    have hl : ∀ s', (keyPlace name).read s' = (keyPlace name).read s →
        look (·.findKey name) s' = .ok record s' := fun s' hs' =>
      look_eq_ok_iff.mpr ⟨(findKey_congr hs').trans hf, rfl⟩
    rcases h record with ⟨e, he⟩ | ⟨a, u, hu⟩
    · exact .inl ⟨e, fun s' hs' => bind_eq_error_of_ok (hl s' hs') (he s')⟩
    · exact .inr ⟨a, u, fun s' hs' => (bind_eq_of_ok (hl s' hs')).trans (hu s')⟩

theorem updatedBy_createNextVersion (build : Build) (name : String) (template : VersionTemplate)
    (material : KeyMaterial) (now : Timestamp) :
    (keyPlace name).UpdatedBy (createNextVersion build name template material now) := by
  refine updatedBy_of_record fun record => ?_
  cases hn : nextVersionNumber? build (record.versions.values.map (·.version.name)) with
  | none =>
    exact .inl ⟨.overflow, fun s =>
      bind_eq_of_error (nextNumber_eq_error_iff.mpr ⟨hn, rfl, rfl⟩)⟩
  | some number =>
    have hnext : ∀ s, nextNumber build record s = .ok number s := fun s =>
      nextNumber_eq_ok_iff.mpr ⟨hn, rfl⟩
    cases hv : record.versions.find? (versionNameOf name (Decimal.render number)) with
    | some present =>
      exact .inl ⟨_, fun s => bind_eq_error_of_ok (hnext s)
        (bind_eq_of_error (vacant_eq_error_iff.mpr ⟨⟨present, hv⟩, rfl, rfl⟩))⟩
    | none =>
      exact .inr ⟨_, _, fun s => (bind_eq_of_ok (hnext s)).trans
        (bind_eq_of_ok (vacant_eq_ok_iff (u := ()) |>.mpr ⟨hv, rfl⟩))⟩

theorem updatedBy_setPrimary (name version : String) :
    (keyPlace name).UpdatedBy (setPrimary name version) := by
  refine updatedBy_of_record fun record => ?_
  cases record.versions.find? version with
  | none => exact .inl ⟨_, fun s => rfl⟩
  | some found => exact .inr ⟨_, _, fun s => rfl⟩

end Writes

end Store

end KeyManagement
