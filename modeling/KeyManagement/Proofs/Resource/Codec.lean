import KeyManagement.Proofs.Json.Record
import KeyManagement.Proofs.Store.Keyed
import KeyManagement.Proofs.Time.Timestamp
import KeyManagement.Resource.Codec

/-! # Resources that are read back

Reading a resource inverts writing it: renamed fields, enumerated values, times and lists come
back as they were, and what is left out comes back as the default for which it was left out.
-/

namespace KeyManagement

open Json

section Scalars

theorem Timestamp.yields (t : Timestamp) : Yields Timestamp.ofJson? t.toJson t := by
  intro v h
  rw [h.eq_text, Timestamp.ofJson?, Json.text, Json.text?, Option.bind_some,
    Timestamp.parse?_render]

theorem Purpose.yields (p : Purpose) : Yields Purpose.ofJson? p.toJson p :=
  yields_enum (by cases p <;> decide)

theorem VersionState.yields (s : VersionState) : Yields VersionState.ofJson? s.toJson s :=
  yields_enum (by cases s <;> decide)

theorem Algorithm.yields (a : Algorithm) : Yields Algorithm.ofJson? a.toJson a :=
  yields_enum (by cases a <;> decide)

theorem ProtectionLevel.yields (l : ProtectionLevel) :
    Yields ProtectionLevel.ofJson? l.toJson l :=
  yields_enum (by cases l <;> decide)

end Scalars

namespace Labels

variable {entries : List (String × String)} {middle members : List (String × Json)}

/-- A label as it stands in an object. -/
def member (label : String × String) : String × Json := (label.1, .text label.2)

theorem eq_of_sameNames (h : SameNames (entries.map member) middle) :
    middle = entries.map member := by
  induction entries generalizing middle with
  | nil =>
    cases h
    rfl
  | cons e entries ih =>
    rw [List.map_cons] at h
    cases h with
    | cons hv h =>
      rw [hv.eq_text, ih h]
      rfl

theorem exists_perm_of_map (h : (entries.map member).Perm members) :
    ∃ entries', members = entries'.map member ∧ entries.Perm entries' := by
  let label : String × Json → String × String := fun m => (m.1, m.2.text?.getD "")
  have hlabel : label ∘ member = id := rfl
  refine ⟨members.map label, ?_, ?_⟩
  · rw [List.map_map]
    refine (List.map_id' members).symm.trans (List.map_congr_left fun m hm => ?_)
    obtain ⟨e, -, rfl⟩ := List.mem_map.mp (h.mem_iff.mpr hm)
    rfl
  · have hmap := h.map label
    rwa [List.map_map, hlabel, List.map_id] at hmap

theorem texts?_record (entries : List (String × String)) :
    texts? (.record (entries.map member)) = some (Keyed.ofList entries) := by
  have hm : ((entries.map member).map fun m => (some m.1, m.2)).mapM
      (fun m : Option String × Json => do return (← m.1, ← m.2.text?)) = some entries := by
    induction entries with
    | nil => rfl
    | cons e entries ih => simp_all [member, Json.text, Json.text?]
  exact congrArg (Keyed.ofList <$> ·) hm

/-- The order in which the labels are written does not matter. -/
theorem yields (labels : Labels) : Yields Labels.ofJson? labels.toJson labels := by
  intro v h
  obtain ⟨members, rfl, middle, hs, hp⟩ := h.exists_members
  rw [eq_of_sameNames hs] at hp
  obtain ⟨entries, rfl, hperm⟩ := exists_perm_of_map hp
  rw [Labels.ofJson?, texts?_record, Keyed.ofList_of_perm hperm]

end Labels

section Records

theorem KeyRing.yields (r : KeyRing) : Yields KeyRing.ofJson? r.toJson r := by
  intro v h
  obtain ⟨members, rfl, hs⟩ := h.exists_members
  obtain ⟨name, hn, hname⟩ := (yields_text r.name).required "name" rfl _ hs
  obtain ⟨createTime, hc, hcreateTime⟩ := r.createTime.yields.required "createTime" rfl _ hs
  simp [KeyRing.ofJson?, fields?_record, hn, hc, hname, hcreateTime]

theorem VersionTemplate.yields (t : VersionTemplate) :
    Yields VersionTemplate.ofJson? t.toJson t := by
  intro v h
  obtain ⟨members, rfl, hs⟩ := h.exists_members
  obtain ⟨level, hl, hlevel⟩ := t.protectionLevel.yields.required "protectionLevel" rfl _ hs
  obtain ⟨algorithm, ha, halgorithm⟩ := t.algorithm.yields.required "algorithm" rfl _ hs
  simp [VersionTemplate.ofJson?, fields?_record, hl, ha, hlevel, halgorithm]

theorem CryptoKeyVersion.yields (u : CryptoKeyVersion) :
    Yields CryptoKeyVersion.ofJson? u.toJson u := by
  intro v h
  obtain ⟨members, rfl, hs⟩ := h.exists_members
  obtain ⟨name, hn, hname⟩ := (yields_text u.name).required "name" rfl _ hs
  obtain ⟨state, ht, hstate⟩ := u.state.yields.required "state" rfl _ hs
  obtain ⟨algorithm, ha, halgorithm⟩ := u.algorithm.yields.required "algorithm" rfl _ hs
  obtain ⟨level, hl, hlevel⟩ := u.protectionLevel.yields.required "protectionLevel" rfl _ hs
  obtain ⟨createTime, hc, hcreateTime⟩ := u.createTime.yields.required "createTime" rfl _ hs
  simp [CryptoKeyVersion.ofJson?, fields?_record, hn, ht, ha, hl, hc, hname, hstate, halgorithm,
    hlevel, hcreateTime]

/-- The fields of a crypto key, of which labels and primary may be left out. -/
def CryptoKey.fields (k : CryptoKey) : List (String × Option Json) :=
  [("name", some (.text k.name)), ("createTime", some k.createTime.toJson),
    ("labels", if k.labels.isEmpty then none else some k.labels.toJson),
    ("purpose", some k.purpose.toJson), ("versionTemplate", some k.versionTemplate.toJson),
    ("primary", k.primary.map CryptoKeyVersion.toJson)]

theorem CryptoKey.toJson_eq (k : CryptoKey) : k.toJson = .record (present k.fields) := by
  unfold CryptoKey.toJson CryptoKey.fields
  cases k.primary with
  | none => split <;> rfl
  | some u => split <;> rfl

theorem CryptoKey.member?_fields (k : CryptoKey) (name : String) (field : Option Json)
    (h : (name, field) ∈ k.fields) : member? (present k.fields) name = some field :=
  member?_present (by simp [CryptoKey.fields]) h

theorem CryptoKey.holds_labels (k : CryptoKey) : Holds (present k.fields) "labels"
    (optional Keyed.empty Labels.ofJson?) k.labels := by
  have hm := k.member?_fields "labels"
    (if k.labels.isEmpty then none else some k.labels.toJson) (by simp [CryptoKey.fields])
  by_cases he : k.labels.isEmpty = true
  · rw [if_pos he] at hm
    have hnone : k.labels = Keyed.empty := Keyed.ext (List.isEmpty_iff.mp he)
    rw [hnone]
    exact holds_default hm _ _
  · rw [if_neg he] at hm
    exact (Labels.yields k.labels).optional _ _ hm

theorem CryptoKey.holds_primary (k : CryptoKey) : Holds (present k.fields) "primary"
    (optional none (option? CryptoKeyVersion.ofJson?)) k.primary := by
  have hm := k.member?_fields "primary" (k.primary.map CryptoKeyVersion.toJson)
    (by simp [CryptoKey.fields])
  cases hp : k.primary with
  | none =>
    rw [hp] at hm
    exact holds_default hm _ _
  | some u =>
    rw [hp] at hm
    refine (u.yields.option fun hnull => ?_).optional _ _ hm
    obtain ⟨_, he, -⟩ := hnull.exists_members
    contradiction

theorem CryptoKey.yields (k : CryptoKey) : Yields CryptoKey.ofJson? k.toJson k := by
  intro v h
  rw [k.toJson_eq] at h
  obtain ⟨members, rfl, hs⟩ := h.exists_members
  obtain ⟨name, hn, hname⟩ := (yields_text k.name).required "name"
    (k.member?_fields _ _ (by simp [CryptoKey.fields])) _ hs
  obtain ⟨createTime, hc, hcreateTime⟩ := k.createTime.yields.required "createTime"
    (k.member?_fields _ _ (by simp [CryptoKey.fields])) _ hs
  obtain ⟨labels, hl, hlabels⟩ := k.holds_labels _ hs
  obtain ⟨purpose, hu, hpurpose⟩ := k.purpose.yields.required "purpose"
    (k.member?_fields _ _ (by simp [CryptoKey.fields])) _ hs
  obtain ⟨template, ht, htemplate⟩ := k.versionTemplate.yields.required "versionTemplate"
    (k.member?_fields _ _ (by simp [CryptoKey.fields])) _ hs
  obtain ⟨primary, hy, hprimary⟩ := k.holds_primary _ hs
  simp [CryptoKey.ofJson?, fields?_record, hn, hc, hl, hu, ht, hy, hname, hcreateTime, hlabels,
    hpurpose, htemplate, hprimary]

theorem CryptoKeySpec.yields (s : CryptoKeySpec) : Yields CryptoKeySpec.ofJson? s.toJson s := by
  intro v h
  obtain ⟨members, rfl, hs⟩ := h.exists_members
  obtain ⟨purpose, hu, hpurpose⟩ := s.purpose.yields.optional "purpose" .unspecified rfl _ hs
  obtain ⟨labels, hl, hlabels⟩ := (Labels.yields s.labels).optional "labels" .empty rfl _ hs
  simp [CryptoKeySpec.ofJson?, fields?_record, hu, hl, hpurpose, hlabels]

theorem Listing.yields {α : Type} {item : α → Json} {read : Json → Option α}
    (hi : ∀ a, Yields read (item a) a) (field : String) (l : Listing α) :
    Yields (Listing.ofJson? field read) (l.toJson field item) l := by
  intro v h
  obtain ⟨members, rfl, hs⟩ := h.exists_members
  obtain ⟨items, hf, hitems⟩ := (yields_list hi l.items).required field (by simp [member?]) _ hs
  simp [Listing.ofJson?, fields?_record, hf, hitems]

end Records

section Texts

theorem Labels.written (labels : Labels) : Written labels.toJson := by
  refine .record fun m hm => ?_
  obtain ⟨e, -, rfl⟩ := List.mem_map.mp hm
  exact .text e.2

theorem KeyRing.written (r : KeyRing) : Written r.toJson := by
  refine .record ?_
  simp only [List.forall_mem_cons]
  exact ⟨.text _, .text _, nofun⟩

theorem VersionTemplate.written (t : VersionTemplate) : Written t.toJson := by
  refine .record ?_
  simp only [List.forall_mem_cons]
  exact ⟨.text _, .text _, nofun⟩

theorem CryptoKeyVersion.written (u : CryptoKeyVersion) : Written u.toJson := by
  refine .record ?_
  simp only [List.forall_mem_cons]
  exact ⟨.text _, .text _, .text _, .text _, .text _, nofun⟩

theorem CryptoKey.written (k : CryptoKey) : Written k.toJson := by
  rw [k.toJson_eq]
  refine written_present ?_
  simp only [CryptoKey.fields, List.forall_mem_cons, Option.mem_some_iff, forall_eq']
  refine ⟨.text _, .text _, fun v hv => ?_, .text _, k.versionTemplate.written, fun v hv => ?_,
    nofun⟩
  · split at hv
    · contradiction
    · obtain rfl := Option.mem_some_iff.mp hv
      exact Labels.written k.labels
  · obtain ⟨u, -, rfl⟩ := Option.map_eq_some_iff.mp hv
    exact u.written

theorem CryptoKeySpec.written (s : CryptoKeySpec) : Written s.toJson := by
  refine .record ?_
  simp only [List.forall_mem_cons]
  exact ⟨.text _, Labels.written s.labels, nofun⟩

theorem Listing.written {α : Type} {item : α → Json} (hi : ∀ a, Written (item a))
    (field : String) (l : Listing α) : Written (l.toJson field item) := by
  refine .record ?_
  rw [List.forall_mem_singleton]
  refine .array fun v hv => ?_
  obtain ⟨a, -, rfl⟩ := List.mem_map.mp hv
  exact hi a

end Texts

/-- The value that a text is read as. -/
def Json.decode? {α : Type} (ofJson? : Json → Option α) (text : Bytes) : Option α :=
  (parse? text).bind ofJson?

/-- The text that a value is written as. -/
def Json.encode {α : Type} (toJson : α → Json) (a : α) : Bytes := Bytes.ofText (toJson a).render

/-- What is written is read back, and so is what is written with the members of its objects in
another order. What was read from any text is the same when it is written and read again. -/
structure Lossless {α : Type} (toJson : α → Json) (ofJson? : Json → Option α) : Prop where
  inverse : ∀ a, decode? ofJson? (encode toJson a) = some a
  unordered : ∀ a v, Reordered (toJson a) v →
    decode? ofJson? (Bytes.ofText v.render) = some a
  stable : ∀ text a, decode? ofJson? text = some a →
    decode? ofJson? (encode toJson a) = decode? ofJson? text

theorem lossless_of_yields {α : Type} {toJson : α → Json} {ofJson? : Json → Option α}
    (hw : ∀ a, Written (toJson a)) (hy : ∀ a, Yields ofJson? (toJson a) a) :
    Lossless toJson ofJson? := by
  have hread : ∀ a v, Reordered (toJson a) v →
      decode? ofJson? (Bytes.ofText v.render) = some a := by
    intro a v h
    rw [decode?, parse?_render ((hw a).reordered h), Option.bind_some]
    exact hy a v h
  have hinverse : ∀ a, decode? ofJson? (encode toJson a) = some a :=
    fun a => hread a _ (.refl _)
  exact ⟨hinverse, hread, fun text a h => (hinverse a).trans h.symm⟩

/-- The JSON of the resources, of what is asked of a new crypto key and of the listings loses
nothing. -/
theorem resources_lossless :
    Lossless KeyRing.toJson KeyRing.ofJson? ∧
    Lossless VersionTemplate.toJson VersionTemplate.ofJson? ∧
    Lossless CryptoKeyVersion.toJson CryptoKeyVersion.ofJson? ∧
    Lossless CryptoKey.toJson CryptoKey.ofJson? ∧
    Lossless CryptoKeySpec.toJson CryptoKeySpec.ofJson? ∧
    Lossless KeyRingListing.toJson KeyRingListing.ofJson? ∧
    Lossless CryptoKeyListing.toJson CryptoKeyListing.ofJson? ∧
    Lossless VersionListing.toJson VersionListing.ofJson? :=
  ⟨lossless_of_yields KeyRing.written KeyRing.yields,
    lossless_of_yields VersionTemplate.written VersionTemplate.yields,
    lossless_of_yields CryptoKeyVersion.written CryptoKeyVersion.yields,
    lossless_of_yields CryptoKey.written CryptoKey.yields,
    lossless_of_yields CryptoKeySpec.written CryptoKeySpec.yields,
    lossless_of_yields (Listing.written KeyRing.written _) (Listing.yields KeyRing.yields _),
    lossless_of_yields (Listing.written CryptoKey.written _) (Listing.yields CryptoKey.yields _),
    lossless_of_yields (Listing.written CryptoKeyVersion.written _)
      (Listing.yields CryptoKeyVersion.yields _)⟩

end KeyManagement
