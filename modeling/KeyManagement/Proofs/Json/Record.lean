import KeyManagement.Json.Record
import KeyManagement.Proofs.Json.RoundTrip
import Mathlib.Data.List.Forall2

/-! # Records that are read back

The members of an object have no order. A record is read by the names of its fields, and so
whatever order its members were written in.
-/

namespace KeyManagement.Json

theorem fields?_record (names : List String) (members : List (String × Json)) :
    (record members).fields? names = names.mapM (member? members) := by
  have hm : (members.map fun m => (some m.1, m.2)).mapM
      (fun m : Option String × Json => do return (← m.1, m.2)) = some members := by
    induction members with
    | nil => rfl
    | cons m members ih => simp_all
  exact congrArg (Option.bind · fun members => names.mapM (member? members)) hm

@[simp] theorem optional_some {α : Type} (default : α) (read : Json → Option α) (v : Json) :
    optional default read (some v) = read v := rfl

section Present

variable {fields : List (String × Option Json)} {name : String} {field : Option Json}

/-- The members of those fields that are present. -/
def present (fields : List (String × Option Json)) : List (String × Json) :=
  fields.filterMap fun f => f.2.map (f.1, ·)

theorem filter_present_of_not_mem (h : name ∉ fields.map (·.1)) :
    (present fields).filter (fun m => m.1 == name) = [] := by
  refine List.filter_eq_nil_iff.mpr fun m hm => ?_
  obtain ⟨f, hf, he⟩ := List.mem_filterMap.mp hm
  obtain ⟨v, -, rfl⟩ := Option.map_eq_some_iff.mp he
  simp only [beq_iff_eq]
  rintro rfl
  exact h (List.mem_map_of_mem hf)

theorem member?_present (hd : (fields.map (·.1)).Nodup) (h : (name, field) ∈ fields) :
    member? (present fields) name = some field := by
  induction fields with
  | nil => nomatch h
  | cons f fields ih =>
    obtain ⟨hne, hd⟩ := List.nodup_cons.mp hd
    rcases List.mem_cons.mp h with rfl | h
    · have hrest := filter_present_of_not_mem hne
      cases field with
      | none =>
        change member? (present fields) name = _
        simp [member?, hrest]
      | some v =>
        change member? ((name, v) :: present fields) name = _
        simp [member?, hrest]
    · have hf : f.1 ≠ name := by
        rintro rfl
        exact hne (List.mem_map.mpr ⟨_, h, rfl⟩)
      rw [← ih hd h]
      obtain ⟨other, value⟩ := f
      cases value with
      | none => rfl
      | some v =>
        change member? ((other, v) :: present fields) name = _
        simp [member?, hf]

theorem written_present (h : ∀ f ∈ fields, ∀ v ∈ f.2, Written v) :
    Written (.record (present fields)) := by
  refine .record fun m hm => ?_
  obtain ⟨f, hf, he⟩ := List.mem_filterMap.mp hm
  obtain ⟨v, hv, rfl⟩ := Option.map_eq_some_iff.mp he
  exact h f hf v hv

end Present

theorem record_injective : Function.Injective record := by
  intro members members' h
  refine List.map_injective_iff.mpr (fun m m' hm => ?_) (Json.object.inj h)
  obtain ⟨hname, hvalue⟩ := Prod.mk.inj hm
  exact Prod.ext (Option.some.inj hname) hvalue

mutual

/-- The same value, but that the members of its objects may stand in another order. -/
inductive Reordered : Json → Json → Prop
  | refl (v : Json) : Reordered v v
  | array {items items' : List Json} (h : List.Forall₂ Reordered items items') :
      Reordered (.array items) (.array items')
  | record {members middle members' : List (String × Json)} (h : SameNames members middle)
      (hp : middle.Perm members') : Reordered (.record members) (.record members')

/-- Members with the same names one by one, whose values are reordered. -/
inductive SameNames : List (String × Json) → List (String × Json) → Prop
  | nil : SameNames [] []
  | cons {name : String} {v v' : Json} {members members' : List (String × Json)}
      (hv : Reordered v v') (h : SameNames members members') :
      SameNames ((name, v) :: members) ((name, v') :: members')

end

/-- The members of one object are those of the other in some order, with reordered values. -/
def Shuffled (members members' : List (String × Json)) : Prop :=
  ∃ middle, SameNames members middle ∧ middle.Perm members'

section Inversion

variable {v v' : Json} {members middle members' : List (String × Json)} {items : List Json}
  {name s : String}

theorem sameNames_refl (members : List (String × Json)) : SameNames members members := by
  induction members with
  | nil => exact .nil
  | cons m members ih => exact .cons (.refl m.2) ih

theorem SameNames.filter (h : SameNames members middle) (p : String → Bool) :
    SameNames (members.filter (p ·.1)) (middle.filter (p ·.1)) := by
  induction members generalizing middle with
  | nil =>
    cases h
    exact .nil
  | cons m members ih =>
    cases h with
    | cons hv h =>
      rename_i name v v' rest
      by_cases hp : p name = true
      · simpa [hp] using SameNames.cons hv (ih h)
      · simpa [hp] using ih h

theorem Reordered.eq_text (h : Reordered (.text s) v) : v = .text s := by
  generalize hu : Json.text s = u at h
  cases h with
  | refl => rfl
  | array h => nomatch hu
  | record h hp => nomatch hu

theorem Reordered.exists_items (h : Reordered (.array items) v) :
    ∃ items', v = .array items' ∧ List.Forall₂ Reordered items items' := by
  generalize hu : Json.array items = u at h
  cases h with
  | refl => exact ⟨items, hu.symm, List.forall₂_same.mpr fun v _ => .refl v⟩
  | array h =>
    cases hu
    exact ⟨_, rfl, h⟩
  | record h hp => nomatch hu

theorem Reordered.exists_members (h : Reordered (.record members) v) :
    ∃ members', v = .record members' ∧ Shuffled members members' := by
  generalize hu : Json.record members = u at h
  cases h with
  | refl => exact ⟨members, hu.symm, members, sameNames_refl members, .refl members⟩
  | array h => nomatch hu
  | record h hp =>
    obtain rfl := record_injective hu
    exact ⟨_, rfl, _, h, hp⟩

theorem Shuffled.member? {field : Option Json} (h : Shuffled members members')
    (hm : member? members name = some field) :
    ∃ field', Json.member? members' name = some field' ∧ Option.Rel Reordered field field' := by
  obtain ⟨middle, h, hp⟩ := h
  have hs := h.filter (· == name)
  have hperm := hp.filter fun m => m.1 == name
  unfold Json.member? at hm ⊢
  generalize members.filter (fun m => m.1 == name) = found at hs hm
  generalize middle.filter (fun m => m.1 == name) = found' at hs hperm
  cases hs with
  | nil =>
    cases hm
    rw [List.nil_perm.mp hperm]
    exact ⟨none, rfl, .none⟩
  | cons hv hs =>
    cases hs with
    | nil =>
      cases hm
      rw [← List.singleton_perm.mp hperm]
      exact ⟨_, rfl, .some hv⟩
    | cons hv' hs => nomatch hm

theorem written_of_sameNames (h : ∀ m ∈ members, ∀ v, Reordered m.2 v → Written v)
    (hs : SameNames members middle) : ∀ m ∈ middle, Written m.2 := by
  induction members generalizing middle with
  | nil =>
    cases hs
    nofun
  | cons m members ih =>
    cases hs with
    | cons hv hs =>
      rw [List.forall_mem_cons] at h ⊢
      exact ⟨h.1 _ hv, ih h.2 hs⟩

theorem written_of_forall₂ {items' : List Json}
    (h : ∀ u ∈ items, ∀ v, Reordered u v → Written v)
    (hs : List.Forall₂ Reordered items items') : ∀ v ∈ items', Written v := by
  induction hs with
  | nil => nofun
  | cons hv hs ih =>
    rw [List.forall_mem_cons] at h ⊢
    exact ⟨h.1 _ hv, ih h.2⟩

theorem Written.reordered (h : Written v) (hr : Reordered v v') : Written v' := by
  induction h generalizing v' with
  | null =>
    cases hr
    exact .null
  | bool b =>
    cases hr
    exact .bool b
  | integer n =>
    cases hr
    exact .integer n
  | text s =>
    rw [hr.eq_text]
    exact .text s
  | array h ih =>
    obtain ⟨items', rfl, hs⟩ := hr.exists_items
    exact .array (written_of_forall₂ (fun u hu v hv => ih u hu hv) hs)
  | record h ih =>
    obtain ⟨members', rfl, middle, hs, hp⟩ := hr.exists_members
    refine .record fun m hm => ?_
    exact written_of_sameNames (fun m hm v hv => ih m hm hv) hs m (hp.mem_iff.mpr hm)

end Inversion

section Reading

variable {α β : Type} {read : Json → Option α} {a : α} {v : Json} {name : String}
  {members : List (String × Json)}

/-- A value is read as the result, in whatever order its members stand. -/
def Yields (read : Json → Option α) (v : Json) (a : α) : Prop :=
  ∀ v', Reordered v v' → read v' = some a

/-- The field of an object is taken as the result, in whatever order its members stand. -/
def Holds (members : List (String × Json)) (name : String) (take : Option Json → Option α)
    (a : α) : Prop :=
  ∀ members', Shuffled members members' →
    ∃ field, member? members' name = some field ∧ take field = some a

theorem yields_text (s : String) : Yields text? (.text s) s := by
  intro v h
  rw [h.eq_text]
  rfl

theorem yields_enum {values : List α} {spelling : α → String}
    (h : (values.find? fun v => spelling v == spelling a) = some a) :
    Yields (enum? values spelling) (.text (spelling a)) a := by
  intro v hr
  rw [hr.eq_text]
  exact h

theorem yields_list {write : α → Json} (h : ∀ a, Yields read (write a) a) (items : List α) :
    Yields (list? read) (.array (items.map write)) items := by
  intro v hr
  obtain ⟨items', rfl, hs⟩ := hr.exists_items
  change items'.mapM read = some items
  clear hr
  induction items generalizing items' with
  | nil =>
    cases hs
    rfl
  | cons a items ih =>
    rw [List.map_cons] at hs
    cases hs with
    | cons hv hs =>
      rw [List.mapM_cons, h a _ hv, ih _ hs]
      rfl

theorem Yields.option (h : Yields read v a) (hv : ¬ Reordered v .null) :
    Yields (option? read) v (some a) := by
  intro v' hr
  have hread := h v' hr
  unfold option?
  split
  · contradiction
  · rw [hread]
    rfl

theorem Yields.required (h : Yields read v a) (name : String)
    (hm : member? members name = some (some v)) : Holds members name (required read) a := by
  intro members' hs
  obtain ⟨field, hf, hr⟩ := hs.member? hm
  cases hr with
  | some hv => exact ⟨_, hf, h _ hv⟩

theorem Yields.optional (h : Yields read v a) (name : String) (default : α)
    (hm : member? members name = some (some v)) : Holds members name (optional default read) a := by
  intro members' hs
  obtain ⟨field, hf, hr⟩ := hs.member? hm
  cases hr with
  | some hv => exact ⟨_, hf, h _ hv⟩

theorem holds_default (hm : member? members name = some none) (default : α)
    (read : Json → Option α) : Holds members name (optional default read) default := by
  intro members' hs
  obtain ⟨field, hf, hr⟩ := hs.member? hm
  cases hr with
  | none => exact ⟨none, hf, rfl⟩

end Reading

end KeyManagement.Json
