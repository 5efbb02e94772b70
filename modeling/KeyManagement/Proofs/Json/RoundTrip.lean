import KeyManagement.Proofs.Json.Lexer

/-! # Values that are read back

A value is written as tokens that build it again, on whatever stack of open arrays and objects
they are met. So reading is a left inverse of writing.
-/

namespace KeyManagement.Json

/-- A value that has a spelling: its strings are texts, and its numbers are integers. -/
inductive Written : Json → Prop
  | null : Written .null
  | bool (b : Bool) : Written (.bool b)
  | integer (n : Int) : Written (.integer n)
  | text (s : String) : Written (.text s)
  | array {items : List Json} (h : ∀ v ∈ items, Written v) : Written (.array items)
  | record {members : List (String × Json)} (h : ∀ m ∈ members, Written m.2) :
      Written (.record members)

/-- Where a value is expected. -/
def ExpectsValue (expected : Expected) : Prop := expected = .value ∨ expected = .valueOrEnd

/-- Where a member is expected, after the given ones. -/
def ExpectsMember (before : List (Option String × Json)) (expected : Expected) : Prop :=
  expected = .nameOrEnd ∧ before = [] ∨ expected = .name before

/-- The text is read as the value, wherever one is expected. -/
def Reads (text : Bytes) (v : Json) : Prop :=
  ∃ tokens, Spells text tokens ∧ ∀ expected, ExpectsValue expected → ∀ stack,
    tokens.foldlM Builder.step ⟨expected, stack⟩ = some ⟨.separator v, stack⟩

section Reads

variable {text : Bytes} {v : Json}

theorem reads_scalar (h : Spells text [.scalar v]) : Reads text v := by
  refine ⟨_, h, ?_⟩
  rintro _ (rfl | rfl) stack
  · rfl
  · rfl

theorem parse?_of_reads (h : Reads text v) : parse? text = some v := by
  obtain ⟨tokens, hs, hb⟩ := h
  obtain ⟨l, hl, hsettle⟩ := hs []
  have ht : tokens? text = some tokens := by
    change (text.foldlM Lexer.step ⟨.between, []⟩).bind _ = _
    rw [hl, Option.bind_some]
    change l.settle.bind _ = _
    rw [hsettle]
    simp
  rw [parse?, ht, Option.bind_some]
  change (tokens.foldlM Builder.step ⟨.value, []⟩).bind _ = _
  rw [hb _ (.inl rfl)]
  rfl

end Reads

section Arrays

variable {v : Json} {items : List Json}

theorem ofText_intercalate (s t : String) (texts : List String) :
    Bytes.ofText (",".intercalate (s :: t :: texts)) =
      Bytes.ofText s ++ 0x2c :: Bytes.ofText (",".intercalate (t :: texts)) := by
  rw [String.intercalate_cons_cons, Bytes.ofText_append, Bytes.ofText_append, List.append_assoc]
  rfl

theorem exists_items (h : ∀ u ∈ v :: items, Reads (Bytes.ofText u.render) u) : ∃ tokens,
    Spells (Bytes.ofText (",".intercalate (renderItems (v :: items)))) tokens ∧
    ∀ expected, ExpectsValue expected → ∀ before stack,
      (tokens ++ [Token.endArray]).foldlM Builder.step ⟨expected, .items before :: stack⟩ =
        some ⟨.separator (.array (before.reverse ++ v :: items)), stack⟩ := by
  induction items generalizing v with
  | nil =>
    obtain ⟨tokens, hs, hb⟩ := h v List.mem_cons_self
    refine ⟨tokens, ?_, fun expected he before stack => ?_⟩
    · simpa [renderItems] using hs
    · rw [List.foldlM_append, hb expected he, Option.bind_eq_bind, Option.bind_some]
      simp [Builder.step, Builder.close]
  | cons u items ih =>
    obtain ⟨tokens, hs, hb⟩ := h v List.mem_cons_self
    obtain ⟨rest, hs', hb'⟩ := ih fun u hu => h u (List.mem_cons_of_mem _ hu)
    refine ⟨tokens ++ .comma :: rest, ?_, fun expected he before stack => ?_⟩
    · have hmark := hs.mark marks_comma hs'
      rwa [renderItems, ← ofText_intercalate] at hmark
    · rw [List.append_assoc, List.foldlM_append, hb expected he, Option.bind_eq_bind,
        Option.bind_some]
      change (rest ++ [Token.endArray]).foldlM Builder.step
        ⟨.value, .items (v :: before) :: stack⟩ = _
      rw [hb' _ (.inl rfl)]
      simp

theorem reads_array (h : ∀ u ∈ items, Reads (Bytes.ofText u.render) u) :
    Reads (Bytes.ofText (Json.array items).render) (.array items) := by
  have hbytes : Bytes.ofText (Json.array items).render = [] ++ 0x5b ::
      (Bytes.ofText (",".intercalate (renderItems items)) ++ 0x5d :: []) := by
    rw [render, Bytes.ofText_append, Bytes.ofText_append]
    rfl
  rw [hbytes]
  cases items with
  | nil =>
    refine ⟨_, spells_nil.mark marks_beginArray (spells_nil.mark marks_endArray spells_nil), ?_⟩
    rintro _ (rfl | rfl) stack
    · rfl
    · rfl
  | cons v items =>
    obtain ⟨tokens, hs, hb⟩ := exists_items h
    refine ⟨_, spells_nil.mark marks_beginArray (hs.mark marks_endArray spells_nil), ?_⟩
    rintro _ (rfl | rfl) stack
    · exact hb .valueOrEnd (.inr rfl) [] stack
    · exact hb .valueOrEnd (.inr rfl) [] stack

end Arrays

section Objects

variable {m : String × Json} {members : List (String × Json)}

theorem exists_member (h : Reads (Bytes.ofText m.2.render) m.2) : ∃ tokens,
    Spells (Bytes.ofText (renderText m.1 ++ ":" ++ m.2.render)) tokens ∧
    ∀ before expected, ExpectsMember before expected → ∀ stack,
      tokens.foldlM Builder.step ⟨expected, stack⟩ =
        some ⟨.separator m.2, .member before (some m.1) :: stack⟩ := by
  obtain ⟨tokens, hs, hb⟩ := h
  refine ⟨[.scalar (.text m.1)] ++ .colon :: tokens, ?_, ?_⟩
  · rw [Bytes.ofText_append, Bytes.ofText_append, List.append_assoc]
    exact (spells_renderText m.1).mark marks_colon hs
  · rintro before _ (⟨rfl, rfl⟩ | rfl) stack
    · exact hb .value (.inl rfl) (.member [] (some m.1) :: stack)
    · exact hb .value (.inl rfl) (.member before (some m.1) :: stack)

def filed (m : String × Json) : Option String × Json := (some m.1, m.2)

theorem exists_members (h : ∀ u ∈ m :: members, Reads (Bytes.ofText u.2.render) u.2) :
    ∃ tokens,
      Spells (Bytes.ofText (",".intercalate (renderMembers ((m :: members).map filed)))) tokens ∧
      ∀ before expected, ExpectsMember before expected → ∀ stack,
        (tokens ++ [Token.endObject]).foldlM Builder.step ⟨expected, stack⟩ =
          some ⟨.separator (.object (before.reverse ++ (m :: members).map filed)), stack⟩ := by
  induction members generalizing m with
  | nil =>
    obtain ⟨tokens, hs, hb⟩ := exists_member (h m List.mem_cons_self)
    refine ⟨tokens, ?_, fun before expected he stack => ?_⟩
    · simpa [renderMembers, filed] using hs
    · rw [List.foldlM_append, hb before expected he, Option.bind_eq_bind, Option.bind_some]
      simp [Builder.step, Builder.close, filed]
  | cons u members ih =>
    obtain ⟨tokens, hs, hb⟩ := exists_member (h m List.mem_cons_self)
    obtain ⟨rest, hs', hb'⟩ := ih fun u hu => h u (List.mem_cons_of_mem _ hu)
    refine ⟨tokens ++ .comma :: rest, ?_, fun before expected he stack => ?_⟩
    · have hmark := hs.mark marks_comma hs'
      rwa [List.map_cons, filed, renderMembers, ← ofText_intercalate] at hmark
    · rw [List.append_assoc, List.foldlM_append, hb before expected he, Option.bind_eq_bind,
        Option.bind_some]
      change (rest ++ [Token.endObject]).foldlM Builder.step
        ⟨.name (filed m :: before), stack⟩ = _
      rw [hb' _ _ (.inr rfl)]
      simp

theorem reads_record (h : ∀ m ∈ members, Reads (Bytes.ofText m.2.render) m.2) :
    Reads (Bytes.ofText (record members).render) (record members) := by
  have hbytes : Bytes.ofText (record members).render = [] ++ 0x7b ::
      (Bytes.ofText (",".intercalate (renderMembers (members.map filed))) ++ 0x7d :: []) := by
    rw [record, render, Bytes.ofText_append, Bytes.ofText_append]
    rfl
  rw [hbytes]
  cases members with
  | nil =>
    refine ⟨_, spells_nil.mark marks_beginObject (spells_nil.mark marks_endObject spells_nil), ?_⟩
    rintro _ (rfl | rfl) stack
    · rfl
    · rfl
  | cons m members =>
    obtain ⟨tokens, hs, hb⟩ := exists_members h
    refine ⟨_, spells_nil.mark marks_beginObject (hs.mark marks_endObject spells_nil), ?_⟩
    rintro _ (rfl | rfl) stack
    · exact hb [] .nameOrEnd (.inl ⟨rfl, rfl⟩) stack
    · exact hb [] .nameOrEnd (.inl ⟨rfl, rfl⟩) stack

end Objects

theorem reads_render {v : Json} (h : Written v) : Reads (Bytes.ofText v.render) v := by
  induction h with
  | null => exact reads_scalar spells_null
  | bool b => exact reads_scalar (spells_bool b)
  | integer n => exact reads_scalar (spells_renderInteger n)
  | text s => exact reads_scalar (spells_renderText s)
  | array _ ih => exact reads_array ih
  | record _ ih => exact reads_record ih

/-- What is written is read back. -/
theorem parse?_render {v : Json} (h : Written v) : parse? (Bytes.ofText v.render) = some v :=
  parse?_of_reads (reads_render h)

end KeyManagement.Json
