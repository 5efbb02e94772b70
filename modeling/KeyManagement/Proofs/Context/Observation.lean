import KeyManagement.Proofs.Context.Lineage

/-! # What contexts observe

A context holds its own signal and those of its ancestors. Whether it holds the signal of another
context is a matter of their lineage alone: it does exactly if it observes the other one.
-/

namespace KeyManagement.Context

/-- The signals that cancel a context. -/
def observed (c : Context) : List Nat := c.signal :: c.ancestors

/-- A context that is made from those that are there, of which `n` signals are taken. -/
inductive Stems (cs : List Context) (n : Nat) : Origin → Context → Nat → Prop
  | background : Stems cs n .background ⟨n, [], none⟩ (n + 1)
  | clone {i : Nat} {c : Context} (h : cs[i]? = some c) : Stems cs n (.clone i) c n
  | deadline {i : Nat} {c : Context} {t : Instant} (h : cs[i]? = some c) :
    Stems cs n (.deadline i t) (c.withDeadline t) n
  | child {i : Nat} {p : Context} (h : cs[i]? = some p) :
    Stems cs n (.child i) ⟨n, p.observed, p.deadline⟩ (n + 1)

/-- The contexts of a lineage, and the number of their signals. -/
inductive Makes : Lineage → List Context → Nat → Prop
  | none : Makes [] [] 0
  | next {l : Lineage} {cs : List Context} {n n' : Nat} {o : Origin} {c : Context}
    (h : Makes l cs n) (hc : Stems cs n o c n') : Makes (l ++ [o]) (cs ++ [c]) n'

variable {l : Lineage} {cs : List Context} {n n' x y s : Nat} {o : Origin} {c d : Context}

theorem getElem?_concat_eq_some_iff {α : Type} {as : List α} {a b : α} {i : Nat} :
    (as ++ [a])[i]? = some b ↔ as[i]? = some b ∨ i = as.length ∧ a = b := by
  rw [List.getElem?_append]
  split
  · next h => simp [Nat.ne_of_lt h]
  · next h =>
    rw [List.getElem?_eq_none (Nat.le_of_not_lt h), List.getElem?_singleton]
    simp only [reduceCtorEq, false_or]
    split
    · simp only [Option.some.injEq, iff_and_self]
      omega
    · simp only [reduceCtorEq, false_iff, not_and]
      omega

theorem Stems.copied_or_fresh (h : Stems cs n o c n') :
    (∃ i p, cs[i]? = some p ∧ c.observed = p.observed ∧ n' = n ∧
      (o = .clone i ∨ ∃ t, o = .deadline i t)) ∨
    c.signal = n ∧ n' = n + 1 ∧
      (c.ancestors = [] ∨ ∃ i p, cs[i]? = some p ∧ c.ancestors = p.observed ∧ o = .child i) := by
  cases h with
  | background => exact .inr ⟨rfl, rfl, .inl rfl⟩
  | clone h => exact .inl ⟨_, _, h, rfl, rfl, .inl rfl⟩
  | deadline h => exact .inl ⟨_, _, h, rfl, rfl, .inr ⟨_, rfl⟩⟩
  | child h => exact .inr ⟨rfl, rfl, .inr ⟨_, _, h, rfl, rfl⟩⟩

namespace Makes

theorem length_eq (h : Makes l cs n) : l.length = cs.length := by
  induction h with
  | none => rfl
  | next _ _ ih => simp [ih]

theorem exists_origin (h : Makes l cs n) (hx : cs[x]? = some c) : ∃ o, l[x]? = some o := by
  obtain ⟨hlt, -⟩ := List.getElem?_eq_some_iff.mp hx
  rw [← h.length_eq] at hlt
  exact ⟨l[x], List.getElem?_eq_getElem hlt⟩

theorem exists_context (h : Makes l cs n) (hx : l[x]? = some o) : ∃ c, cs[x]? = some c := by
  obtain ⟨hlt, -⟩ := List.getElem?_eq_some_iff.mp hx
  rw [h.length_eq] at hlt
  exact ⟨cs[x], List.getElem?_eq_getElem hlt⟩

theorem getElem?_new (h : Makes l cs n) (o : Origin) : (l ++ [o])[cs.length]? = some o := by
  rw [← h.length_eq, List.getElem?_concat_length]

theorem stems (h : Makes l cs n) (ho : l[x]? = some o) (hx : cs[x]? = some c) :
    ∃ m m', Stems (cs.take x) m o c m' := by
  induction h with
  | none => simp at hx
  | @next l cs m m' o' c' h hc ih =>
    rcases getElem?_concat_eq_some_iff.mp hx with hx | ⟨rfl, rfl⟩
    · obtain ⟨hlt, -⟩ := List.getElem?_eq_some_iff.mp hx
      rw [List.getElem?_append_left (h.length_eq ▸ hlt)] at ho
      rw [List.take_append_of_le_length (Nat.le_of_lt hlt)]
      exact ih ho hx
    · rw [h.getElem?_new, Option.some.injEq] at ho
      subst ho
      rw [List.take_left]
      exact ⟨m, m', hc⟩

theorem lt_of_mem_observed (h : Makes l cs n) (hx : cs[x]? = some c) (hs : s ∈ c.observed) :
    s < n := by
  induction h generalizing x c with
  | none => simp at hx
  | next _ hz ih =>
    rcases hz.copied_or_fresh with ⟨i, p, hp, ho, rfl, -⟩ | ⟨hn, rfl, ha⟩
    · rcases getElem?_concat_eq_some_iff.mp hx with hx | ⟨-, rfl⟩
      · exact ih hx hs
      · exact ih hp (ho ▸ hs)
    · rcases getElem?_concat_eq_some_iff.mp hx with hx | ⟨-, rfl⟩
      · exact Nat.lt_succ_of_lt (ih hx hs)
      · rcases List.mem_cons.mp hs with rfl | hs
        · omega
        · rcases ha with ha | ⟨i, p, hp, ha, -⟩
          · simp [ha] at hs
          · exact Nat.lt_succ_of_lt (ih hp (ha ▸ hs))

/-- A signal that a context observes comes from above: the induction is on the contexts as they
are made, and only the last one has to be compared with the others. -/
theorem observes_of_mem (h : Makes l cs n) (hx : cs[x]? = some c) (hy : cs[y]? = some d)
    (hs : d.signal ∈ c.observed) : l.Observes x y := by
  induction h generalizing x y c d with
  | none => simp at hx
  | @next l cs _ _ o z h hz ih =>
    have hnew := h.getElem?_new o
    rcases hz.copied_or_fresh with ⟨i, p, hp, ho, -, hcopy⟩ | ⟨hn, -, ha⟩
    case inl =>
      have hcopy : Lineage.Copy (l ++ [o]) cs.length i := by
        rcases hcopy with rfl | ⟨t, rfl⟩
        · exact Lineage.copy_of_clone hnew
        · exact Lineage.copy_of_deadline hnew
      have hps : p.signal = z.signal := (List.cons.inj ho).1.symm
      rcases getElem?_concat_eq_some_iff.mp hx with hx | ⟨rfl, rfl⟩
      · rcases getElem?_concat_eq_some_iff.mp hy with hy | ⟨rfl, rfl⟩
        · exact (ih hx hy hs).grown _
        · exact ((ih hx hp (hps ▸ hs)).grown _).tail (.inl (.symm _ _ (.rel _ _ hcopy)))
      · rcases getElem?_concat_eq_some_iff.mp hy with hy | ⟨rfl, rfl⟩
        · exact ((ih hp hy (ho ▸ hs)).grown _).head (.inl (.rel _ _ hcopy))
        · exact .refl
    case inr =>
      rcases getElem?_concat_eq_some_iff.mp hx with hx | ⟨rfl, rfl⟩
      · rcases getElem?_concat_eq_some_iff.mp hy with hy | ⟨rfl, rfl⟩
        · exact (ih hx hy hs).grown _
        · exact absurd (h.lt_of_mem_observed hx hs) (by omega)
      · rcases getElem?_concat_eq_some_iff.mp hy with hy | ⟨rfl, rfl⟩
        · have hd := h.lt_of_mem_observed hy (List.mem_cons_self)
          rcases List.mem_cons.mp hs with hs | hs
          · omega
          · rcases ha with ha | ⟨i, p, hp, ha, rfl⟩
            · simp [ha] at hs
            · exact ((ih hp hy (ha ▸ hs)).grown _).head (.inr hnew)
        · exact .refl

theorem getElem?_of_take (h : (cs.take x)[y]? = some c) : y < x ∧ cs[y]? = some c := by
  rw [List.getElem?_take] at h
  split at h
  · next hlt => exact ⟨hlt, h⟩
  · contradiction

theorem observed_eq_of_copy (h : Makes l cs n) (hc : l.Copy x y) :
    (cs[x]?).map observed = (cs[y]?).map observed := by
  rcases hc with ho | ⟨t, ho⟩
  · obtain ⟨c, hx⟩ := h.exists_context ho
    obtain ⟨m, m', hs⟩ := h.stems ho hx
    cases hs with
    | clone hp => rw [hx, (getElem?_of_take hp).2]
  · obtain ⟨c, hx⟩ := h.exists_context ho
    obtain ⟨m, m', hs⟩ := h.stems ho hx
    cases hs with
    | deadline hp =>
      rw [hx, (getElem?_of_take hp).2]
      rfl

theorem observed_eq_of_sharesSignal (h : Makes l cs n) (hs : l.SharesSignal x y) :
    (cs[x]?).map observed = (cs[y]?).map observed := by
  induction hs with
  | rel x y hc => exact h.observed_eq_of_copy hc
  | refl x => rfl
  | symm x y _ ih => exact ih.symm
  | trans x y z _ _ ih ih' => exact ih.trans ih'

theorem exists_parent (h : Makes l cs n) (hc : l.Child x y) (hx : cs[x]? = some c) :
    ∃ p, cs[y]? = some p ∧ c.ancestors = p.observed ∧ c.deadline = p.deadline := by
  obtain ⟨m, m', hs⟩ := h.stems hc hx
  cases hs with
  | child hp => exact ⟨_, (getElem?_of_take hp).2, rfl, rfl⟩

theorem observed_subset (h : Makes l cs n) (ho : l.Observes x y) (hx : cs[x]? = some c) :
    ∃ d, cs[y]? = some d ∧ d.observed ⊆ c.observed := by
  induction ho with
  | refl => exact ⟨c, hx, List.Subset.refl _⟩
  | tail _ hl ih =>
    obtain ⟨b, hb, hsub⟩ := ih
    rcases hl with hl | hl
    · have he := h.observed_eq_of_sharesSignal hl
      rw [hb, Option.map_some, eq_comm, Option.map_eq_some_iff] at he
      obtain ⟨d, hd, he⟩ := he
      exact ⟨d, hd, he ▸ hsub⟩
    · obtain ⟨p, hp, ha, -⟩ := h.exists_parent hl hb
      exact ⟨p, hp, fun s hs => hsub (List.mem_cons_of_mem _ (ha ▸ hs))⟩

theorem observes_iff (h : Makes l cs n) (hx : cs[x]? = some c) (hy : cs[y]? = some d) :
    l.Observes x y ↔ d.signal ∈ c.observed := by
  refine ⟨fun ho => ?_, h.observes_of_mem hx hy⟩
  obtain ⟨d', hy', hsub⟩ := h.observed_subset ho hx
  obtain rfl := Option.some.inj (hy.symm.trans hy')
  exact hsub List.mem_cons_self

end Makes

end KeyManagement.Context
