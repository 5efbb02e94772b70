import KeyManagement.Proofs.Context.Observation
import Mathlib.Data.List.Induction

/-! # Cancellation and deadlines

A context is cancelled exactly if a context that it observes was, and its deadline is the
earliest of those set on the way to it. So what has ended stays ended, and a child ends with
its parent at the latest.
-/

namespace KeyManagement.Context

section Deadlines

/-- The least element of a set, if it has elements. -/
def EarliestOf (times : Set Instant) : Option Instant → Prop
  | none => times = ∅
  | some t => IsLeast times t

variable {times : Set Instant} {l : Lineage} {cs : List Context} {n x : Nat} {c : Context}

theorem EarliestOf.withDeadline (h : EarliestOf times c.deadline) (t : Instant) :
    EarliestOf (insert t times) (c.withDeadline t).deadline := by
  cases hd : c.deadline with
  | none =>
    rw [hd] at h
    simp only [EarliestOf] at h
    simp only [Context.withDeadline, hd, Option.elim_none, EarliestOf, h, insert_empty_eq]
    exact isLeast_singleton
  | some d =>
    rw [hd] at h
    simp only [Context.withDeadline, hd, Option.elim_some, EarliestOf, min_comm d t]
    exact IsLeast.insert t h

theorem EarliestOf.exists_le_iff {o : Option Instant} (h : EarliestOf times o) (now : Instant) :
    (∃ t ∈ times, t ≤ now) ↔ o.any (· ≤ now) = true := by
  cases o with
  | none => simp [show times = ∅ from h]
  | some d =>
    obtain ⟨hd, hl⟩ : IsLeast times d := h
    simp only [Option.any_some, decide_eq_true_eq]
    exact ⟨fun ⟨t, ht, hle⟩ => Nat.le_trans (hl ht) hle, fun hle => ⟨d, hd, hle⟩⟩

/-- A copy has another deadline only if an earlier one was set, and a child has its parent's. -/
theorem Makes.earliest (h : Makes l cs n) (hx : cs[x]? = some c) :
    EarliestOf (l.deadlines x) c.deadline := by
  induction x using Nat.strong_induction_on generalizing c with
  | _ x ih =>
    obtain ⟨o, ho⟩ := h.exists_origin hx
    obtain ⟨m, m', hs⟩ := h.stems ho hx
    cases hs with
    | background =>
      rw [Lineage.deadlines_background ho]
      rfl
    | clone hp =>
      obtain ⟨hlt, hp⟩ := getElem?_of_take hp
      rw [Lineage.deadlines_clone ho]
      exact ih _ hlt hp
    | deadline hp =>
      obtain ⟨hlt, hp⟩ := getElem?_of_take hp
      rw [Lineage.deadlines_deadline ho]
      exact (ih _ hlt hp).withDeadline _
    | child hp =>
      obtain ⟨hlt, hp⟩ := getElem?_of_take hp
      have hp := ih _ hlt hp
      rw [Lineage.deadlines_child ho]
      exact hp

end Deadlines

section Checks

variable {c p : Context} {signals signals' : Signals} {now now' : Instant}

theorem isCancelled_iff : c.isCancelled signals = true ↔ ∃ s ∈ c.observed, s ∈ signals.raised := by
  simp [isCancelled, observed]

theorem check_eq_ok_iff : c.check signals now = .ok () ↔
    c.isCancelled signals = false ∧ c.deadline.any (· ≤ now) = false := by
  unfold check
  split
  · next h => simp [h]
  · next h =>
    split
    · next hd => simp [hd]
    · next hd => simp [h, hd]

/-- What has fewer signals to observe and no earlier deadline goes on at least as long. -/
theorem check_ne_ok_of_le (hs : p.observed ⊆ c.observed) (hd : c.deadline = p.deadline)
    (hr : signals.raised ⊆ signals'.raised) (hn : now ≤ now')
    (h : p.check signals now ≠ .ok ()) : c.check signals' now' ≠ .ok () := by
  rw [ne_eq, check_eq_ok_iff, not_and, Bool.not_eq_false] at h ⊢
  intro hc
  have hp : p.isCancelled signals = false := by
    rw [← Bool.not_eq_true, isCancelled_iff] at hc ⊢
    exact fun ⟨s, hs', hm⟩ => hc ⟨s, hs hs', hr hm⟩
  obtain ⟨d, hpd, hle⟩ := (Option.any_eq_true _ _).mp (h hp)
  rw [hd, hpd, Option.any_some, decide_eq_true_eq]
  exact Nat.le_trans (of_decide_eq_true hle) hn

end Checks

section Runs

variable {start : Instant} {steps : List Step} {f f' : Family} {a : Step} {c : Context} {x : Nat}

/-- What a run has made of its steps. -/
structure Family.MadeBy (f : Family) (start : Instant) (steps : List Step) : Prop where
  makes : Makes (lineage start steps) f.members f.signals.count
  raised : ∀ s, s ∈ f.signals.raised ↔
    ∃ y c, .cancel y ∈ steps ∧ f.members[y]? = some c ∧ c.signal = s
  present : ∀ y, .cancel y ∈ steps → ∃ c, f.members[y]? = some c
  clock : f.now = start + elapsed steps

namespace Family

/-- What a step can do: make a context, raise a signal, or move the clock. -/
inductive Does (f : Family) : Step → Family → Prop
  | make {a : Step} {o : Origin} {c : Context} {n : Nat} (ho : lineage f.now [a] = [o])
    (hc : Stems f.members f.signals.count o c n) (hd : a.delay = 0) (hn : ∀ y, a ≠ .cancel y) :
    Does f a ({ f with signals := { f.signals with count := n } }.add c)
  | cancel {y : Nat} {c : Context} (hy : f.members[y]? = some c) :
    Does f (.cancel y) { f with signals := c.cancel f.signals }
  | advance (delay : Nat) : Does f (.advance delay) { f with now := f.now + delay }

theorem does_of_step? (h : f.step? a = some f') : f.Does a f' := by
  cases a with
  | background =>
    obtain rfl := Option.some.inj h
    exact .make rfl .background rfl (by simp)
  | clone source =>
    obtain ⟨c, hc, rfl⟩ := Option.map_eq_some_iff.mp h
    exact .make rfl (.clone hc) rfl (by simp)
  | child parent =>
    obtain ⟨p, hp, rfl⟩ := Option.map_eq_some_iff.mp h
    exact .make rfl (.child hp) rfl (by simp)
  | withTimeout source delay =>
    obtain ⟨c, hc, h⟩ := Option.bind_eq_some_iff.mp h
    obtain ⟨c', hw, rfl⟩ := Option.map_eq_some_iff.mp h
    obtain ⟨t, ht, rfl⟩ := Option.map_eq_some_iff.mp hw
    obtain rfl : f.now + delay = t := by
      unfold Instant.after? at ht
      split at ht
      · exact Option.some.inj ht
      · contradiction
    exact .make rfl (.deadline hc) rfl (by simp)
  | withDeadline source deadline =>
    obtain ⟨c, hc, rfl⟩ := Option.map_eq_some_iff.mp h
    exact .make rfl (.deadline hc) rfl (by simp)
  | cancel target =>
    obtain ⟨c, hc, rfl⟩ := Option.map_eq_some_iff.mp h
    exact .cancel hc
  | advance delay =>
    obtain rfl := Option.some.inj h
    exact .advance delay

theorem MadeBy.lineage_concat (h : f.MadeBy start steps) (a : Step) :
    lineage start (steps ++ [a]) = lineage start steps ++ lineage f.now [a] := by
  rw [lineage_append, h.clock]

theorem MadeBy.add (h : f.MadeBy start steps) {o : Origin} {n : Nat}
    (ha : lineage f.now [a] = [o]) (hc : Stems f.members f.signals.count o c n)
    (hd : a.delay = 0) (hn : ∀ y, a ≠ .cancel y) :
    MadeBy ({ f with signals := { f.signals with count := n } }.add c) start (steps ++ [a]) where
  makes := by
    rw [h.lineage_concat, ha]
    exact .next h.makes hc
  raised s := by
    simp only [Family.add, h.raised, List.mem_append, List.mem_singleton, (hn _).symm, or_false]
    constructor
    · rintro ⟨y, d, hm, hy, he⟩
      exact ⟨y, d, hm, getElem?_concat_eq_some_iff.mpr (.inl hy), he⟩
    · rintro ⟨y, d, hm, hy, he⟩
      obtain ⟨d', hy'⟩ := h.present y hm
      rw [List.getElem?_append_left (List.getElem?_eq_some_iff.mp hy').1] at hy
      exact ⟨y, d, hm, hy, he⟩
  present y hm := by
    simp only [List.mem_append, List.mem_singleton, (hn y).symm, or_false] at hm
    obtain ⟨d, hy⟩ := h.present y hm
    exact ⟨d, getElem?_concat_eq_some_iff.mpr (.inl hy)⟩
  clock := by
    rw [elapsed_append_singleton, hd]
    exact h.clock

theorem MadeBy.cancel (h : f.MadeBy start steps) {y : Nat} (hy : f.members[y]? = some c) :
    MadeBy { f with signals := c.cancel f.signals } start (steps ++ [.cancel y]) where
  makes := by
    rw [h.lineage_concat, lineage, lineage, List.append_nil]
    exact h.makes
  raised s := by
    simp only [Context.cancel, List.mem_cons, h.raised, List.mem_append, Step.cancel.injEq,
      List.not_mem_nil, or_false]
    constructor
    · rintro (rfl | ⟨z, d, hm, hz, he⟩)
      · exact ⟨y, c, .inr rfl, hy, rfl⟩
      · exact ⟨z, d, .inl hm, hz, he⟩
    · rintro ⟨z, d, hm | rfl, hz, he⟩
      · exact .inr ⟨z, d, hm, hz, he⟩
      · obtain rfl := Option.some.inj (hy.symm.trans hz)
        exact .inl he.symm
  present z hm := by
    rcases List.mem_append.mp hm with hm | hm
    · exact h.present z hm
    · obtain rfl : z = y := by simpa using hm
      exact ⟨c, hy⟩
  clock := by
    rw [elapsed_append_singleton]
    exact h.clock

theorem MadeBy.advance (h : f.MadeBy start steps) (delay : Nat) :
    MadeBy { f with now := f.now + delay } start (steps ++ [.advance delay]) where
  makes := by
    rw [h.lineage_concat]
    simpa [lineage] using h.makes
  raised s := by simpa using h.raised s
  present y hm := h.present y (by simpa using hm)
  clock := by rw [elapsed_append_singleton, ← Nat.add_assoc, h.clock]; rfl

theorem MadeBy.step (h : f.MadeBy start steps) (ha : f.Does a f') :
    f'.MadeBy start (steps ++ [a]) := by
  cases ha with
  | make ho hc hd hn => exact h.add ho hc hd hn
  | cancel hy => exact h.cancel hy
  | advance delay => exact h.advance delay

theorem madeBy_start (start : Instant) : MadeBy { now := start } start [] where
  makes := .none
  raised s := by simp
  present y hm := by simp at hm
  clock := rfl

theorem madeBy_run (h : run? start steps = some f) : f.MadeBy start steps := by
  induction steps using List.reverseRecOn generalizing f with
  | nil =>
    obtain rfl := Option.some.inj h
    exact madeBy_start start
  | append_singleton steps a ih =>
    rw [run?_append, Option.bind_eq_some_iff] at h
    obtain ⟨f', hf', ha⟩ := h
    exact (ih hf').step (does_of_step? (by simpa using ha))

/-- The same contexts later. -/
structure Precedes (f f' : Family) : Prop where
  members : f.members <+: f'.members
  raised : f.signals.raised ⊆ f'.signals.raised
  now : f.now ≤ f'.now

theorem Precedes.refl (f : Family) : f.Precedes f :=
  ⟨List.prefix_refl _, List.Subset.refl _, le_rfl⟩

theorem Precedes.trans {f'' : Family} (h : f.Precedes f') (h' : f'.Precedes f'') :
    f.Precedes f'' :=
  ⟨h.members.trans h'.members, List.Subset.trans h.raised h'.raised, h.now.trans h'.now⟩

theorem Does.precedes (h : f.Does a f') : f.Precedes f' := by
  cases h with
  | make => exact ⟨List.prefix_append _ _, List.Subset.refl _, le_rfl⟩
  | cancel => exact ⟨List.prefix_refl _, List.subset_cons_self _ _, le_rfl⟩
  | advance delay => exact ⟨List.prefix_refl _, List.Subset.refl _, Nat.le_add_right _ _⟩

theorem precedes_foldlM (h : steps.foldlM step? f = some f') : f.Precedes f' := by
  induction steps generalizing f with
  | nil =>
    obtain rfl := Option.some.inj h
    exact .refl f
  | cons a steps ih =>
    rw [List.foldlM_cons, Option.bind_eq_bind, Option.bind_eq_some_iff] at h
    obtain ⟨g, ha, h⟩ := h
    exact (does_of_step? ha).precedes.trans (ih h)

end Family

end Runs

section Lives

/-- A context that was cancelled: itself, or one that it observes. -/
def CancelledIn (start : Instant) (steps : List Step) (x : Nat) : Prop :=
  ∃ y, .cancel y ∈ steps ∧ (lineage start steps).Observes x y

open Classical in
/-- How a context stands after the steps that are done, and how it goes on. -/
structure GovernedBy (start : Instant) (steps : List Step) (f : Family) (x : Nat) (c : Context) :
    Prop where
  cancelled : c.isCancelled f.signals = true ↔ CancelledIn start steps x
  deadline : EarliestOf ((lineage start steps).deadlines x) c.deadline
  clock : f.now = start + elapsed steps
  check : c.check f.signals f.now =
    if CancelledIn start steps x then .error .cancelled
    else if ∃ t ∈ (lineage start steps).deadlines x, t ≤ f.now then .error .deadlineExceeded
    else .ok ()
  outlived : ∀ y p, (lineage start steps).Child x y → f.members[y]? = some p →
    p.check f.signals f.now ≠ .ok () → c.check f.signals f.now ≠ .ok ()
  ended : ∀ more f', Family.run? start (steps ++ more) = some f' → f'.members[x]? = some c ∧
    (c.check f.signals f.now ≠ .ok () → c.check f'.signals f'.now ≠ .ok ())

variable {start : Instant} {steps : List Step} {f : Family} {x : Nat} {c : Context}

theorem Family.MadeBy.isCancelled_iff (h : f.MadeBy start steps) (hx : f.members[x]? = some c) :
    c.isCancelled f.signals = true ↔ CancelledIn start steps x := by
  rw [Context.isCancelled_iff]
  constructor
  · rintro ⟨s, hs, hr⟩
    obtain ⟨y, d, hm, hy, rfl⟩ := (h.raised s).mp hr
    exact ⟨y, hm, (h.makes.observes_iff hx hy).mpr hs⟩
  · rintro ⟨y, hm, ho⟩
    obtain ⟨d, hy⟩ := h.present y hm
    exact ⟨d.signal, (h.makes.observes_iff hx hy).mp ho, (h.raised _).mpr ⟨y, d, hm, hy, rfl⟩⟩

/-- After whatever steps, every context is cancelled and expires as its lineage says. Once its
check fails it fails forever, and it fails where that of its parent does. -/
theorem governed_by_lineage (h : Family.run? start steps = some f)
    (hx : f.members[x]? = some c) : GovernedBy start steps f x c := by
  have hm := Family.madeBy_run h
  have hcancelled := hm.isCancelled_iff hx
  have hdeadline := hm.makes.earliest hx
  constructor
  case cancelled => exact hcancelled
  case deadline => exact hdeadline
  case clock => exact hm.clock
  case check =>
    classical
    simp only [Context.check, hdeadline.exists_le_iff]
    exact if_congr hcancelled rfl rfl
  case outlived =>
    intro y p hc hy hp
    obtain ⟨p', hy', ha, hd⟩ := hm.makes.exists_parent hc hx
    obtain rfl := Option.some.inj (hy.symm.trans hy')
    refine check_ne_ok_of_le ?_ hd (List.Subset.refl _) le_rfl hp
    exact fun s hs => List.mem_cons_of_mem _ (ha ▸ hs)
  case ended =>
    intro more f' h'
    rw [Family.run?_append, h, Option.bind_some] at h'
    obtain ⟨hpre, hr, hn⟩ := Family.precedes_foldlM h'
    exact ⟨getElem?_of_isPrefix hpre hx, check_ne_ok_of_le (List.Subset.refl _) rfl hr hn⟩

end Lives

end KeyManagement.Context

namespace KeyManagement.Sample

open Context

/-- A context, a child with two copies, of which one expires, and a child of that one. -/
def steps : List Step :=
  [.background, .child 0, .clone 1, .withTimeout 1 5, .child 3, .withDeadline 4 9, .cancel 2,
    .advance 6]

def family : Family where
  members := [⟨0, [], none⟩, ⟨1, [0], none⟩, ⟨1, [0], none⟩, ⟨1, [0], some 5⟩,
    ⟨2, [1, 0], some 5⟩, ⟨2, [1, 0], some 5⟩]
  signals := ⟨3, [1]⟩
  now := 6

end KeyManagement.Sample

namespace KeyManagement.Context

open Sample in
/-- The last context is cancelled through a copy of its grandparent, and has kept the deadline
of its parent. -/
theorem sample_governed :
    Family.run? 0 steps = some family ∧ family.members[5]? = some ⟨2, [1, 0], some 5⟩ ∧
    GovernedBy 0 steps family 5 ⟨2, [1, 0], some 5⟩ ∧
    CancelledIn 0 steps 5 ∧ IsLeast ((lineage 0 steps).deadlines 5) 5 := by
  have hrun : Family.run? 0 steps = some family := by decide
  have hlast : family.members[5]? = some ⟨2, [1, 0], some 5⟩ := rfl
  have hgov := governed_by_lineage hrun hlast
  exact ⟨hrun, hlast, hgov, hgov.cancelled.mp (by decide), hgov.deadline⟩

end KeyManagement.Context
