import KeyManagement.Context.Basic
import Mathlib.Logic.Relation
import Mathlib.Order.Bounds.Basic

/-! # Lineages of contexts

Contexts are made one after another, each from nothing or from one that is there already, while
a clock goes on. Their lineage says how each came about: which of them share a signal, which is
a child of which, and which deadlines were set on the way.
-/

namespace KeyManagement.Context

/-- What is done with contexts, which are numbered in the order in which they are made. -/
inductive Step
  | background
  | clone (source : Nat)
  | child (parent : Nat)
  | withTimeout (source delay : Nat)
  | withDeadline (source : Nat) (deadline : Instant)
  | cancel (target : Nat)
  | advance (delay : Nat)
  deriving DecidableEq

/-- The contexts made so far, with the signals and the clock that they go by. -/
structure Family where
  members : List Context := []
  signals : Signals := {}
  now : Instant
  deriving DecidableEq

namespace Family

def add (f : Family) (c : Context) : Family := { f with members := f.members ++ [c] }

/-- A step cannot be done with a context that is not there, nor with a timeout whose end cannot
be represented. -/
def step? (f : Family) : Step → Option Family
  | .background =>
    let (c, signals) := Context.background f.signals
    some ({ f with signals }.add c)
  | .clone source => (f.members[source]?).map f.add
  | .child parent => (f.members[parent]?).map fun p =>
    let (c, signals) := p.child f.signals
    { f with signals }.add c
  | .withTimeout source delay =>
    (f.members[source]?).bind fun c => (c.withTimeout? f.now delay).map f.add
  | .withDeadline source deadline =>
    (f.members[source]?).map fun c => f.add (c.withDeadline deadline)
  | .cancel target => (f.members[target]?).map fun c => { f with signals := c.cancel f.signals }
  | .advance delay => some { f with now := f.now + delay }

def run? (start : Instant) (steps : List Step) : Option Family :=
  steps.foldlM step? { now := start }

end Family

/-- How a context came about. -/
inductive Origin
  | background
  | clone (source : Nat)
  | deadline (source : Nat) (deadline : Instant)
  | child (parent : Nat)
  deriving DecidableEq

abbrev Lineage := List Origin

/-- The origins of the contexts that the steps make. A timeout counts from the instant at which
it is set. -/
def lineage (now : Instant) : List Step → Lineage
  | [] => []
  | .background :: rest => .background :: lineage now rest
  | .clone source :: rest => .clone source :: lineage now rest
  | .child parent :: rest => .child parent :: lineage now rest
  | .withTimeout source delay :: rest => .deadline source (now + delay) :: lineage now rest
  | .withDeadline source deadline :: rest => .deadline source deadline :: lineage now rest
  | .cancel _ :: rest => lineage now rest
  | .advance delay :: rest => lineage (now + delay) rest

theorem getElem?_of_isPrefix {α : Type} {as bs : List α} {a : α} {i : Nat} (hp : as <+: bs)
    (h : as[i]? = some a) : bs[i]? = some a := by
  obtain ⟨cs, rfl⟩ := hp
  obtain ⟨hlt, -⟩ := List.getElem?_eq_some_iff.mp h
  rwa [List.getElem?_append_left hlt]

namespace Lineage

variable (l : Lineage)

/-- A copy, perhaps with another deadline. -/
def Copy (x y : Nat) : Prop := l[x]? = some (.clone y) ∨ ∃ t, l[x]? = some (.deadline y t)

def Child (x y : Nat) : Prop := l[x]? = some (.child y)

def SharesSignal : Nat → Nat → Prop := Relation.EqvGen l.Copy

/-- A context observes those that share its signal, those that its parent observes, and so on up
the lineage. -/
def Observes : Nat → Nat → Prop :=
  Relation.ReflTransGen fun x y => l.SharesSignal x y ∨ l.Child x y

def DerivesFrom : Nat → Nat → Prop := Relation.ReflTransGen fun x y => l.Copy x y ∨ l.Child x y

/-- The deadlines that were set on the way to a context. -/
def deadlines (x : Nat) : Set Instant :=
  {t | ∃ y source, l.DerivesFrom x y ∧ l[y]? = some (.deadline source t)}

variable {l} {x y : Nat} {t : Instant}

theorem copy_of_clone (h : l[x]? = some (.clone y)) : l.Copy x y := .inl h

theorem copy_of_deadline (h : l[x]? = some (.deadline y t)) : l.Copy x y := .inr ⟨t, h⟩

section Grown

theorem Copy.grown (h : l.Copy x y) (m : Lineage) : Lineage.Copy (l ++ m) x y := by
  rcases h with h | ⟨t, h⟩
  · exact copy_of_clone (getElem?_of_isPrefix (List.prefix_append l m) h)
  · exact copy_of_deadline (getElem?_of_isPrefix (List.prefix_append l m) h)

/-- What a context observes is settled when it is made; it only gets more copies. -/
theorem Observes.grown (h : l.Observes x y) (m : Lineage) : Lineage.Observes (l ++ m) x y := by
  refine Relation.ReflTransGen.mono ?_ _ _ h
  rintro a b (h | h)
  · exact .inl (Relation.EqvGen.mono (fun _ _ hc => Copy.grown hc m) _ _ h)
  · exact .inr (getElem?_of_isPrefix (List.prefix_append l m) h)

end Grown

section Deadlines

theorem mem_deadlines_iff :
    t ∈ l.deadlines x ↔ (∃ source, l[x]? = some (.deadline source t)) ∨
      ∃ y, (l.Copy x y ∨ l.Child x y) ∧ t ∈ l.deadlines y := by
  constructor
  · rintro ⟨y, source, hd, hy⟩
    rcases Relation.ReflTransGen.cases_head hd with rfl | ⟨z, hz, hd⟩
    · exact .inl ⟨source, hy⟩
    · exact .inr ⟨z, hz, y, source, hd, hy⟩
  · rintro (⟨source, hx⟩ | ⟨y, hy, z, source, hd, hz⟩)
    · exact ⟨x, source, .refl, hx⟩
    · exact ⟨z, source, .head hy hd, hz⟩

theorem deadlines_background (h : l[x]? = some .background) : l.deadlines x = ∅ := by
  ext t
  rw [mem_deadlines_iff]
  simp [Copy, Child, h]

theorem deadlines_clone (h : l[x]? = some (.clone y)) : l.deadlines x = l.deadlines y := by
  ext t
  rw [mem_deadlines_iff]
  simp [Copy, Child, h]

theorem deadlines_child (h : l.Child x y) : l.deadlines x = l.deadlines y := by
  ext t
  rw [Child] at h
  rw [mem_deadlines_iff]
  simp [Copy, Child, h]

theorem deadlines_deadline (h : l[x]? = some (.deadline y t)) :
    l.deadlines x = insert t (l.deadlines y) := by
  ext u
  rw [mem_deadlines_iff]
  simp [Copy, Child, h, eq_comm]

end Deadlines

end Lineage

theorem Family.run?_append (start : Instant) (steps more : List Step) :
    run? start (steps ++ more) = (run? start steps).bind fun f => more.foldlM step? f :=
  List.foldlM_append

/-- How far the clock goes. -/
def Step.delay : Step → Nat
  | .advance delay => delay
  | _ => 0

def elapsed : List Step → Nat
  | [] => 0
  | a :: rest => a.delay + elapsed rest

theorem elapsed_append_singleton (steps : List Step) (a : Step) :
    elapsed (steps ++ [a]) = elapsed steps + a.delay := by
  induction steps with
  | nil => simp [elapsed]
  | cons b steps ih => rw [List.cons_append, elapsed, elapsed, ih, Nat.add_assoc]

theorem lineage_append (now : Instant) (steps more : List Step) :
    lineage now (steps ++ more) = lineage now steps ++ lineage (now + elapsed steps) more := by
  induction steps generalizing now with
  | nil => simp [lineage, elapsed]
  | cons a steps ih =>
    cases a with
    | advance delay => simp [lineage, elapsed, Step.delay, ih, Nat.add_assoc]
    | _ => simp [lineage, elapsed, Step.delay, ih]

end KeyManagement.Context
