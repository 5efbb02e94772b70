import KeyManagement.Proofs.Seed.Fulfilment

/-! # Declarations

A document declares key rings in the order of their identifiers and, right after each of them,
its crypto keys in the order of theirs. A seeding meets the declarations one after another, so
that what comes before one of them is seeded as a document of its own.
-/

namespace KeyManagement

namespace Keyed

variable {α β : Type} {m : Keyed α} {k : String} {v : α}

/-- What is filed under earlier keys. -/
def before (m : Keyed α) (key : String) : Keyed α :=
  ⟨m.entries.filter fun e => e.1 < key, m.ascending.filter _⟩

/-- What is filed under a key and under earlier ones, with a change under the key itself. -/
def upTo (m : Keyed α) (key : String) (f : α → α) : Keyed α :=
  match m.find? key with
  | none => m.before key
  | some value => (m.before key).insert key (f value)

theorem entries_split (h : m.find? k = some v) :
    ∃ back, m.entries = (m.before k).entries ++ (k, v) :: back := by
  obtain ⟨front, back, he, -⟩ := List.lookup_eq_some_iff.mp h
  have ha := m.ascending
  rw [he, List.pairwise_append, List.pairwise_cons] at ha
  obtain ⟨-, ⟨hback, -⟩, hfront⟩ := ha
  refine ⟨back, ?_⟩
  have hb : (m.before k).entries = front := by
    change m.entries.filter _ = front
    rw [he, List.filter_append, List.filter_eq_self.mpr, List.filter_eq_nil_iff.mpr,
      List.append_nil]
    · intro e hm
      rcases List.mem_cons.mp hm with rfl | hm
      · simp
      · simpa using String.lt_asymm (hback e hm)
    · exact fun e hm => decide_eq_true (hfront e hm (k, v) List.mem_cons_self)
  rw [hb, he]

theorem insertEntry_eq_append {entries : List (String × α)} (h : ∀ e ∈ entries, e.1 < k) :
    insertEntry k v entries = entries ++ [(k, v)] := by
  induction entries with
  | nil => rfl
  | cons e rest ih =>
    rw [List.forall_mem_cons] at h
    rw [insertEntry, if_neg (String.lt_asymm h.1), if_neg, ih h.2, List.cons_append]
    rintro rfl
    exact String.lt_irrefl _ h.1

theorem entries_upTo (h : m.find? k = some v) (f : α → α) :
    (m.upTo k f).entries = (m.before k).entries ++ [(k, f v)] := by
  rw [upTo, h]
  exact insertEntry_eq_append fun e he => of_decide_eq_true (List.mem_filter.mp he).2

theorem flatMap_upTo {g : String × α → List β} {f : α → α} {d : β} (h : m.find? k = some v)
    (hd : ∃ back, g (k, v) = g (k, f v) ++ d :: back) :
    ∃ back, m.entries.flatMap g = (m.upTo k f).entries.flatMap g ++ d :: back := by
  obtain ⟨back, hb⟩ := entries_split h
  obtain ⟨rest, hr⟩ := hd
  refine ⟨rest ++ back.flatMap g, ?_⟩
  rw [hb, entries_upTo h, List.flatMap_append, List.flatMap_append, List.flatMap_cons, hr]
  simp

end Keyed

namespace Seed

inductive Declaration
  | ring (n : KeyRingName)
  | key (n : CryptoKeyName) (seed : CryptoKeySeed)
  deriving DecidableEq

/-- What is declared of a key ring. -/
def declarationsOf (d : KeyRingName × KeyRingSeed) : List Declaration :=
  .ring d.1 :: d.2.cryptoKeys.entries.map fun k => .key (d.1.key k.1) k.2

def Document.declarations (doc : Document) : List Declaration :=
  doc.declared.flatMap declarationsOf

/-- The document cut off before a declaration. The key ring of a crypto key is kept. -/
def Document.before (doc : Document) : Declaration → Document
  | .ring n =>
    ⟨doc.projects.upTo n.parent.project fun p =>
      ⟨p.locations.upTo n.parent.location fun l => ⟨l.keyRings.before n.keyRing⟩⟩⟩
  | .key n _ =>
    ⟨doc.projects.upTo n.parent.parent.project fun p =>
      ⟨p.locations.upTo n.parent.parent.location fun l =>
        ⟨l.keyRings.upTo n.parent.keyRing fun r => ⟨r.cryptoKeys.before n.cryptoKey⟩⟩⟩⟩

section Order

variable {doc : Document}

theorem Document.declarations_eq (doc : Document) : doc.declarations =
    doc.projects.entries.flatMap fun p => p.2.locations.entries.flatMap fun l =>
      l.2.keyRings.entries.flatMap fun r => declarationsOf (⟨⟨p.1, l.1⟩, r.1⟩, r.2) := by
  simp only [declarations, declared, List.flatMap_assoc, List.flatMap_map]

theorem Document.declarations_before {d : Declaration} (h : d ∈ doc.declarations) :
    ∃ back, doc.declarations = (doc.before d).declarations ++ d :: back := by
  rw [declarations_eq, declarations_eq]
  rw [declarations_eq] at h
  obtain ⟨⟨p, P⟩, hp, h⟩ := List.mem_flatMap.mp h
  obtain ⟨⟨l, L⟩, hl, h⟩ := List.mem_flatMap.mp h
  obtain ⟨⟨r, R⟩, hr, h⟩ := List.mem_flatMap.mp h
  simp only [Keyed.mem_entries_iff] at hp hl hr
  rcases List.mem_cons.mp h with rfl | h
  · refine Keyed.flatMap_upTo hp (Keyed.flatMap_upTo hl ?_)
    obtain ⟨back, hb⟩ := Keyed.entries_split hr
    dsimp only
    rw [hb, List.flatMap_append, List.flatMap_cons]
    exact ⟨_, rfl⟩
  · obtain ⟨⟨k, K⟩, hk, rfl⟩ := List.mem_map.mp h
    refine Keyed.flatMap_upTo hp (Keyed.flatMap_upTo hl (Keyed.flatMap_upTo hr ?_))
    obtain ⟨back, hb⟩ := Keyed.entries_split (Keyed.mem_entries_iff.mp hk)
    dsimp only [declarationsOf]
    rw [hb, List.map_append, List.map_cons]
    exact ⟨_, rfl⟩

theorem Document.nodup_declarations (doc : Document) : doc.declarations.Nodup := by
  refine List.nodup_flatMap.mpr ⟨fun d _ => ?_, doc.pairwise_declared.imp fun {d d'} hne => ?_⟩
  · refine List.nodup_cons.mpr ⟨by simp, List.pairwise_map.mpr ?_⟩
    refine (Keyed.pairwise_entries_ne _).imp fun hne he => hne ?_
    exact congrArg CryptoKeyName.cryptoKey (Declaration.key.inj he).1
  · intro x hx hx'
    rcases List.mem_cons.mp hx with rfl | hx
    · rcases List.mem_cons.mp hx' with he | hx'
      · exact hne (Declaration.ring.inj he)
      · simp at hx'
    · obtain ⟨k, -, rfl⟩ := List.mem_map.mp hx
      rcases List.mem_cons.mp hx' with he | hx'
      · simp at he
      · obtain ⟨k', -, he⟩ := List.mem_map.mp hx'
        exact hne (congrArg CryptoKeyName.parent (Declaration.key.inj he).1).symm

theorem Document.before_of_find? {p : Declaration → Bool} {d : Declaration}
    (h : doc.declarations.find? p = some d) :
    ∀ d' ∈ (doc.before d).declarations, p d' = false := by
  obtain ⟨hd, front, back, he, hfront⟩ := List.find?_eq_some_iff_append.mp h
  obtain ⟨back', hb⟩ := doc.declarations_before (List.mem_of_find?_eq_some h)
  have hn := doc.nodup_declarations
  rw [hb, List.nodup_middle, List.nodup_cons, List.mem_append, not_or] at hn
  obtain ⟨rfl, -⟩ := (List.append_cons_inj_of_notMem hn.1.1 hn.1.2).mp (hb.symm.trans he)
  simpa using hfront

end Order

section Seeding

theorem foldlM_flatMap {M : Type → Type} [Monad M] [LawfulMonad M] {α β γ : Type}
    {f : α → γ → M α} {g : β → List γ} (bs : List β) (a : α) :
    (bs.flatMap g).foldlM f a = bs.foldlM (fun a b => (g b).foldlM f a) a := by
  induction bs generalizing a with
  | nil => rfl
  | cons b bs ih =>
    rw [List.flatMap_cons, List.foldlM_append, List.foldlM_cons]
    exact congrArg _ (funext ih)

variable {S σ : Type} [KeyStore S] (env : Environment σ) (ctx : Context)

def seedDeclaration (m : Summary) : Declaration → Step S σ Summary
  | .ring n => ensureRing env ctx n m
  | .key n seed => seedKey env ctx n seed m

theorem apply_eq_foldlM (doc : Document) : (apply env ctx doc : Step S σ Summary) =
    doc.declarations.foldlM (seedDeclaration env ctx) {} := by
  have hring : (seedRing env ctx : Summary → _ → Step S σ Summary) =
      fun m d => (declarationsOf d).foldlM (seedDeclaration env ctx) m := by
    funext m d
    simp only [declarationsOf, List.foldlM_cons, List.foldlM_map]
    exact congrFun (seedRing_eq env ctx d) m
  rw [Document.declarations, foldlM_flatMap, apply, hring]

/-- What comes before a declaration is seeded before it. -/
theorem apply_eq_of_mem {doc : Document} {d : Declaration} (h : d ∈ doc.declarations) :
    ∃ rest : Stage S σ, apply env ctx doc =
      apply env ctx (doc.before d) >>= fun m => seedDeclaration env ctx m d >>= rest := by
  obtain ⟨back, hb⟩ := doc.declarations_before h
  refine ⟨fun m => back.foldlM (seedDeclaration env ctx) m, ?_⟩
  rw [apply_eq_foldlM, apply_eq_foldlM, hb, List.foldlM_append]
  rfl

end Seeding

end Seed

end KeyManagement
