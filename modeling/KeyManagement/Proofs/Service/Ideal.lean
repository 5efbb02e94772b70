import KeyManagement.Proofs.Engine.AesGcm
import KeyManagement.Proofs.Service.History
import KeyManagement.Proofs.Service.Mirror

/-! # An ideal environment

In the ideal environment no context is ever cancelled, no generation of material fails, and time
stands still. It mirrors every other environment whose contexts and generations interrupt it.
-/

namespace KeyManagement

variable {σ : Type}

def epoch : Timestamp where
  date := (Date.ofParts? 1970 1 1).get (by decide)
  time := (TimeOfDay.ofParts? 0 0 0 0).get (by decide)

/-- All times and all material are made the same. -/
def Redaction.blank : Redaction := ⟨fun _ => epoch, fun _ => ⟨[]⟩⟩

/-- A store without its times and its material. -/
def Store.outline (s : Store) : Store := s.redact .blank

namespace Environment

/-- Its engine makes the same material whenever it is asked. -/
def ideal : Environment Unit where
  check _ := pure ()
  time _ := epoch
  timeAgain _ := epoch
  engine :=
    { generate := fun _ => pure ⟨[]⟩
      encrypt := fun _ _ _ _ => pure []
      decrypt := fun _ _ _ _ => pure [] }
  requestContext? _ _ _ := none

/-- From this world on, the context stays live and the engine generates material. -/
def Sustained (env : Environment σ) (ctx : Context) (w : σ) : Prop :=
  ∃ L : σ → Prop, L w ∧
    (∀ v, L v → ∃ v', env.check ctx v = .ok () v' ∧ L v') ∧
    ∀ v, L v → ∃ m v', env.engine.generate ctx v = .ok m v' ∧ L v'

namespace Sustained

variable {env : Environment σ} {ctx : Context} {w : σ}

theorem check (h : env.Sustained ctx w) :
    ∃ v, env.check ctx w = .ok () v ∧ env.Sustained ctx v := by
  obtain ⟨L, hw, hc, hg⟩ := h
  obtain ⟨v, hv, hl⟩ := hc w hw
  exact ⟨v, hv, L, hl, hc, hg⟩

theorem generate (h : env.Sustained ctx w) :
    ∃ m v, env.engine.generate ctx w = .ok m v ∧ env.Sustained ctx v := by
  obtain ⟨L, hw, hc, hg⟩ := h
  obtain ⟨m, v, hv, hl⟩ := hg w hw
  exact ⟨m, v, hv, L, hl, hc, hg⟩

end Sustained

theorem sustained_random {ctx : Context} {w : World Generator}
    (h : ctx.check w.signals w.now = .ok ()) :
    (World.environment Engine.random).Sustained ctx w := by
  have hc : ∀ v : World Generator, ctx.check v.signals v.now = .ok () →
      World.check ctx v = .ok () v := by
    intro v hv
    rw [World.check, hv]
  refine ⟨fun v => ctx.check v.signals v.now = .ok (), h, fun v hv => ⟨v, hc v hv, hv⟩, ?_⟩
  intro v hv
  exact ⟨_, _, AesGcm.generate_eq_ok_iff.mpr ⟨_, v, hc v hv, rfl, rfl⟩, hv⟩

end Environment

/-- The failures that say nothing about the request or the store. -/
def ServiceError.Interrupts : ServiceError → Prop
  | .context _ => True
  | .engine .generate _ => True
  | _ => False

theorem ServiceError.Interrupts.code_ne {e : ServiceError} (h : e.Interrupts) :
    e.code ≠ .alreadyExists := by
  cases e with
  | context e => exact nofun
  | engine call e =>
    cases e with
    | context e => exact nofun
    | _ => exact nofun
  | _ => exact h.elim

theorem Environment.mirrors_ideal (env : Environment σ) (ctx ctx₀ : Context) :
    env.Mirrors ctx .ideal ctx₀ .blank (fun _ _ => True) ServiceError.Interrupts where
  time _ := rfl
  timeAgain _ := rfl
  check := by
    intro w v _
    unfold EStateM.adaptExcept
    cases env.check ctx w with
    | ok _ w' => exact .ok trivial trivial
    | error e w' => exact .interrupted trivial w' _
  generate := by
    intro w v _
    unfold EStateM.adaptExcept
    cases env.engine.generate ctx w with
    | ok m w' => exact .ok trivial rfl
    | error e w' => exact .interrupted trivial w' _

/-- Being sustained is itself an invariant of the worlds, under which nothing interrupts. -/
theorem Environment.mirrors_ideal_sustained (env : Environment σ) (ctx ctx₀ : Context) :
    env.Mirrors ctx .ideal ctx₀ .blank (fun w _ => env.Sustained ctx w) fun _ => False where
  time _ := rfl
  timeAgain _ := rfl
  check := by
    intro w v hw
    obtain ⟨w', hc, hw'⟩ := hw.check
    unfold EStateM.adaptExcept
    rw [hc]
    exact .ok hw' trivial
  generate := by
    intro w v hw
    obtain ⟨m, w', hg, hw'⟩ := hw.generate
    unfold EStateM.adaptExcept
    rw [hg]
    exact .ok hw' rfl

namespace Service

/-- What is left of a state without its world. -/
def State.outline (st : State Store σ) : State Store Unit := ⟨st.store.outline, ()⟩

theorem State.outline_congr {τ : Type} {st : State Store σ} {t : State Store τ}
    (h : st.store = t.store) : st.outline = t.outline := by
  rw [outline, h, outline]

theorem State.Mirrors.eq_outline {R : σ → Unit → Prop} {st : State Store σ}
    {t : State Store Unit} (h : st.Mirrors .blank R t) : t = st.outline := by
  obtain ⟨s, ⟨⟩⟩ := t
  obtain rfl : s = st.store.outline := h.store
  rfl

end Service

namespace Sample

theorem sustained : env.Sustained ctx created.world := Environment.sustained_random rfl

end Sample

end KeyManagement
