import KeyManagement.Emulator
import KeyManagement.Proofs.Http.Answer

/-! # Configurations without a fault

An emulator whose configuration has no fault can be started: every setting is accepted where it
is used. Only seeding can still fail, and not for the name of the seed file. The request timeout
has no upper bound, however, so that a deadline may be too far away to be represented. The emulator
then answers no request that it takes in and that asks for an operation.
-/

namespace KeyManagement

theorem LogFormat.exists_parse {s : String} (h : s.toLower ∈ names) :
    ∃ format, parse s = .ok format := by
  simp only [names, List.map_cons, List.map_nil, name, List.mem_cons, List.not_mem_nil,
    or_false] at h
  rcases h with h | h
  · exact ⟨.console, by simp [parse, h]⟩
  · exact ⟨.json, by simp [parse, h]⟩

section Deadlines

theorem Instant.isSome_after?_iff {now seconds : Nat} :
    (Instant.after? now (seconds * 1000)).isSome ↔ now / 1000 + seconds < 2 ^ 63 := by
  have hlimit : now + seconds * 1000 < instantLimit ↔ now / 1000 + seconds < 2 ^ 63 := by
    rw [instantLimit]
    omega
  rw [← hlimit, after?]
  split
  · next h => exact ⟨fun _ => h, fun _ => rfl⟩
  · next h => exact ⟨nofun, fun hlt => absurd hlt h⟩

variable {c : Configuration}

/-- A request that comes in now has a deadline that can be represented, or none. -/
def Configuration.DeadlineFits (c : Configuration) (now : Nat) : Prop :=
  ∀ seconds, c.requestTimeout = some seconds → now / 1000 + seconds.toNat < 2 ^ 63

theorem World.isSome_requestContext?_iff {ε : Type} (root : Context) (w : World ε) :
    (w.requestContext? root c.requestMillis).isSome ↔ c.DeadlineFits w.now := by
  unfold Configuration.DeadlineFits Configuration.requestMillis
  cases hc : c.requestTimeout with
  | none => simp [requestContext?]
  | some seconds =>
    have hnow : (w.child root).2.now = w.now := rfl
    simp [requestContext?, Context.withTimeout?, hnow, Instant.isSome_after?_iff]

end Deadlines

section SeedFiles

variable {S σ : Type} [KeyStore S] {env : Environment σ} {ctx : Context} {path : String}

theorem Seed.Document.ofFile_ne_foreign (h : FileName.isYaml path = true)
    (contents : Option Bytes) (path' : String) :
    Document.ofFile path contents ≠ .error (.foreign path') := by
  simp only [Document.ofFile, h, Bool.not_true, Bool.false_eq_true, if_false]
  split
  · simp
  · split <;> simp

theorem Seed.applyFile_ne_foreign (h : FileName.isYaml path = true) (contents : Option Bytes)
    (path' : String) (st st' : Service.State S σ) :
    applyFile env ctx path contents st ≠ .error (.failed (.foreign path')) st' := by
  intro he
  simp only [applyFile, bind_eq_error_iff, ofResultAs_eq_error_iff, adaptExcept_eq_error_iff] at he
  rcases he with ⟨⟨e, hf, he⟩, -⟩ | ⟨_, _, -, e, -, he⟩
  · cases he
    exact Document.ofFile_ne_foreign h contents path' hf
  · cases e <;> cases he

end SeedFiles

namespace Configuration

variable {c : Configuration}

theorem ite_some_eq_none_iff {α : Type} {p : Prop} [Decidable p] {a : α} {o : Option α} :
    (if p then some a else o) = none ↔ ¬ p ∧ o = none := by
  split <;> simp [*]

theorem fault?_eq_none_iff : c.fault? = none ↔
    c.socketAddress?.isSome ∧ c.storeKind?.isSome ∧ c.logLevel.toLower ∈ logLevels ∧
    c.logFormat.toLower ∈ LogFormat.names ∧
    (∀ path, c.seedFile = some path → FileName.isYaml path = true) ∧
    c.requestTimeout ≠ some 0 := by
  have hseed : c.foreignSeedFile? = none ↔
      ∀ path, c.seedFile = some path → FileName.isYaml path = true := by
    simp [foreignSeedFile?, Option.filter_eq_none_iff]
  simp only [← hseed, fault?, ite_some_eq_none_iff, Option.isNone_iff_eq_none, Decidable.not_not,
    Option.isSome_iff_ne_none, ne_eq]
  cases c.foreignSeedFile? <;> simp

/-- The settings are accepted where they are used. -/
structure Usable (c : Configuration) : Prop where
  address : ∃ address, c.socketAddress? = some address
  store : ∃ kind, c.storeKind? = some kind
  logFormat : ∃ format, LogFormat.parse c.logFormat = .ok format
  seedFile : ∀ {S σ : Type} [KeyStore S] (env : Environment σ) (ctx : Context) (path : String)
    (contents : Option Bytes) (path' : String) (st st' : Service.State S σ),
    c.seedFile = some path →
      Seed.applyFile env ctx path contents st ≠ .error (.failed (.foreign path')) st'

theorem usable_of_fault?_eq_none (h : c.fault? = none) : c.Usable := by
  obtain ⟨ha, hs, -, hf, hp, -⟩ := fault?_eq_none_iff.mp h
  exact {
    address := Option.isSome_iff_exists.mp ha
    store := Option.isSome_iff_exists.mp hs
    logFormat := LogFormat.exists_parse hf
    seedFile := fun _ _ path contents path' st st' he =>
      Seed.applyFile_ne_foreign (hp path he) contents path' st st' }

end Configuration

namespace Http

variable {σ : Type} {env : Environment σ} {server : Server} {request : Request}
  {st : Service.State Store σ}

/-- A version number overflows in the operation, under the context that a request gets. -/
def Server.Overflows (server : Server) (env : Environment σ) (op : Operation)
    (st : Service.State Store σ) : Prop :=
  ∃ ctx world st', env.requestContext? server.root server.timeout st.world = some (ctx, world) ∧
    Service.perform env ctx op ⟨st.store, world⟩ = .error .overflow st'

theorem respond_eq_none_iff : (server.respond env request st).1 = none ↔
    ∃ op, interpret request = .ok (.perform op) ∧
      (env.requestContext? server.root server.timeout st.world = none ∨
        server.Overflows env op st) := by
  delta Server.respond Server.Overflows
  split
  · next h => simp [h]
  · next h => simp [h]
  · next op h =>
    simp only [h, Except.ok.injEq, Task.perform.injEq, exists_eq_left']
    split
    · next hc => simp [hc]
    · next ctx world hc =>
      split <;> next hp => simp [hc, hp]

/-- Nothing but the deadline of its context and the overflow of a version number keeps a request
from being answered. -/
theorem receive_eq_none_iff : (server.receive env request st).1 = none ↔
    exceedsLimit request = false ∧ ∃ op, interpret request = .ok (.perform op) ∧
      (env.requestContext? server.root server.timeout st.world = none ∨
        server.Overflows env op st) := by
  cases h : exceedsLimit request with
  | true => simp [receive_of_exceeding h]
  | false =>
    rw [receive_of_within h, respond_eq_none_iff]
    simp

end Http

namespace Emulator

variable {ε : Type} {engine : Engine (World ε)} {c : Configuration} {contents : Option Bytes}
  {world : World ε}

theorem exists_of_seeded_eq_error {env : Environment (World ε)} {path : String}
    {st : Service.State Store (World ε)} {e : Stop StartError}
    (h : seeded env path contents st = .error e) :
    ∃ cause ctx, ∃ st₁ st₂ : Service.State Store (World ε), e = cause.map .seed ∧
      Seed.applyFile env ctx path contents st₁ = .error cause st₂ := by
  delta seeded at h
  dsimp only at h
  split at h
  · contradiction
  · next cause st₂ hs =>
    cases h
    exact ⟨cause, _, _, st₂, rfl, hs⟩

theorem start_cases (h : c.fault? = none) :
    (∃ cause : Stop Seed.FileError,
      start engine c contents world = .error (cause.map .seed) ∧
        ∀ path, cause ≠ .failed (.foreign path)) ∨
      ∃ e, start engine c contents world = .ok e ∧ c.socketAddress? = some e.address ∧
        e.env = World.environment engine ∧ e.server.timeout = c.requestMillis := by
  have hu := Configuration.usable_of_fault?_eq_none h
  obtain ⟨address, ha⟩ := hu.address
  obtain ⟨kind, hk⟩ := hu.store
  delta start
  simp only [h, ha, hk]
  cases hp : c.seedFile with
  | none => exact .inr ⟨_, rfl, rfl, rfl, rfl⟩
  | some path =>
    dsimp only
    cases hs : seeded (World.environment engine) path contents ⟨emptyStore kind, world⟩ with
    | ok st => exact .inr ⟨_, rfl, rfl, rfl, rfl⟩
    | error e =>
      obtain ⟨cause, ctx, st₁, st₂, rfl, hf⟩ := exists_of_seeded_eq_error hs
      refine .inl ⟨cause, rfl, ?_⟩
      rintro path' rfl
      exact hu.seedFile _ ctx path contents path' st₁ st₂ hp hf

variable (engine contents world) in
/-- An emulator that is configured without a fault starts, unless it cannot be seeded. A request
that is taken in then gets no answer exactly if it asks for an operation, and its deadline cannot
be represented or a version number overflows. -/
theorem runs_without_fault (h : c.fault? = none) : c.Usable ∧
    (∀ (root : Context) (w : World ε),
      (w.requestContext? root c.requestMillis).isSome ↔ c.DeadlineFits w.now) ∧
    ((∃ cause : Stop Seed.FileError,
      start engine c contents world = .error (cause.map .seed) ∧
        ∀ path, cause ≠ .failed (.foreign path)) ∨
      ∃ e, start engine c contents world = .ok e ∧ c.socketAddress? = some e.address ∧
        ∀ request (st : Service.State Store (World ε)),
          (e.server.receive e.env request st).1 = none ↔
            Http.exceedsLimit request = false ∧
              ∃ op, Http.interpret request = .ok (.perform op) ∧
                (¬ c.DeadlineFits st.world.now ∨ e.server.Overflows e.env op st)) := by
  refine ⟨Configuration.usable_of_fault?_eq_none h, World.isSome_requestContext?_iff, ?_⟩
  rcases start_cases h with hseed | ⟨e, hs, ha, he, ht⟩
  · exact .inl hseed
  · refine .inr ⟨e, hs, ha, fun request st => ?_⟩
    rw [Http.receive_eq_none_iff, ← World.isSome_requestContext?_iff e.server.root, he, ht,
      Bool.not_eq_true, Option.isSome_eq_false_iff, Option.isNone_iff_eq_none]
    rfl

end Emulator

end KeyManagement

namespace KeyManagement.Sample

/-- Names in capital letters, and the longest timeout that fits into an instant. -/
def capitals : Configuration where
  seedFile := some "seeds.d/KEYS.YML"
  logFormat := "JSON"
  requestTimeout := some 0x7fffffffffffffff

theorem sample_runs : capitals.fault? = none ∧ capitals.Usable ∧
    ∃ e, Emulator.start Engine.random capitals (some (Bytes.ofText "projects: {}")) world = .ok e ∧
      ∀ request (st : Service.State Store (World Generator)),
        (e.server.receive e.env request st).1 = none ↔
          Http.exceedsLimit request = false ∧
            ∃ op, Http.interpret request = .ok (.perform op) ∧
              (¬ capitals.DeadlineFits st.world.now ∨ e.server.Overflows e.env op st) := by
  have h : capitals.fault? = none := by decide +kernel
  have hstarts : (Emulator.start Engine.random capitals (some (Bytes.ofText "projects: {}"))
      world).toBool = true := by decide +kernel
  obtain ⟨hu, -, ⟨cause, hs, -⟩ | ⟨e, hs, -, hr⟩⟩ :=
    Emulator.runs_without_fault Engine.random _ world h
  · rw [hs] at hstarts
    contradiction
  · exact ⟨h, hu, e, hs, hr⟩

/-- The longest timeout, and all other settings as they are by default. -/
def endless : Configuration where
  requestTimeout := some 0xffffffffffffffff

theorem endless_timeout_overflows : endless.fault? = none ∧
    ∀ (root : Context) (w : World Generator),
      w.requestContext? root endless.requestMillis = none := by
  refine ⟨by decide +kernel, fun root w => ?_⟩
  have hfits : ¬ endless.DeadlineFits w.now := by
    intro h
    have hlt := h _ rfl
    have hn : (0xffffffffffffffff : UInt64).toNat = 2 ^ 64 - 1 := rfl
    omega
  rwa [← World.isSome_requestContext?_iff root, Bool.not_eq_true, Option.isSome_eq_false_iff,
    Option.isNone_iff_eq_none] at hfits

end KeyManagement.Sample
