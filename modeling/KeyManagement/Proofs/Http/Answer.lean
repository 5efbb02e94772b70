import KeyManagement.Http.Intake
import KeyManagement.Proofs.Http.Refusal

/-! # How requests are answered

Status 200 tells that an operation succeeded, and which one it was can be read off the path: no
request reaches a resource other than the one that its decoded path spells.
-/

namespace KeyManagement.Http

theorem statusOf_ne_200 (c : Code) : statusOf c ≠ 200 := by
  have h := le_statusOf c
  omega

def Method.name : Method → String
  | .get => "GET"
  | .post => "POST"

variable {σ : Type} {env : Environment σ} {server : Server} {request : Request}
  {response : Response} {st st' : Service.State Store σ} {method : Method} {route : Route}
  {op : Operation}

theorem finish_eq (h : request.method = method.name) (response : Response) :
    finish request response = response := by
  cases method <;> simp [finish, h, Method.name]

theorem interpret_eq (hm : request.method = method.name)
    (hr : Route.match? (Target.parse request.target).path = some route) :
    interpret request = task (Target.parse request.target).query request.body method route := by
  have hof : Method.of? request.method = some method := by
    rw [hm]
    cases method <;> rfl
  delta interpret
  simp only [hr, hof]

/-- An operation runs under a context of its own, and its outcome is the response. -/
theorem respond_eq_some_iff (hm : request.method = method.name)
    (hi : interpret request = .ok (.perform op)) :
    server.respond env request st = (some response, st') ↔ ∃ ctx world,
      env.requestContext? server.root server.timeout st.world = some (ctx, world) ∧
      ((∃ r, Service.perform env ctx op ⟨st.store, world⟩ = .ok r st' ∧
          response = .ok (responseJson r)) ∨
        ∃ e, Service.perform env ctx op ⟨st.store, world⟩ = .error (.failed e) st' ∧
          response = .ofStatus e.status) := by
  delta Server.respond
  simp only [hi, finish_eq hm]
  constructor
  · intro h
    split at h
    · cases h
    · next ctx world hc =>
      refine ⟨ctx, world, hc, ?_⟩
      split at h
      · next r u hp =>
        cases h
        exact .inl ⟨r, hp, rfl⟩
      · next e u hp =>
        cases h
        exact .inr ⟨e, hp, rfl⟩
      · cases h
  · rintro ⟨ctx, world, hc, ⟨r, hp, rfl⟩ | ⟨e, hp, rfl⟩⟩
    · simp only [hc, hp]
    · simp only [hc, hp]

theorem store_of_respond_eq_none (hi : interpret request = .ok (.perform op))
    (h : server.respond env request st = (none, st')) : st'.store = st.store := by
  delta Server.respond at h
  simp only [hi] at h
  split at h
  · cases h
    rfl
  · next ctx world hc =>
    split at h
    · cases h
    · cases h
    · next u hp =>
      cases h
      have hs := Service.store_of_perform_error hp
      exact hs

theorem respond_of_refused (hm : request.method = method.name)
    (hi : interpret request = .error response) :
    server.respond env request st = (some response, st) := by
  delta Server.respond
  simp only [hi, finish_eq hm]

theorem receive_of_within (h : exceedsLimit request = false) :
    server.receive env request st = server.respond env request st := by
  rw [Server.receive, h]
  rfl

theorem receive_of_exceeding (h : exceedsLimit request = true) :
    server.receive env request st = (some .bodyTooLarge, st) :=
  if_pos h

theorem exceedsLimit_of_le (h : request.body.length ≤ bodyLimit) :
    exceedsLimit request = false := by
  simp [exceedsLimit, h]

theorem exists_operation_of_task {query : String} {body : Bytes} {t : Task}
    (hr : route ≠ .health) (h : task query body method route = .ok t) :
    ∃ op, t = .perform op := by
  cases method with
  | get =>
    cases route with
    | health => contradiction
    | keyRing n | cryptoKey n | version n =>
      obtain ⟨_, -, ⟨⟩⟩ := result_bind_eq_ok_iff.mp h
      exact ⟨_, rfl⟩
    | keyRings n | cryptoKeys n | versions n =>
      obtain ⟨_, -, h⟩ := result_bind_eq_ok_iff.mp h
      obtain ⟨_, -, ⟨⟩⟩ := result_bind_eq_ok_iff.mp h
      exact ⟨_, rfl⟩
  | post =>
    cases route with
    | health => contradiction
    | keyRing n | version n => nomatch h
    | keyRings n | cryptoKey n =>
      obtain ⟨_, -, h⟩ := result_bind_eq_ok_iff.mp h
      obtain ⟨_, -, ⟨⟩⟩ := result_bind_eq_ok_iff.mp h
      exact ⟨_, rfl⟩
    | cryptoKeys n =>
      obtain ⟨_, -, h⟩ := result_bind_eq_ok_iff.mp h
      obtain ⟨_, -, h⟩ := result_bind_eq_ok_iff.mp h
      obtain ⟨_, -, ⟨⟩⟩ := result_bind_eq_ok_iff.mp h
      exact ⟨_, rfl⟩
    | versions n =>
      obtain ⟨_, -, ⟨⟩⟩ := result_bind_eq_ok_iff.mp h
      exact ⟨_, rfl⟩

/-- A request to a route other than that of the health report is refused, or comes to one
operation. -/
theorem refused_or_performed (hm : request.method = method.name)
    (hroute : Route.match? (Target.parse request.target).path = some route)
    (hr : route ≠ .health) :
    (∃ refusal, interpret request = .error refusal ∧ refusal.status ≠ 200) ∨
      ∃ op, interpret request = .ok (.perform op) ∧
        task (Target.parse request.target).query request.body method route =
          .ok (.perform op) := by
  rw [interpret_eq hm hroute]
  cases ht : task (Target.parse request.target).query request.body method route with
  | error refusal =>
    have hs : 400 ≤ refusal.status := le_status_of_task ht
    exact .inl ⟨refusal, rfl, by omega⟩
  | ok t =>
    obtain ⟨op, rfl⟩ := exists_operation_of_task hr ht
    exact .inr ⟨op, rfl, rfl⟩

theorem store_of_status_ne_200 (hm : request.method = method.name)
    (hroute : Route.match? (Target.parse request.target).path = some route)
    (hr : route ≠ .health) {answer : Option Response}
    (h : server.respond env request st = (answer, st'))
    (hstatus : ∀ response ∈ answer, response.status ≠ 200) : st'.store = st.store := by
  rcases refused_or_performed hm hroute hr with ⟨refusal, hi, -⟩ | ⟨op, hi, -⟩
  · rw [respond_of_refused hm hi] at h
    cases h
    rfl
  · cases answer with
    | none => exact store_of_respond_eq_none hi h
    | some response =>
      obtain ⟨ctx, world, -, ⟨r, -, rfl⟩ | ⟨e, hp, -⟩⟩ := (respond_eq_some_iff hm hi).mp h
      · exact absurd rfl (hstatus _ rfl)
      · have hs := Service.store_of_perform_error hp
        exact hs

/-- A request is answered with status 200 exactly if its body is within the limit, it asks for
an operation on the resource that its decoded path spells, and the operation succeeds; the
answer and the store are those of the operation. With any other status, and without an answer,
the store is as it was. -/
theorem served_as_spelled (hst : Service.Reachable env st) (hm : request.method = method.name)
    (hroute : Route.match? (Target.parse request.target).path = some route)
    (hr : route ≠ .health) :
    (∀ response st', (server.receive env request st = (some response, st') ∧
        response.status = 200) ↔
      exceedsLimit request = false ∧ ∃ decoded op ctx world r, route.decode = .ok decoded ∧
        Asks (Target.parse request.target).query request.body method decoded op ∧
        env.requestContext? server.root server.timeout st.world = some (ctx, world) ∧
        Service.perform env ctx op ⟨st.store, world⟩ = .ok r st' ∧
        response = .ok (responseJson r)) ∧
    (∀ answer st', server.receive env request st = (answer, st') →
      (∀ response ∈ answer, response.status ≠ 200) → st'.store = st.store) := by
  cases hlimit : exceedsLimit request with
  | true =>
    rw [receive_of_exceeding hlimit]
    refine ⟨fun response st' => ⟨?_, ?_⟩, ?_⟩
    · rintro ⟨⟨⟩, hstatus⟩
      contradiction
    · rintro ⟨⟨⟩, -⟩
    · rintro answer st' ⟨⟩ -
      rfl
  | false =>
    rw [receive_of_within hlimit]
    refine ⟨fun response st' => ⟨?_, ?_⟩,
      fun answer st' h hstatus => store_of_status_ne_200 hm hroute hr h hstatus⟩
    · rintro ⟨h, hstatus⟩
      rcases refused_or_performed hm hroute hr with ⟨refusal, hi, hne⟩ | ⟨op, hi, ht⟩
      · rw [respond_of_refused hm hi] at h
        cases h
        exact absurd hstatus hne
      · obtain ⟨ctx, world, hc, ⟨r, hp, rfl⟩ | ⟨e, -, rfl⟩⟩ := (respond_eq_some_iff hm hi).mp h
        · have hop := Service.wellNamed_of_perform hp hst.wellFormed
          obtain ⟨decoded, hd, ha⟩ := asks_of_task ht hop
          exact ⟨rfl, decoded, op, ctx, world, r, hd, ha, hc, hp, rfl⟩
        · exact absurd hstatus (statusOf_ne_200 _)
    · rintro ⟨-, decoded, op, ctx, world, r, hd, ha, hc, hp, rfl⟩
      have hi := (interpret_eq hm hroute).trans (task_of_asks hd ha)
      exact ⟨(respond_eq_some_iff hm hi).mpr ⟨ctx, world, hc, .inl ⟨r, hp, rfl⟩⟩, rfl⟩

end KeyManagement.Http

namespace KeyManagement.Sample

open Http Service

def server : Server := { root := ctx }

def secondKey : CryptoKeyName := ⟨⟨⟨"p", "l"⟩, "r"⟩, "k2"⟩

/-- A read of a crypto key whose identifier is spelled with an escape. -/
def escapedRead : Request :=
  { target := "/v1/projects/p/locations/l/keyRings/r/cryptoKeys/%6B2" }

theorem exists_requestContext : ∃ request w,
    env.requestContext? server.root server.timeout created.world = some (request, w) ∧
      env.check request w = .ok () w :=
  ⟨_, _, rfl, rfl⟩

theorem sample_served : ∃ response st',
    server.receive env escapedRead created = (some response, st') ∧ response.status = 200 := by
  have hm : escapedRead.method = Method.get.name := rfl
  have hroute : Route.match? (Target.parse escapedRead.target).path =
      some (.cryptoKey ⟨⟨⟨"p", "l"⟩, "r"⟩, "%6B2"⟩) := by decide +kernel
  have hn : secondKey.Valid := ⟨⟨⟨rfl, rfl⟩, rfl⟩, rfl⟩
  have hid : "k2" = "k" ∨ "k2" = "k2" := .inr rfl
  obtain ⟨record, hf⟩ := exists_findKey?_created hid
  obtain ⟨request, w, hc, hv⟩ := exists_requestContext
  have hp : perform env request (.getCryptoKey secondKey.resourceName) ⟨created.store, w⟩ =
      .ok (.cryptoKey record.key) ⟨created.store, w⟩ :=
    map_eq_ok_iff.mpr ⟨record.key, getCryptoKey_eq_ok_iff.mpr
      ⟨w, hv, ⟨_, CryptoKeyName.parse_resourceName hn⟩,
        Store.getCryptoKey_eq_ok_iff.mpr ⟨record, hf, rfl⟩, rfl⟩, rfl⟩
  have hasks : Asks (Target.parse escapedRead.target).query escapedRead.body .get
      (.cryptoKey secondKey) (.getCryptoKey secondKey.resourceName) :=
    .getCryptoKey (ResourceName.grammatical_cryptoKey_iff.mpr hn)
  exact ⟨_, _, ((served_as_spelled reachable_created hm hroute nofun).1 _ _).mpr
    ⟨rfl, .cryptoKey secondKey, _, request, w, _, rfl, hasks, hc, hp, rfl⟩⟩

end KeyManagement.Sample
