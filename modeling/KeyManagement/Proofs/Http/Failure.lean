import KeyManagement.Proofs.Http.Answer
import KeyManagement.Proofs.Json.RoundTrip

/-! # How requests fail

A failing response is an error object with the code of its status as soon as something serves
the request. What is rejected before is answered by a text, in which no error object is found.
-/

namespace KeyManagement.Http

/-- The error object that failures are documented to have, with the code of the status. -/
def Response.Documented (response : Response) : Prop :=
  ∃ code message, response.status = statusOf code ∧
    Json.parse? (Bytes.ofText response.body.render) = some (.record [("error", .record [
      ("code", .integer response.status),
      ("message", .text message),
      ("status", .text code.name)])])

/-- Why a request on a known path is rejected before anything serves it, with the response. -/
inductive Rejected (request : Request) : Response → Prop
  | unknownMethod {route : Route}
      (hr : Route.match? (Target.parse request.target).path = some route)
      (h : Method.of? request.method = none) : Rejected request .methodNotAllowed
  | unserved {route : Route} {method : Method} {response : Response}
      (hr : Route.match? (Target.parse request.target).path = some route)
      (hm : Method.of? request.method = some method)
      (h : Unserved (Target.parse request.target).query method route response) :
      Rejected request response
  | tooLarge (h : exceedsLimit request = true) : Rejected request .bodyTooLarge

section Bodies

variable {b : UInt8} {text : Bytes} {r : Response}

theorem documented_ofStatus (s : Status) : (Response.ofStatus s).Documented := by
  refine ⟨s.code, s.message, rfl, Json.parse?_render (.record ?_)⟩
  rw [List.forall_mem_singleton]
  refine .record ?_
  simp only [List.forall_mem_cons]
  exact ⟨.integer _, .text _, .text _, nofun⟩

theorem parse?_of_head (hb : text.head? = some b) (h : Json.Lexer.start [] b = none) :
    Json.parse? text = none := by
  obtain ⟨rest, rfl⟩ := List.head?_eq_some_iff.mp hb
  have ht : Json.tokens? (b :: rest) = none := by
    rw [Json.tokens?, List.foldlM_cons]
    change ((Json.Lexer.start [] b).bind _).bind _ = _
    rw [h]
    rfl
  rw [Json.parse?, ht]
  rfl

theorem not_documented_of_parse? (h : Json.parse? (Bytes.ofText r.body.render) = none) :
    ¬ r.Documented := by
  rintro ⟨_, _, -, hp⟩
  rw [h] at hp
  contradiction

theorem not_documented_badRequest {opening : String} (rest : String)
    (hb : (Bytes.ofText opening).head? = some b) (h : Json.Lexer.start [] b = none) :
    ¬ (Response.badRequest (opening ++ rest)).Documented := by
  refine not_documented_of_parse? (parse?_of_head ?_ h)
  change (Bytes.ofText (opening ++ rest)).head? = some b
  rw [Bytes.ofText_append, List.head?_append, hb]
  rfl

theorem not_documented_undecodable (name : String) : ¬ (Response.undecodable name).Documented := by
  rw [Response.undecodable, String.append_assoc]
  exact not_documented_badRequest (b := 0x49) _ rfl rfl

theorem not_documented_duplicateField (name : String) :
    ¬ (Response.duplicateField name).Documented := by
  rw [Response.duplicateField, String.append_assoc]
  exact not_documented_badRequest (b := 0x46) _ rfl rfl

theorem not_documented_methodNotAllowed : ¬ Response.methodNotAllowed.Documented :=
  not_documented_of_parse? rfl

theorem not_documented_bodyTooLarge : ¬ Response.bodyTooLarge.Documented :=
  not_documented_of_parse? (parse?_of_head (b := 0x46) rfl rfl)

end Bodies

section Rejections

variable {request : Request} {r : Response}

theorem Rejected.undocumented (h : Rejected request r) : 400 ≤ r.status ∧ ¬ r.Documented := by
  cases h with
  | unknownMethod hr h => exact ⟨by decide, not_documented_methodNotAllowed⟩
  | unserved hr hm h =>
    refine ⟨h.le_status, ?_⟩
    cases h with
    | method h => exact not_documented_methodNotAllowed
    | parameter hs h => exact not_documented_undecodable _
    | field hd hf h => exact not_documented_duplicateField _
  | tooLarge h => exact ⟨by decide, not_documented_bodyTooLarge⟩

theorem served_of_readsBody (h : readsBody request = true) :
    ∃ route, Route.match? (Target.parse request.target).path = some route ∧
      Method.of? request.method = some .post ∧
      ∀ r, ¬ Unserved (Target.parse request.target).query .post route r := by
  delta readsBody at h
  dsimp only at h
  split at h
  · next n hm hr =>
    rw [Bool.and_eq_true] at h
    refine ⟨_, hr, hm, fun r hu => ?_⟩
    cases hu with
    | method hs => exact hs trivial
    | parameter hs hd =>
      rw [map_result_eq_error_iff.mp hd] at h
      exact absurd h.1 Bool.false_ne_true
    | field hd hf hrepeats =>
      cases hf
      rw [queryField_eq_error_iff.mpr ⟨hrepeats, rfl⟩] at h
      exact absurd h.2 Bool.false_ne_true
  · next n hm hr =>
    refine ⟨_, hr, hm, fun r hu => ?_⟩
    cases hu with
    | method hs => exact hs trivial
    | parameter hs hd =>
      rw [map_result_eq_error_iff.mp hd] at h
      exact absurd h Bool.false_ne_true
    | field hd hf hrepeats => nomatch hf
  · contradiction

theorem exceedsLimit_eq_false (h : ∀ route,
    Route.match? (Target.parse request.target).path = some route →
      Method.of? request.method = some .post →
      ∃ r, Unserved (Target.parse request.target).query .post route r) :
    exceedsLimit request = false := by
  have hb : readsBody request = false := by
    rw [← Bool.not_eq_true]
    intro hb
    obtain ⟨route, hr, hm, hs⟩ := served_of_readsBody hb
    obtain ⟨r, hu⟩ := h route hr hm
    exact hs r hu
  rw [exceedsLimit, hb, Bool.false_and]

theorem rejected_of_interpret (h : interpret request = .error r) :
    Rejected request r ∨ ∃ s, r = .ofStatus s := by
  delta interpret at h
  dsimp only at h
  split at h
  · cases h
    exact .inr ⟨_, rfl⟩
  · next route hr =>
    split at h
    · next hm =>
      cases h
      exact .inl (.unknownMethod hr hm)
    · next method hm =>
      rcases refuses_task _ _ _ _ r h with hu | hs
      · exact .inl (.unserved hr hm hu)
      · exact .inr hs

end Rejections

variable {S σ : Type} [KeyStore S] {env : Environment σ} {server : Server} {request : Request}
  {response r : Response} {st st' : Service.State S σ}

theorem finish_of_ne_head (hm : request.method ≠ "HEAD") (response : Response) :
    finish request response = response := by
  simp [finish, hm]

/-- An answer refuses the request, or it is the one to an operation or a health report. -/
theorem respond_cases (hm : request.method ≠ "HEAD")
    (h : server.respond env request st = (some response, st')) :
    (interpret request = .error response ∧ st' = st) ∨ (∃ value, response = .ok value) ∨
      ∃ s, response = .ofStatus s := by
  delta Server.respond at h
  simp only [finish_of_ne_head hm] at h
  split at h
  · next hi =>
    cases h
    exact .inl ⟨hi, rfl⟩
  · cases h
    exact .inr (.inl ⟨_, rfl⟩)
  · split at h
    · cases h
    · split at h
      · cases h
        exact .inr (.inl ⟨_, rfl⟩)
      · cases h
        exact .inr (.inr ⟨_, rfl⟩)
      · cases h

theorem respond_of_interpret (hm : request.method ≠ "HEAD")
    (h : interpret request = .error response) :
    server.respond env request st = (some response, st) := by
  delta Server.respond
  simp only [finish_of_ne_head hm, h]

theorem receive_of_rejected (hm : request.method ≠ "HEAD") (h : Rejected request r) :
    server.receive env request st = (some r, st) := by
  cases h with
  | tooLarge h => rw [Server.receive, if_pos h]
  | unknownMethod hr h =>
    have hlimit : exceedsLimit request = false := by
      refine exceedsLimit_eq_false fun _ _ hpost => ?_
      cases h.symm.trans hpost
    rw [Server.receive, hlimit]
    refine respond_of_interpret hm ?_
    delta interpret
    simp only [hr, h]
  | unserved hr hmethod h =>
    have hlimit : exceedsLimit request = false := by
      refine exceedsLimit_eq_false fun _ hr' hpost => ?_
      obtain rfl := Option.some.inj (hr.symm.trans hr')
      obtain rfl := Option.some.inj (hmethod.symm.trans hpost)
      exact ⟨r, h⟩
    rw [Server.receive, hlimit]
    refine respond_of_interpret hm ?_
    delta interpret
    simp only [hr, hmethod]
    exact task_of_unserved h

/-- A request that gets an answer either succeeds with status 200, or fails with a status from
400 on. Its failure is the documented error object unless the request is rejected before anything
serves it, for its method, a parameter, its query or the length of its body; a rejection leaves
the state as it was. -/
theorem failure_documented_iff (hm : request.method ≠ "HEAD")
    (h : server.receive env request st = (some response, st')) :
    (response.status = 200 ∨ 400 ≤ response.status) ∧
    (400 ≤ response.status → (response.Documented ↔ ¬ ∃ r, Rejected request r)) ∧
    ∀ r, Rejected request r → response = r ∧ 400 ≤ r.status ∧ ¬ r.Documented ∧ st' = st := by
  have hrejected : ∀ r, Rejected request r → response = r ∧ st' = st := by
    intro r hr
    rw [receive_of_rejected hm hr] at h
    cases h
    exact ⟨rfl, rfl⟩
  have hcases : (∃ r, Rejected request r) ∨ (∃ value, response = .ok value) ∨
      ∃ s, response = .ofStatus s := by
    unfold Server.receive at h
    split at h
    · next hlimit => exact .inl ⟨_, .tooLarge hlimit⟩
    · rcases respond_cases hm h with ⟨hi, -⟩ | hrest
      · exact (rejected_of_interpret hi).imp (fun hr => ⟨_, hr⟩) .inr
      · exact .inr hrest
  refine ⟨?_, fun hfails => ⟨?_, fun hn => ?_⟩, fun r hr => ?_⟩
  · rcases hcases with ⟨r, hr⟩ | ⟨value, rfl⟩ | ⟨s, rfl⟩
    · obtain ⟨rfl, -⟩ := hrejected r hr
      exact .inr hr.undocumented.1
    · exact .inl rfl
    · exact .inr (le_statusOf s.code)
  · rintro hd ⟨r, hr⟩
    obtain ⟨rfl, -⟩ := hrejected r hr
    exact hr.undocumented.2 hd
  · rcases hcases with hr | ⟨value, rfl⟩ | ⟨s, rfl⟩
    · exact absurd hr hn
    · exact absurd hfails (show ¬ 400 ≤ 200 by decide)
    · exact documented_ofStatus s
  · obtain ⟨rfl, rfl⟩ := hrejected r hr
    exact ⟨rfl, hr.undocumented.1, hr.undocumented.2, rfl⟩

end KeyManagement.Http

namespace KeyManagement.Sample

open Http

def stray : Request := { target := "/v2/projects" }

/-- A path that no route has is answered with an error object. -/
theorem sample_failure_documented : ∃ response st',
    server.receive env stray created = (some response, st') ∧ response.status = 404 ∧
      response.Documented := by
  have hroute : Route.match? (Target.parse stray.target).path = none := by decide +kernel
  have hn : ¬ ∃ r, Rejected stray r := by
    rintro ⟨_, ⟨hr, -⟩ | ⟨hr, -, -⟩ | hlimit⟩
    · nomatch hroute.symm.trans hr
    · nomatch hroute.symm.trans hr
    · contradiction
  have h : server.receive env stray created =
      (some (.ofStatus Refusal.unknownPath.status), created) := rfl
  exact ⟨_, _, h, rfl,
    ((failure_documented_iff (by decide) h).2.1 (by decide)).mpr hn⟩

/-- A listing that asks for two pages at once. -/
def twoPages : Request :=
  { target := "/v1/projects/p/locations/l/keyRings?pageToken=a&pageToken=b" }

theorem two_pages_undocumented : ∃ response,
    server.receive env twoPages created = (some response, created) ∧ response.status = 400 ∧
      ¬ response.Documented := by
  have hroute : Route.match? (Target.parse twoPages.target).path =
      some (.keyRings ⟨"p", "l"⟩) := by decide +kernel
  have hrepeats : Repeats (Target.parse twoPages.target).query "pageToken" := by
    unfold Repeats
    decide +kernel
  have hm : Method.of? twoPages.method = some .get := rfl
  have hr : Rejected twoPages (.duplicateField "pageToken") :=
    .unserved hroute hm (.field rfl rfl hrepeats)
  exact ⟨_, receive_of_rejected (by decide) hr, rfl, hr.undocumented.2⟩

end KeyManagement.Sample
