import KeyManagement.Proofs.Http.Routing

/-! # What is refused

A method on a route is refused by a text if nothing serves it: because of the method, of a
parameter that is no text, or of a repeated query field. Whatever is refused later is refused by
a status.
-/

namespace KeyManagement.Http

def Response.undecodable (parameter : String) : Response :=
  .badRequest ("Invalid URL: Invalid UTF-8 in `" ++ parameter ++ "`")

def Response.duplicateField (field : String) : Response :=
  .badRequest ("Failed to deserialize query string: duplicate field `" ++ field ++ "`")

namespace Route

/-- The methods that a route serves. -/
def Serves : Route → Method → Prop
  | .health, method | .keyRing _, method | .version _, method => method = .get
  | .keyRings _, _ | .cryptoKeys _, _ | .cryptoKey _, _ | .versions _, _ => True

/-- The query field that a method reads on a route. -/
def field? : Route → Method → Option String
  | .keyRings _, .get | .cryptoKeys _, .get | .versions _, .get => some "pageToken"
  | .keyRings _, .post => some "keyRingId"
  | .cryptoKeys _, .post => some "cryptoKeyId"
  | _, _ => none

end Route

def Repeats (query field : String) : Prop :=
  1 < (Percent.decodeQuery query).countP fun p => p.1 == field

/-- Why nothing serves a method on a route, whatever the body, with the response. -/
inductive Unserved (query : String) (method : Method) (route : Route) : Response → Prop
  | method (h : ¬ route.Serves method) : Unserved query method route .methodNotAllowed
  | parameter {name : String} (hs : route.Serves method) (h : route.decode = .error name) :
      Unserved query method route (.undecodable name)
  | field {decoded : Route} {name : String} (hd : route.decode = .ok decoded)
      (hf : route.field? method = some name) (h : Repeats query name) :
      Unserved query method route (.duplicateField name)

variable {query name : String} {body : Bytes} {method : Method} {route : Route} {r : Response}
  {α β γ : Type}

theorem queryField_eq_error_iff :
    queryField query name = .error r ↔ Repeats query name ∧ r = .duplicateField name := by
  unfold queryField Repeats
  rw [List.countP_eq_length_filter]
  split
  · next h => simp [h]
  · next h => simp [h]
  · next hnil hone =>
    have hlength : 1 < ((Percent.decodeQuery query).filter fun p => p.1 == name).length := by
      cases hl : (Percent.decodeQuery query).filter fun p => p.1 == name with
      | nil => exact absurd hl hnil
      | cons p l =>
        cases l with
        | nil => exact absurd hl (hone p)
        | cons q l => simp
    simp only [hlength, true_and, Except.error.injEq, eq_comm (a := r)]
    rfl

section Unserved

variable {x : Except Route.Undecodable α} {g : α → β}

theorem error_of_undecodable {f : α → Except Response γ} (h : x.map g = .error name) :
    (named x >>= f) = .error (.undecodable name) := by
  rw [map_result_eq_error_iff.mp h]
  rfl

theorem error_of_repeated {f : α → String → Except Response γ} {b : β} (h : x.map g = .ok b)
    (hr : Repeats query name) :
    (named x >>= fun a => queryField query name >>= f a) = .error (.duplicateField name) := by
  obtain ⟨a, rfl, -⟩ := map_result_eq_ok_iff.mp h
  refine result_bind_eq_error_iff.mpr (.inr ⟨a, rfl, result_bind_eq_error_iff.mpr (.inl ?_)⟩)
  exact queryField_eq_error_iff.mpr ⟨hr, rfl⟩

theorem task_of_unserved (h : Unserved query method route r) :
    task query body method route = .error r := by
  cases h with
  | method h =>
    cases method with
    | get => cases route <;> simp [Route.Serves] at h
    | post =>
      cases route with
      | health | keyRing n | version n => rfl
      | keyRings n | cryptoKeys n | cryptoKey n | versions n => exact absurd trivial h
  | parameter hs h =>
    cases method with
    | get =>
      cases route with
      | health => nomatch h
      | keyRings n | keyRing n | cryptoKeys n | cryptoKey n | versions n | version n =>
        exact error_of_undecodable h
    | post =>
      cases route with
      | health | keyRing n | version n => nomatch hs
      | keyRings n | cryptoKeys n | cryptoKey n | versions n => exact error_of_undecodable h
  | field hd hf h =>
    cases method with
    | get =>
      cases route with
      | health | keyRing n | cryptoKey n | version n => nomatch hf
      | keyRings n | cryptoKeys n | versions n =>
        cases hf
        exact error_of_repeated hd h
    | post =>
      cases route with
      | health | keyRing n | cryptoKey n | versions n | version n => nomatch hf
      | keyRings n | cryptoKeys n =>
        cases hf
        exact error_of_repeated hd h

end Unserved

section Served

/-- Whatever is refused is refused by a status, or for one of the given reasons. -/
def Refuses (reason : Response → Prop) (x : Except Response α) : Prop :=
  ∀ r, x = .error r → reason r ∨ ∃ s, r = .ofStatus s

variable {reason : Response → Prop} {x : Except Response α} {f : α → Except Response β}

theorem refuses_ok (a : α) : Refuses reason (.ok a) := nofun

theorem refuses_ofStatus (s : Status) :
    Refuses reason (.error (.ofStatus s) : Except Response α) := by
  rintro _ ⟨⟩
  exact .inr ⟨s, rfl⟩

theorem refuses_bind (hx : Refuses reason x) (hf : ∀ a, x = .ok a → Refuses reason (f a)) :
    Refuses reason (x >>= f) := by
  intro r h
  rcases result_bind_eq_error_iff.mp h with h | ⟨a, ha, h⟩
  · exact hx r h
  · exact hf a ha r h

theorem refuses_decodeBody (read : Json → Option α) (body : Bytes) :
    Refuses reason (decodeBody read body) := by
  unfold decodeBody
  split
  · exact refuses_ok _
  · exact refuses_ofStatus _

theorem refuses_keyMethod (n : CryptoKeyName) (body : Bytes) :
    Refuses reason (keyMethod n body) := by
  unfold keyMethod
  split
  · exact refuses_ofStatus _
  · dsimp only
    split
    · exact refuses_bind (refuses_decodeBody _ _) fun _ _ => refuses_ok _
    · split
      · exact refuses_bind (refuses_decodeBody _ _) fun _ _ => refuses_ok _
      · split
        · exact refuses_bind (refuses_decodeBody _ _) fun _ _ => refuses_ok _
        · exact refuses_ofStatus _

theorem refuses_named {x : Except Route.Undecodable α} {g : α → Route}
    (hd : route.decode = x.map g) (hs : route.Serves method) :
    Refuses (Unserved query method route) (named x) := by
  rintro r h
  cases x with
  | ok n => contradiction
  | error name =>
    cases h
    exact .inl (.parameter hs hd)

theorem refuses_queryField {x : Except Route.Undecodable α} {g : α → Route} {a : α}
    (hd : route.decode = x.map g) (ha : named x = .ok a)
    (hf : route.field? method = some name) :
    Refuses (Unserved query method route) (queryField query name) := by
  intro r h
  obtain ⟨hr, rfl⟩ := queryField_eq_error_iff.mp h
  exact .inl (.field (hd.trans (map_of_named g ha)) hf hr)

theorem refuses_task (query : String) (body : Bytes) (method : Method) (route : Route) :
    Refuses (Unserved query method route) (task query body method route) := by
  cases method with
  | get =>
    cases route with
    | health => exact refuses_ok _
    | keyRing n | cryptoKey n | version n =>
      exact refuses_bind (refuses_named rfl (by trivial)) fun _ _ => refuses_ok _
    | keyRings n | cryptoKeys n | versions n =>
      exact refuses_bind (refuses_named rfl (by trivial)) fun _ hn =>
        refuses_bind (refuses_queryField rfl hn rfl) fun _ _ => refuses_ok _
  | post =>
    cases route with
    | health | keyRing n | version n =>
      rintro _ ⟨⟩
      exact .inl (.method nofun)
    | keyRings n =>
      exact refuses_bind (refuses_named rfl trivial) fun _ hn =>
        refuses_bind (refuses_queryField rfl hn rfl) fun _ _ => refuses_ok _
    | cryptoKeys n =>
      exact refuses_bind (refuses_named rfl trivial) fun _ hn =>
        refuses_bind (refuses_queryField rfl hn rfl) fun _ _ =>
          refuses_bind (refuses_decodeBody _ _) fun _ _ => refuses_ok _
    | cryptoKey n =>
      exact refuses_bind (refuses_named rfl trivial) fun _ _ =>
        refuses_bind (refuses_keyMethod _ _) fun _ _ => refuses_ok _
    | versions n => exact refuses_bind (refuses_named rfl trivial) fun _ _ => refuses_ok _

end Served

theorem le_statusOf (c : Code) : 400 ≤ statusOf c := by
  cases c <;> decide

theorem Unserved.le_status (h : Unserved query method route r) : 400 ≤ r.status := by
  cases h with
  | method h => exact (by decide : 400 ≤ 405)
  | parameter hs h => exact Nat.le_refl 400
  | field hd hf h => exact Nat.le_refl 400

theorem le_status_of_task (h : task query body method route = .error r) : 400 ≤ r.status := by
  rcases refuses_task query body method route r h with hu | ⟨s, rfl⟩
  · exact hu.le_status
  · exact le_statusOf s.code

end KeyManagement.Http
