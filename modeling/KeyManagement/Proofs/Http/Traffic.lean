import KeyManagement.Proofs.Http.Answer

/-! # Traffic

A server is called again and again, and the world may change in any way between two requests.
Whatever the requests are, what the server does to its state is a history of the service.
-/

namespace KeyManagement.Http

variable {σ : Type} {env : Environment σ} {server : Server}

/-- A request that is sent to a server, or a change of the world. -/
inductive Turn (σ : Type)
  | serve (request : Request)
  | elapse (w : σ)

variable (env server) in
def Turn.apply (st : Service.State Store σ) : Turn σ → Service.State Store σ
  | .serve request => (server.receive env request st).2
  | .elapse w => { st with world := w }

/-- The state that a server comes to. -/
def Server.after (server : Server) (env : Environment σ) (st : Service.State Store σ)
    (turns : List (Turn σ)) : Service.State Store σ :=
  turns.foldl (Turn.apply env server) st

variable (env server) in
theorem exists_history_of_respond (request : Request) (st : Service.State Store σ) :
    ∃ history, (server.respond env request st).2 = Service.run env st history := by
  delta Server.respond
  split
  · exact ⟨[], rfl⟩
  · exact ⟨[], rfl⟩
  · next op _ =>
    split
    · exact ⟨[], rfl⟩
    · next ctx world _ =>
      refine ⟨[.elapse world, .perform ctx op], ?_⟩
      change _ = finalState (Service.perform env ctx op ⟨st.store, world⟩)
      split <;> next hp => rw [hp]; rfl

variable (env server) in
theorem exists_history_of_apply (st : Service.State Store σ) (turn : Turn σ) :
    ∃ history, turn.apply env server st = Service.run env st history := by
  cases turn with
  | elapse w => exact ⟨[.elapse w], rfl⟩
  | serve request =>
    rw [Turn.apply]
    cases h : exceedsLimit request with
    | true =>
      rw [receive_of_exceeding h]
      exact ⟨[], rfl⟩
    | false =>
      rw [receive_of_within h]
      exact exists_history_of_respond env server request st

variable (env server) in
/-- All that holds after histories of the service holds of a server that is called. -/
theorem exists_history_of_after (st : Service.State Store σ) (turns : List (Turn σ)) :
    ∃ history, server.after env st turns = Service.run env st history := by
  induction turns generalizing st with
  | nil => exact ⟨[], rfl⟩
  | cons turn turns ih =>
    obtain ⟨first, hf⟩ := exists_history_of_apply env server st turn
    obtain ⟨rest, hr⟩ := ih (turn.apply env server st)
    refine ⟨first ++ rest, ?_⟩
    rw [Service.run, List.foldl_append]
    change _ = Service.run env (Service.run env st first) rest
    rw [← hf]
    exact hr

theorem wellFormed_after (st : Service.State Store σ) (turns : List (Turn σ))
    (h : st.store.WellFormed) : (server.after env st turns).store.WellFormed := by
  obtain ⟨history, hh⟩ := exists_history_of_after env server st turns
  rw [hh]
  exact Service.wellFormed_run env h history

theorem grows_after (st : Service.State Store σ) (turns : List (Turn σ)) :
    st.store.Grows (server.after env st turns).store := by
  obtain ⟨history, hh⟩ := exists_history_of_after env server st turns
  rw [hh]
  exact Service.grows_run env st history

end KeyManagement.Http
