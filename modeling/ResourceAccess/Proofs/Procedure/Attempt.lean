import ResourceAccess.CommandLine.Run
import ResourceAccess.Proofs.Procedure.Atomic
import ResourceAccess.Proofs.Store.Effect

/-!
# Operations under a time limit

An operation that has a time limit is done in time, or its limit runs out while a statement is under way.  The second
thing happens on a free connection only, and is reported as a timeout.  Then nothing has happened to the tables, or all
that the operation does to them.

* `Engine.attempt_cases`: **what an engine does under a time limit**
* `Pace.run_of_answer`, `Pace.run_error`: what it answers, and what an error leaves, on a store of its own
-/

namespace ResourceAccess

variable {now : Stamp} {op : Operation}

namespace Engine

variable {e : Engine}

/-- What an engine makes of a reply. -/
def answering (e : Engine) (reply : Reply) : Except AccessError Answer × Engine := (reply.1, { e with store := reply.2 })

theorem attempt_eq_of_free (hfault : op.fault? = none) (hfree : e.connection = .free) (expiry : Option Expiry)
    (now : Stamp) : e.attempt expiry now op =
      e.answering ((op.procedure now).run (do return ⟨← e.patience op, ← expiry⟩) ⟨e.store, none⟩) := by
  rw [attempt, hfault, refusal_eq_none_iff.mpr hfree]
  rfl

/-- An operation is done in time, or its limit runs out, and then nothing is done, or all of it if the statement that was
under way landed. -/
theorem attempt_cases (expiry : Option Expiry) (now : Stamp) (op : Operation) (e : Engine) :
    e.attempt expiry now op = e.run now op ∨
    ∃ limit, e.connection = .free ∧ e.patience op = some limit ∧
      (e.attempt expiry now op = (.error (.timeout limit), e) ∨
        expiry.any (·.landed) = true ∧ e.attempt expiry now op = (.error (.timeout limit), (e.run now op).2)) := by
  cases hfault : op.fault? with
  | some fault =>
    refine Or.inl ?_
    rw [run, attempt, attempt, hfault]
  | none =>
    by_cases hfree : e.connection = .free
    · rw [run, attempt_eq_of_free hfault hfree, attempt_eq_of_free hfault hfree]
      cases hlimit : e.patience op with
      | none => exact Or.inl rfl
      | some limit =>
        cases expiry with
        | none => exact Or.inl rfl
        | some expiry =>
          have hinterrupted := (op.procedure_atomic now).run_interrupted limit expiry e.store
          show e.answering ((op.procedure now).run (some ⟨limit, expiry⟩) _) = e.answering ((op.procedure now).run none _) ∨
            ∃ limit', _ ∧ _ ∧ (e.answering ((op.procedure now).run (some ⟨limit, expiry⟩) _) = _ ∨
              _ ∧ e.answering ((op.procedure now).run (some ⟨limit, expiry⟩) _) =
                (_, (e.answering ((op.procedure now).run none _)).2))
          generalize (op.procedure now).run none ⟨e.store, none⟩ = whole at hinterrupted ⊢
          generalize (op.procedure now).run (some ⟨limit, expiry⟩) ⟨e.store, none⟩ = reply at hinterrupted ⊢
          cases hinterrupted with
          | inTime => exact Or.inl rfl
          | undone => exact Or.inr ⟨limit, hfree, rfl, Or.inl rfl⟩
          | done hlanded => exact Or.inr ⟨limit, hfree, rfl, Or.inr ⟨hlanded, rfl⟩⟩
    · cases hrefusal : e.refusal? op with
      | none => exact absurd (refusal_eq_none_iff.mp hrefusal) hfree
      | some error =>
        refine Or.inl ?_
        rw [run, attempt, attempt, hfault, hrefusal]

/-- An engine is left as the operation found it, or as the whole operation leaves it. -/
theorem attempt_snd (expiry : Option Expiry) (now : Stamp) (op : Operation) (e : Engine) :
    (e.attempt expiry now op).2 = e ∨ (e.attempt expiry now op).2 = (e.run now op).2 := by
  rcases e.attempt_cases expiry now op with hrun | ⟨limit, -, -, hundone | ⟨-, hdone⟩⟩
  · exact Or.inr (by rw [hrun])
  · exact Or.inl (by rw [hundone])
  · exact Or.inr (by rw [hdone])

theorem attempt_of_answer {expiry : Option Expiry} {answer : Answer} (h : (e.attempt expiry now op).1 = .ok answer) :
    e.attempt expiry now op = e.run now op := by
  rcases e.attempt_cases expiry now op with hrun | ⟨limit, -, -, hundone | ⟨-, hdone⟩⟩
  · exact hrun
  · rw [hundone] at h
    exact absurd h (by simp)
  · rw [hdone] at h
    exact absurd h (by simp)

theorem attempt_read_keeps (hread : op.isRead = true) (expiry : Option Expiry) :
    (e.attempt expiry now op).2 = e := by
  rcases e.attempt_snd expiry now op with hkept | hrun
  · exact hkept
  · rw [hrun, run_read_keeps hread]

end Engine

/-! ## At a pace -/

namespace Pace

variable {pace : Pace} {s : Store}

theorem run_of_attempt (h : ({ store := s, limit := pace.limit } : Engine).attempt (pace.expiry op) now op =
    ({ store := s, limit := pace.limit } : Engine).run now op) : pace.run now op s = op.run now s := by
  rw [run, h, Engine.run_eq_of_free rfl]

/-- An operation whose limit does not run out is done. -/
theorem run_in_time (h : pace.expiry op = none) (now : Stamp) (s : Store) : pace.run now op s = op.run now s := by
  refine run_of_attempt ?_
  rw [h]
  rfl

theorem run_of_answer {answer : Answer} (h : (pace.run now op s).1 = .ok answer) : pace.run now op s = op.run now s :=
  run_of_attempt (Engine.attempt_of_answer h)

theorem run_snd (pace : Pace) (now : Stamp) (op : Operation) (s : Store) :
    (pace.run now op s).2 = s ∨ (pace.run now op s).2 = (op.run now s).2 := by
  have hwhole := Engine.run_eq_of_free (e := { store := s, limit := pace.limit }) rfl now op
  rcases Engine.attempt_snd (pace.expiry op) now op { store := s, limit := pace.limit } with hkept | hrun
  · exact Or.inl (congrArg Engine.store hkept)
  · rw [hwhole] at hrun
    exact Or.inr (congrArg Engine.store hrun)

theorem run_read_keeps (hread : op.isRead = true) (pace : Pace) (now : Stamp) (s : Store) :
    (pace.run now op s).2 = s :=
  congrArg Engine.store (Engine.attempt_read_keeps (e := { store := s, limit := pace.limit }) hread (pace.expiry op))

end Pace

end ResourceAccess
