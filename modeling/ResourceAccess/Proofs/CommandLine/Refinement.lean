import ResourceAccess.Proofs.Payload.Printed
import ResourceAccess.Proofs.Session.Trace
import ResourceAccess.Proofs.Store.Views
import ResourceAccess.Proofs.Store.Candidates

/-!
# The command line and the engine

A command line says nothing that the engine does not say.  Each command looks up what it is given by name, asks the
engine for one operation, and prints the answer or the text of the error.  What a command yields is stated here by the
operations of an engine on the same tables that has the same time, and names by the rows that bear them.

* `Command.Yields`: how a program with this command ends and the tables after it, by the operations of an engine
* `Command.execute_iff`: **a command yields this, and nothing else**
* `Session.invoke_refines`: **so does a command line on the file of a session**
-/

namespace ResourceAccess

open CommandLine (Report Exit)

variable {now : Stamp} {e : Engine} {role privilege : String} {exit : Exit} {t : Store} {pace : Pace}

/-! ## What a command yields -/

namespace CommandLine

def printing (answer : Answer) : Exit := { code := 0, output := some answer.text }

def failing (text : String) : Exit := { code := 1, complaint := some ("Error: " ++ text) }

end CommandLine

namespace Command

open CommandLine (printing failing)

section Yields

variable (now : Stamp) (expiry : Operation → Option Expiry) (e : Engine)

def asked (op : Operation) : Except AccessError Answer × Engine := e.attempt (expiry op) now op

def Answered (op : Operation) : Prop := ∃ answer, (asked now expiry e op).1 = .ok answer

/-- What comes of looking up a role and a privilege by name, the role first: why it fails, or their identifiers. -/
inductive LooksUp (role privilege : String) : Except String (Id × Id) → Prop
  | roleFailed {error : AccessError} (herror : (asked now expiry e (.getRoleNamed role)).1 = .error error) :
    LooksUp role privilege (.error error.message)
  | roleUnknown (hlook : Answered now expiry e (.getRoleNamed role)) (hunknown : ∀ r ∈ e.store.roles, r.name ≠ role) :
    LooksUp role privilege (.error ("Role not found: " ++ role))
  | privilegeFailed {error : AccessError} (hlook : Answered now expiry e (.getRoleNamed role))
    (hrole : ∃ r ∈ e.store.roles, r.name = role)
    (herror : (asked now expiry e (.getPrivilegeNamed privilege)).1 = .error error) :
    LooksUp role privilege (.error error.message)
  | privilegeUnknown (hlook : Answered now expiry e (.getRoleNamed role)) (hrole : ∃ r ∈ e.store.roles, r.name = role)
    (hlook' : Answered now expiry e (.getPrivilegeNamed privilege))
    (hunknown : ∀ p ∈ e.store.privileges, p.name ≠ privilege) :
    LooksUp role privilege (.error ("Privilege not found: " ++ privilege))
  | found {r : RoleRow} {p : Privilege} (hlook : Answered now expiry e (.getRoleNamed role))
    (hlook' : Answered now expiry e (.getPrivilegeNamed privilege)) (hrole : r ∈ e.store.roles) (hname : r.name = role)
    (hprivilege : p ∈ e.store.privileges) (hname' : p.name = privilege) : LooksUp role privilege (.ok (r.id, p.id))

/-- What an operation on a role and a privilege yields that are given by name. -/
inductive YieldsByName (op : Id → Id → Operation) (role privilege : String) : Exit → Store → Prop
  | unknown {text : String} (hlook : LooksUp now expiry e role privilege (.error text)) :
    YieldsByName op role privilege (failing text) e.store
  | done {r p : Id} {changed : Role} {t : Store} (hlook : LooksUp now expiry e role privilege (.ok (r, p)))
    (hrun : asked now expiry e (op r p) = (.ok (.role changed), { e with store := t })) :
    YieldsByName op role privilege (printing (.role changed)) t
  | refused {r p : Id} {error : AccessError} {t : Store} (hlook : LooksUp now expiry e role privilege (.ok (r, p)))
    (hrun : asked now expiry e (op r p) = (.error error, { e with store := t })) :
    YieldsByName op role privilege (failing error.message) t

/-- The operation of a command that only reads. -/
def reading? : Command → Option Operation
  | .check user path privilege _ => some (.explain user path privilege)
  | .roles => some .listRoles
  | .privileges => some .listPrivileges
  | .aces => some .listAces
  | _ => none

/-- How a program with this command ends, and the tables after it, by the operations of an engine on the tables before
it. -/
inductive Yields : Command → Exit → Store → Prop
  | checked {user : Id} {path : Path} {privilege : String} {d : Decision}
    (hexplain : (asked now expiry e (.explain user path privilege)).1 = .ok (.decision d)) :
    Yields (.check user path privilege false) (printing (.flag d.isAllowed)) e.store
  | explained {user : Id} {path : Path} {privilege : String} {d : Decision}
    (hexplain : (asked now expiry e (.explain user path privilege)).1 = .ok (.decision d)) :
    Yields (.check user path privilege true) (printing (.decision d)) e.store
  | roles {rs : List Role} (hlist : (asked now expiry e .listRoles).1 = .ok (.roles rs)) :
    Yields .roles (printing (.roles rs)) e.store
  | privileges {ps : List Privilege} (hlist : (asked now expiry e .listPrivileges).1 = .ok (.privileges ps)) :
    Yields .privileges (printing (.privileges ps)) e.store
  | aces {as : List Ace} (hlist : (asked now expiry e .listAces).1 = .ok (.aces as)) :
    Yields .aces (printing (.aces as)) e.store
  | unread {command : Command} {op : Operation} {error : AccessError} (hop : command.reading? = some op)
    (herror : (asked now expiry e op).1 = .error error) : Yields command (failing error.message) e.store
  | granted {role privilege : String} {exit : Exit} {t : Store}
    (h : YieldsByName now expiry e .addPrivilege role privilege exit t) : Yields (.grant role privilege) exit t
  | revoked {role privilege : String} {exit : Exit} {t : Store}
    (h : YieldsByName now expiry e .removePrivilege role privilege exit t) : Yields (.revoke role privilege) exit t
  | purged {top : Path} {n : Nat} {t : Store}
    (hpurge : e.attempt (expiry (.resourceDeleted top)) now (.purge top) = (.ok (.count n), { e with store := t })) :
    Yields (.purge top) (printing (.count n)) t
  | unpurged {top : Path} {error : AccessError} {t : Store}
    (hpurge : e.attempt (expiry (.resourceDeleted top)) now (.purge top) = (.error error, { e with store := t })) :
    Yields (.purge top) (failing error.message) t

end Yields

end Command

/-! ## The engine on its tables -/

/-- A change to the privileges of a role is answered with the role. -/
theorem Operation.Effect.answers_role {s : Store} {op : Operation} {answer : Answer} {r p : Id}
    (hop : op = .addPrivilege r p ∨ op = .removePrivilege r p) (h : Effect now s op (.ok answer, t)) :
    ∃ changed, answer = .role changed := by
  rcases hop with rfl | rfl
  · cases h with
    | read hread => exact absurd hread Bool.false_ne_true
    | alreadyAttached | attached => exact ⟨_, rfl⟩
  · cases h with
    | read hread => exact absurd hread Bool.false_ne_true
    | detached => exact ⟨_, rfl⟩

namespace Store

variable {s : Store}

theorem roleNamed_eq_none_iff : s.roleNamed? role = none ↔ ∀ r ∈ s.roles, r.name ≠ role := by
  simp [roleNamed?, roleRowNamed?]

theorem privilegeNamed_eq_none_iff : s.privilegeNamed? privilege = none ↔ ∀ p ∈ s.privileges, p.name ≠ privilege := by
  simp [privilegeNamed?]

theorem roleNamed_eq_some {r : Role} (h : s.roleNamed? role = some r) :
    ∃ row ∈ s.roles, row.name = role ∧ row.id = r.id := by
  obtain ⟨row, hrow, rfl⟩ := Option.map_eq_some_iff.mp h
  obtain ⟨hmem, hname⟩ := find_key_eq_some hrow
  exact ⟨row, hmem, hname, rfl⟩

theorem Sound.privilegeNamed_eq_some (hs : s.Sound) {p : Privilege} (hp : p ∈ s.privileges) :
    s.privilegeNamed? p.name = some p := (find_key_eq_some_iff hs.privileges.keys_nodup).mpr ⟨hp, rfl⟩

end Store

namespace Engine

theorem attempt_frame (expiry : Option Expiry) (now : Stamp) (op : Operation) (e : Engine) :
    (e.attempt expiry now op).2 = { e with store := (e.attempt expiry now op).2.store } := by
  rcases e.attempt_snd expiry now op with hkept | hrun
  · rw [hkept]
  · rw [hrun]
    rcases e.run_effect now op with ⟨error, hrefused⟩ | ⟨answer, t, -, hdone⟩
    · rw [hrefused]
    · rw [hdone]

/-- An engine that an operation of a program cannot be told from: its connection is free, and its operations have the
time of the pace, or all the time they need. -/
structure KeepsPace (e : Engine) (pace : Pace) : Prop where
  free : e.connection = .free
  limits : (∀ op, pace.expiry op = none) ∨ e.limit = pace.limit ∧ e.timeout = pace.limit

theorem KeepsPace.attempt_eq (h : e.KeepsPace pace) (now : Stamp) (op : Operation) :
    e.attempt (pace.expiry op) now op =
      ((pace.run now op e.store).1, { e with store := (pace.run now op e.store).2 }) := by
  rcases h.limits with hnone | ⟨hlimit, htimeout⟩
  · rw [hnone op, pace.run_in_time (hnone op)]
    exact run_eq_of_free h.free now op
  · obtain ⟨store, connection, limit, timeout⟩ := e
    obtain rfl : connection = .free := h.free
    obtain rfl : limit = pace.limit := hlimit
    obtain rfl : timeout = pace.limit := htimeout
    exact Prod.ext rfl (attempt_frame _ now op _)

/-- The clean-up after a resource is a purge; only its limit may be another one. -/
theorem KeepsPace.attempt_resourceDeleted (h : e.KeepsPace pace) (now : Stamp) (top : Path) :
    e.attempt (pace.expiry (.resourceDeleted top)) now (.purge top) =
      e.attempt (pace.expiry (.resourceDeleted top)) now (.resourceDeleted top) := by
  rcases h.limits with hnone | ⟨hlimit, htimeout⟩
  · rw [hnone]
    show e.run now (.purge top) = e.run now (.resourceDeleted top)
    rw [run_eq_of_free h.free, run_eq_of_free h.free]
    rfl
  · have hpatience : e.patience (.purge top) = e.patience (.resourceDeleted top) := htimeout.trans hlimit.symm
    rw [attempt_eq_of_free rfl h.free, attempt_eq_of_free rfl h.free, hpatience]
    rfl

end Engine

/-! ## Commands -/

namespace Command

open CommandLine (printing failing)

section Asked

variable (hpace : e.KeepsPace pace)

include hpace

theorem asked_fst (op : Operation) : (asked now pace.expiry e op).1 = (pace.run now op e.store).1 := by
  rw [asked, hpace.attempt_eq]

theorem run_of_asked {op : Operation} {answer : Except AccessError Answer}
    (h : asked now pace.expiry e op = (answer, { e with store := t })) : pace.run now op e.store = (answer, t) := by
  rw [asked, hpace.attempt_eq, Prod.mk.injEq, Engine.mk.injEq] at h
  obtain ⟨hanswer, hstore, -⟩ := h
  exact Prod.ext hanswer hstore

theorem asked_of_run {op : Operation} {answer : Except AccessError Answer} (h : pace.run now op e.store = (answer, t)) :
    asked now pace.expiry e op = (answer, { e with store := t }) := by
  rw [asked, hpace.attempt_eq, h]

theorem role_of_answered (h : Answered now pace.expiry e (.getRoleNamed role)) :
    (pace.run now (.getRoleNamed role) e.store).1 = .ok (.ofOption .role (e.store.roleNamed? role)) := by
  obtain ⟨answer, hanswer⟩ := h
  rw [asked_fst hpace] at hanswer
  rw [Pace.run_of_answer hanswer]
  rfl

theorem privilege_of_answered (h : Answered now pace.expiry e (.getPrivilegeNamed privilege)) :
    (pace.run now (.getPrivilegeNamed privilege) e.store).1 =
      .ok (.ofOption .privilege (e.store.privilegeNamed? privilege)) := by
  obtain ⟨answer, hanswer⟩ := h
  rw [asked_fst hpace] at hanswer
  rw [Pace.run_of_answer hanswer]
  rfl

end Asked

theorem exit_report_of_answer {reply : Reply} {answer : Answer} (h : reply.1 = .ok answer) :
    (report reply).1.exit = printing answer := by
  rw [report_of_answer h]
  rfl

theorem exit_report_of_error {reply : Reply} {error : AccessError} (h : reply.1 = .error error) :
    (report reply).1.exit = failing error.message := by
  rw [report_of_error h]
  rfl

/-! ### By name -/

section ByName

variable {op : Id → Id → Operation}

theorem onMembership_found {s : Store} {r : Role} {p : Privilege}
    (hrole : (pace.run now (.getRoleNamed role) s).1 = .ok (.role r))
    (hprivilege : (pace.run now (.getPrivilegeNamed privilege) s).1 = .ok (.privilege p)) :
    onMembership now op role privilege s pace = report (pace.run now (op r.id p.id) s) := by
  rw [onMembership, hrole]
  dsimp only
  rw [hprivilege]

theorem onMembership_of_rows (hs : e.store.Sound) (hpace : e.KeepsPace pace) {r : RoleRow} {p : Privilege}
    (hlook : Answered now pace.expiry e (.getRoleNamed r.name))
    (hlook' : Answered now pace.expiry e (.getPrivilegeNamed p.name)) (hr : r ∈ e.store.roles)
    (hp : p ∈ e.store.privileges) :
    onMembership now op r.name p.name e.store pace = report (pace.run now (op r.id p.id) e.store) := by
  have hrole := role_of_answered hpace hlook
  have hprivilege := privilege_of_answered hpace hlook'
  rw [hs.roleNamed_eq_some hr] at hrole
  rw [hs.privilegeNamed_eq_some hp] at hprivilege
  exact onMembership_found hrole hprivilege

/-- Either it is told what cannot be looked up, or the operation is asked for. -/
theorem onMembership_cases (hpace : e.KeepsPace pace) (op : Id → Id → Operation) (role privilege : String) :
    (∃ error : CommandLine.CommandError, LooksUp now pace.expiry e role privilege (.error error.message) ∧
      onMembership now op role privilege e.store pace = (.failed error, e.store)) ∨
    ∃ r p, LooksUp now pace.expiry e role privilege (.ok (r, p)) ∧
      onMembership now op role privilege e.store pace = report (pace.run now (op r p) e.store) := by
  cases hrole : (pace.run now (.getRoleNamed role) e.store).1 with
  | error error =>
    refine Or.inl ⟨.access error, .roleFailed ((asked_fst hpace _).trans hrole), ?_⟩
    rw [onMembership, hrole]
  | ok answer =>
    have hlook : Answered now pace.expiry e (.getRoleNamed role) := ⟨answer, (asked_fst hpace _).trans hrole⟩
    have hrole := role_of_answered hpace hlook
    cases hfound : e.store.roleNamed? role with
    | none =>
      rw [hfound] at hrole
      refine Or.inl ⟨.roleNotFound role, .roleUnknown hlook (Store.roleNamed_eq_none_iff.mp hfound), ?_⟩
      rw [onMembership, hrole]
      rfl
    | some r =>
      rw [hfound] at hrole
      obtain ⟨row, hrow, hname, hid⟩ := Store.roleNamed_eq_some hfound
      cases hprivilege : (pace.run now (.getPrivilegeNamed privilege) e.store).1 with
      | error error =>
        refine Or.inl ⟨.access error, .privilegeFailed hlook ⟨row, hrow, hname⟩ ((asked_fst hpace _).trans hprivilege), ?_⟩
        simp only [onMembership, hrole, hprivilege, Answer.ofOption]
      | ok answer =>
        have hlook' : Answered now pace.expiry e (.getPrivilegeNamed privilege) :=
          ⟨answer, (asked_fst hpace _).trans hprivilege⟩
        have hprivilege := privilege_of_answered hpace hlook'
        cases hfound' : e.store.privilegeNamed? privilege with
        | none =>
          rw [hfound'] at hprivilege
          refine Or.inl ⟨.privilegeNotFound privilege, .privilegeUnknown hlook ⟨row, hrow, hname⟩ hlook'
            (Store.privilegeNamed_eq_none_iff.mp hfound'), ?_⟩
          simp only [onMembership, hrole, hprivilege, Answer.ofOption]
        | some p =>
          rw [hfound'] at hprivilege
          obtain ⟨hp, hname'⟩ := Store.privilegeNamed_eq_some hfound'
          refine Or.inr ⟨row.id, p.id, .found hlook hlook' hrow hname hp hname', ?_⟩
          rw [onMembership_found hrole hprivilege, hid]

/-- A change to the privileges of a role that is answered is answered with the role. -/
theorem run_answers_role {r p : Id} {answer : Answer} (hop : op r p = .addPrivilege r p ∨ op r p = .removePrivilege r p)
    (h : (pace.run now (op r p) e.store).1 = .ok answer) : ∃ changed, answer = .role changed := by
  have hfault : (op r p).fault? = none := by
    rcases hop with hop | hop <;> rw [hop] <;> rfl
  have heffect := (op r p).perform_effect now e.store
  rw [Pace.run_of_answer h, Operation.run_eq_perform hfault] at h
  have hreply : (op r p).perform now e.store = (.ok answer, ((op r p).perform now e.store).2) := Prod.ext h rfl
  rw [hreply] at heffect
  exact heffect.answers_role hop

theorem onMembership_yields (hpace : e.KeepsPace pace)
    (hop : ∀ r p, op r p = .addPrivilege r p ∨ op r p = .removePrivilege r p) (role privilege : String) :
    YieldsByName now pace.expiry e op role privilege (onMembership now op role privilege e.store pace).1.exit
      (onMembership now op role privilege e.store pace).2 := by
  rcases onMembership_cases hpace op role privilege with ⟨error, hlook, htold⟩ | ⟨r, p, hlook, hasked⟩
  · rw [htold]
    exact .unknown hlook
  · rw [hasked, report_snd]
    cases hresult : (pace.run now (op r p) e.store).1 with
    | error error =>
      rw [exit_report_of_error hresult]
      exact .refused hlook (asked_of_run hpace (Prod.ext hresult rfl))
    | ok answer =>
      obtain ⟨changed, rfl⟩ := run_answers_role (hop r p) hresult
      rw [exit_report_of_answer hresult]
      exact .done hlook (asked_of_run hpace (Prod.ext hresult rfl))

theorem YieldsByName.onMembership_eq (hs : e.store.Sound) (hpace : e.KeepsPace pace)
    (h : YieldsByName now pace.expiry e op role privilege exit t) :
    (onMembership now op role privilege e.store pace).1.exit = exit ∧
      (onMembership now op role privilege e.store pace).2 = t := by
  cases h with
  | unknown hlook =>
    cases hlook with
    | roleFailed herror =>
      rw [asked_fst hpace] at herror
      rw [onMembership, herror]
      exact ⟨rfl, rfl⟩
    | roleUnknown hlook hunknown =>
      rw [onMembership, role_of_answered hpace hlook, Store.roleNamed_eq_none_iff.mpr hunknown]
      exact ⟨rfl, rfl⟩
    | privilegeFailed hlook hrole herror =>
      obtain ⟨r, hr, rfl⟩ := hrole
      rw [asked_fst hpace] at herror
      simp only [onMembership, role_of_answered hpace hlook, hs.roleNamed_eq_some hr, Answer.ofOption, herror]
      exact ⟨rfl, trivial⟩
    | privilegeUnknown hlook hrole hlook' hunknown =>
      obtain ⟨r, hr, rfl⟩ := hrole
      simp only [onMembership, role_of_answered hpace hlook, hs.roleNamed_eq_some hr, Answer.ofOption,
        privilege_of_answered hpace hlook', Store.privilegeNamed_eq_none_iff.mpr hunknown]
      exact ⟨rfl, trivial⟩
  | done hlook hrun =>
    cases hlook with
    | found hlook hlook' hr hname hp hname' =>
      subst hname hname'
      rw [onMembership_of_rows hs hpace hlook hlook' hr hp, run_of_asked hpace hrun]
      exact ⟨rfl, rfl⟩
  | refused hlook hrun =>
    cases hlook with
    | found hlook hlook' hr hname hp hname' =>
      subst hname hname'
      rw [onMembership_of_rows hs hpace hlook hlook' hr hp, run_of_asked hpace hrun]
      exact ⟨rfl, rfl⟩

end ByName

/-! ### All commands -/

theorem read_cases (hpace : e.KeepsPace pace) {op : Operation} {found : Answer}
    (hfound : (op.run now e.store).1 = .ok found) :
    (∃ error, (asked now pace.expiry e op).1 = .error error ∧ (pace.run now op e.store).1 = .error error) ∨
      (asked now pace.expiry e op).1 = .ok found ∧ (pace.run now op e.store).1 = .ok found := by
  rw [asked_fst hpace]
  cases hresult : (pace.run now op e.store).1 with
  | error error => exact Or.inl ⟨error, rfl, rfl⟩
  | ok answer =>
    rw [Pace.run_of_answer hresult, hfound] at hresult
    exact Or.inr ⟨hresult.symm, hresult.symm⟩

/-- The end of a check, by the decision that is read or the error. -/
theorem exit_check_of_decision {user : Id} {path : Path} {privilege : String} {explained : Bool} {s : Store} {d : Decision}
    (h : (pace.run now (.explain user path privilege) s).1 = .ok (.decision d)) :
    (execute now (.check user path privilege explained) s pace).1.exit =
      printing (if explained then .decision d else .flag d.isAllowed) := by
  rw [execute]
  cases explained with
  | true => exact exit_report_of_answer h
  | false =>
    refine exit_report_of_answer ?_
    show (pace.run now (.explain user path privilege) s).1.map verdict = .ok (.flag d.isAllowed)
    rw [h]
    rfl

theorem exit_check_of_error {user : Id} {path : Path} {privilege : String} {explained : Bool} {s : Store}
    {error : AccessError} (h : (pace.run now (.explain user path privilege) s).1 = .error error) :
    (execute now (.check user path privilege explained) s pace).1.exit = failing error.message := by
  rw [execute]
  cases explained with
  | true => exact exit_report_of_error h
  | false =>
    refine exit_report_of_error ?_
    show (pace.run now (.explain user path privilege) s).1.map verdict = .error error
    rw [h]
    rfl

theorem reading_of_some {command : Command} {op : Operation} (h : command.reading? = some op) :
    command.isRead = true := by
  cases command <;> first | rfl | exact absurd h (by simp [reading?])

theorem yields_of_read (hpace : e.KeepsPace pace) {command : Command} {op : Operation} {found : Answer}
    (hop : command.reading? = some op) (hfound : (op.run now e.store).1 = .ok found)
    (hexecute : (command.execute now e.store pace).1 = (report (pace.run now op e.store)).1)
    (hyields : (asked now pace.expiry e op).1 = .ok found → Yields now pace.expiry e command (printing found) e.store) :
    Yields now pace.expiry e command (command.execute now e.store pace).1.exit (command.execute now e.store pace).2 := by
  rw [execute_read (reading_of_some hop), hexecute]
  rcases read_cases hpace hfound with ⟨error, hasked, hresult⟩ | ⟨hasked, hresult⟩
  · rw [exit_report_of_error hresult]
    exact .unread hop hasked
  · rw [exit_report_of_answer hresult]
    exact hyields hasked

theorem execute_yields (hpace : e.KeepsPace pace) (now : Stamp) (command : Command) :
    Yields now pace.expiry e command (command.execute now e.store pace).1.exit (command.execute now e.store pace).2 := by
  cases command with
  | check user path privilege explained =>
    rw [execute_read rfl]
    have hfound : ((Operation.explain user path privilege).run now e.store).1 =
        .ok (.decision (e.store.explain user path privilege)) := rfl
    rcases read_cases hpace hfound with ⟨error, hasked, hresult⟩ | ⟨hasked, hresult⟩
    · rw [exit_check_of_error hresult]
      exact .unread rfl hasked
    · rw [exit_check_of_decision hresult]
      cases explained with
      | true => exact .explained hasked
      | false => exact .checked hasked
  | roles => exact yields_of_read hpace rfl rfl rfl .roles
  | privileges => exact yields_of_read hpace rfl rfl rfl .privileges
  | aces => exact yields_of_read hpace rfl rfl rfl .aces
  | grant role privilege => exact .granted (onMembership_yields hpace (fun _ _ => Or.inl rfl) role privilege)
  | revoke role privilege => exact .revoked (onMembership_yields hpace (fun _ _ => Or.inr rfl) role privilege)
  | purge top =>
    have hasked := hpace.attempt_eq now (.resourceDeleted top)
    rw [← hpace.attempt_resourceDeleted] at hasked
    rw [execute, report_snd]
    cases hresult : (pace.run now (.resourceDeleted top) e.store).1 with
    | error error =>
      rw [hresult] at hasked
      rw [exit_report_of_error hresult]
      exact .unpurged hasked
    | ok answer =>
      have hcount : answer = .count (e.store.purge top).1 := by
        rw [Pace.run_of_answer hresult] at hresult
        exact (Except.ok.inj hresult).symm
      subst hcount
      rw [hresult] at hasked
      rw [exit_report_of_answer hresult]
      exact .purged hasked

theorem Yields.execute_eq (hs : e.store.Sound) (hpace : e.KeepsPace pace) {command : Command}
    (h : Yields now pace.expiry e command exit t) :
    (command.execute now e.store pace).1.exit = exit ∧ (command.execute now e.store pace).2 = t := by
  cases h with
  | checked hexplain =>
    rw [asked_fst hpace] at hexplain
    exact ⟨exit_check_of_decision hexplain, execute_read rfl now e.store pace⟩
  | explained hexplain =>
    rw [asked_fst hpace] at hexplain
    exact ⟨exit_check_of_decision hexplain, execute_read rfl now e.store pace⟩
  | roles hlist | privileges hlist | aces hlist =>
    rw [asked_fst hpace] at hlist
    exact ⟨exit_report_of_answer hlist, execute_read rfl now e.store pace⟩
  | unread hop herror =>
    rw [asked_fst hpace] at herror
    refine ⟨?_, execute_read (reading_of_some hop) now e.store pace⟩
    cases command with
    | check user path privilege explained =>
      obtain rfl := Option.some.inj hop
      exact exit_check_of_error herror
    | roles | privileges | aces =>
      obtain rfl := Option.some.inj hop
      exact exit_report_of_error herror
    | _ => exact absurd hop (by simp [reading?])
  | granted h => exact h.onMembership_eq hs hpace
  | revoked h => exact h.onMembership_eq hs hpace
  | purged hpurge =>
    rw [hpace.attempt_resourceDeleted] at hpurge
    rw [execute, report_snd, run_of_asked hpace hpurge]
    exact ⟨rfl, rfl⟩
  | unpurged hpurge =>
    rw [hpace.attempt_resourceDeleted] at hpurge
    rw [execute, report_snd, run_of_asked hpace hpurge]
    exact ⟨rfl, rfl⟩

/-- **A command yields what the operations of an engine give, and nothing else.** -/
theorem execute_iff (hs : e.store.Sound) (hpace : e.KeepsPace pace) {command : Command} :
    ((command.execute now e.store pace).1.exit = exit ∧ (command.execute now e.store pace).2 = t) ↔
      Yields now pace.expiry e command exit t := by
  refine ⟨?_, fun h => h.execute_eq hs hpace⟩
  rintro ⟨rfl, rfl⟩
  exact execute_yields hpace now command

end Command

/-! ## Command lines beside a session -/

namespace Session

open CommandLine (Surroundings failing)

variable {s : Session} {surroundings : Surroundings} {arguments : List String} {configured : Option String}
  {command : Command} {config : Config}

/-- On the file of a session a command line is its command on the session's tables. -/
theorem invoke_on_file {file : DatabaseFile} (hfile : s.file = some file) {plan : CommandLine.Plan}
    (hplan : CommandLine.plan surroundings arguments = .ok plan) (hours : plan.file = file.name) (now : Stamp) :
    s.invoke now surroundings arguments =
      ((plan.command.execute now s.engine.store { limit := plan.limit, expiry := surroundings.expiry }).1,
        s.withEngine { s.engine with
          store := (plan.command.execute now s.engine.store { limit := plan.limit, expiry := surroundings.expiry }).2 }) := by
  simp [invoke, hplan, hfile, hours]

/-- **The command line refines the engine.**  On the file of a session a program ends as the operations of an engine on
the same tables make it end, with this text or with that error, and leaves the tables that this engine leaves.  The texts
of the answers can be read back.  With no file configured it fails and touches nothing; with no connections allowed it
cannot go on, and touches nothing either. -/
theorem invoke_refines (h : Reached s) (hparse : CommandLine.parse arguments = .ok (configured, command))
    (hconfig : CommandLine.configure surroundings configured = .ok config) (now : Stamp) :
    (config.database.path = none ∨ config.database.path = some "" →
      (s.invoke now surroundings arguments).1.exit = failing
        "No database configured. Set database.path in the --config file or RBACD_DATABASE__PATH." ∧
      (s.invoke now surroundings arguments).2 = s) ∧
    (∀ path, config.database.path = some path → path ≠ "" → config.database.maxConnections = 0 →
      (s.invoke now surroundings arguments).1.exitCode = 101 ∧ (s.invoke now surroundings arguments).2 = s) ∧
    (∀ file, s.file = some file → config.database.path = some file.name → file.name ≠ "" →
      config.database.maxConnections ≠ 0 →
      (∃ t, (s.invoke now surroundings arguments).2 = s.withEngine { s.engine with store := t }) ∧
      ∀ e : Engine, e.store = s.engine.store →
        e.KeepsPace { limit := config.database.operationTimeout, expiry := surroundings.expiry } → ∀ exit t,
          (s.invoke now surroundings arguments).1.exit = exit ∧
            (s.invoke now surroundings arguments).2 = s.withEngine { s.engine with store := t } ↔
          command.Yields now surroundings.expiry e exit t) ∧
    Answer.Wording ∧
    (∀ limit, (AccessError.timeout limit).message = "operation timed out after " ++ limit.text) ∧
    ∀ privilege role : Id, (AccessError.notMember privilege role).message =
      "privilege " ++ privilege.text ++ " is not a member of role " ++ role.text := by
  refine ⟨?_, ?_, ?_, Answer.wording, fun _ => rfl, fun _ _ => rfl⟩
  · intro hpath
    have hnone : CommandLine.plan surroundings arguments = .error (.failed .noDatabase) := by
      rcases hpath with hpath | hpath
      · exact CommandLine.plan_without_database hparse hconfig hpath
      · simp [CommandLine.plan, hparse, hconfig, hpath]
    rw [invoke, hnone]
    exact ⟨rfl, rfl⟩
  · intro path hpath hne hzero
    have haborted : CommandLine.plan surroundings arguments = .error .aborted := by
      simp [CommandLine.plan, hparse, hconfig, hpath, hne, hzero]
    rw [invoke, haborted]
    exact ⟨rfl, rfl⟩
  · intro file hfile hpath hne hopens
    have hplan : CommandLine.plan surroundings arguments =
        .ok { file := file.name, limit := config.database.operationTimeout, command } := by
      simp [CommandLine.plan, hparse, hconfig, hpath, hne, hopens]
    rw [invoke_on_file hfile hplan rfl]
    refine ⟨⟨_, rfl⟩, fun e hstore hpace exit t => ?_⟩
    have hs : e.store.Sound := hstore ▸ h.store.sound
    rw [← Command.execute_iff hs hpace, hstore]
    refine and_congr_right fun _ => ⟨fun hafter => ?_, fun hafter => by rw [hafter]⟩
    exact congrArg (·.engine.store) hafter

def stocked : Session :=
  (onFile "rules" none).through
    (asking [(⟨"1"⟩, .createRole "operator" none), (⟨"2"⟩, .createPrivilege "Node.Console" none)])

/-- The file is named by a variable. -/
def named : Surroundings := { environment := [("RBACD_DATABASE__PATH", "rules")] }

theorem eq_ok_of_toOption {ε α : Type} {result : Except ε α} {a : α} (h : result.toOption = some a) :
    result = .ok a := by
  cases result with
  | error error => exact absurd h (by simp [Except.toOption])
  | ok b => rw [Option.some.inj h]

def operator : Role where
  id := .issue .role 1
  name := "operator"
  description := none
  builtin := false
  created := ⟨"1"⟩
  updated := ⟨"1"⟩
  privileges := []

/-- The roles are printed; the name of a role is looked up before that of a privilege; a privilege that a role does not
have is not removed from it; and without a file there is nothing to list. -/
theorem invoke_refines_stocked :
    (∃ text, (stocked.invoke ⟨"3"⟩ named ["roles"]).1.exit = { code := 0, output := some text } ∧
      Json.scan text = some (.array [operator.toJson])) ∧
    (stocked.invoke ⟨"3"⟩ named ["grant", "--role", "nobody", "--privilege", "Node.Mount"]).1.exit =
      failing "Role not found: nobody" ∧
    (stocked.invoke ⟨"3"⟩ named ["revoke", "--role", "operator", "--privilege", "Node.Console"]).1.exit =
      failing "privilege privilege#1 is not a member of role role#1" ∧
    (stocked.invoke ⟨"3"⟩ named ["revoke", "--role", "operator", "--privilege", "Node.Console"]).2 = stocked ∧
    (stocked.invoke ⟨"3"⟩ {} ["roles"]).2 = stocked := by
  have hreached : Reached stocked := (Reached.onFile "rules" none).through _
  have hnamed : CommandLine.configure named none = .ok { database := { path := some "rules" } } :=
    eq_ok_of_toOption (by decide +kernel)
  have hunnamed : CommandLine.configure {} none = .ok {} := eq_ok_of_toOption (by decide +kernel)
  have hroles : CommandLine.parse ["roles"] = .ok (none, .roles) := by decide +kernel
  have hgrant : CommandLine.parse ["grant", "--role", "nobody", "--privilege", "Node.Mount"] =
      .ok (none, .grant "nobody" "Node.Mount") := by decide +kernel
  have hrevoke : CommandLine.parse ["revoke", "--role", "operator", "--privilege", "Node.Console"] =
      .ok (none, .revoke "operator" "Node.Console") := by decide +kernel
  have hfile : stocked.file = some { name := "rules", present := true } := by decide +kernel
  have hkept : stocked.withEngine { stocked.engine with store := stocked.engine.store } = stocked := by decide +kernel
  have hpace : stocked.engine.KeepsPace { limit := some (.ofMilliseconds 5000), expiry := named.expiry } :=
    ⟨by decide +kernel, Or.inl fun _ => rfl⟩
  obtain ⟨-, -, hlisted, hwording, -⟩ := invoke_refines hreached hroles hnamed ⟨"3"⟩
  obtain ⟨-, -, hgranted, -⟩ := invoke_refines hreached hgrant hnamed ⟨"3"⟩
  obtain ⟨-, -, hrevoked, -, -, htext⟩ := invoke_refines hreached hrevoke hnamed ⟨"3"⟩
  have hlist : (Command.asked ⟨"3"⟩ named.expiry stocked.engine .listRoles).1 = .ok (.roles [operator]) := by
    decide +kernel
  have hprinted := ((hlisted _ hfile rfl (by decide) (by decide)).2 stocked.engine rfl hpace _ _).mpr (.roles hlist)
  have hunknown := ((hgranted _ hfile rfl (by decide) (by decide)).2 stocked.engine rfl hpace _ _).mpr
    (.granted (.unknown (.roleUnknown ⟨_, rfl⟩ (by decide +kernel))))
  have hrole : operator.toRoleRow ∈ stocked.engine.store.roles := by decide +kernel
  have hprivilege : (⟨.issue .privilege 1, "Node.Console", none, ⟨"2"⟩, ⟨"2"⟩⟩ : Privilege) ∈
      stocked.engine.store.privileges := by decide +kernel
  have hrun : Command.asked ⟨"3"⟩ named.expiry stocked.engine (.removePrivilege (.issue .role 1) (.issue .privilege 1)) =
      (.error (.notMember (.issue .privilege 1) (.issue .role 1)),
        { stocked.engine with store := stocked.engine.store }) := by decide +kernel
  have hnotMember := ((hrevoked _ hfile rfl (by decide) (by decide)).2 stocked.engine rfl hpace _ _).mpr
    (.revoked (.refused (.found ⟨_, rfl⟩ ⟨_, rfl⟩ hrole rfl hprivilege rfl) hrun))
  refine ⟨⟨_, hprinted.1, hwording.roles [operator]⟩, hunknown.1, ?_, ?_, ?_⟩
  · rw [hnotMember.1, htext]
    rfl
  · rw [hnotMember.2, hkept]
  · exact ((invoke_refines hreached hroles hunnamed ⟨"3"⟩).1 (Or.inl rfl)).2

/-- The file is named, and no connections to it are allowed. -/
def unconnected : Surroundings :=
  { environment := [("RBACD_DATABASE__PATH", "rules"), ("RBACD_DATABASE__MAX_CONNECTIONS", "0")] }

/-- A well-formed command on the file that does not print what there is: the program cannot go on. -/
theorem invoke_unconnected :
    Reached stocked ∧ CommandLine.parse ["roles"] = .ok (none, .roles) ∧
    (stocked.engine.run ⟨"3"⟩ .listRoles).1 = .ok (.roles [operator]) ∧
    (stocked.invoke ⟨"3"⟩ unconnected ["roles"]).1.exit.code = 101 ∧
    (stocked.invoke ⟨"3"⟩ unconnected ["roles"]).1.exit.output = none :=
  ⟨(Reached.onFile "rules" none).through _, by decide +kernel, by decide +kernel, by decide +kernel, by decide +kernel⟩

end Session

end ResourceAccess
