import ResourceAccess.Proofs.Session.Trace

/-!
# When the storage cannot be reached

An operation looks at its input before it asks for the connection, and at the tables after that.  So while the
connection is closed, or held by somebody else, only what is wrong with the input alone is told, and everything else
ends at the connection: with a fault of the storage, or with the time limit if that is up earlier.  Nothing that was
refused then is found in the tables when they can be reached again.

* `Operation.Malformed`: what can be wrong with an input alone
* `Session.Unavailable`: what a session answers while the storage cannot be reached
* `Session.unavailable_exact`: **it answers so, and all of it leaves no trace**
-/

namespace ResourceAccess

namespace Operation

/-- What is wrong with an input alone: a blank name, a bad name of a privilege, or a bad path. -/
inductive Malformed : Operation → InvalidInput → Prop
  | username {name : String} (hblank : Text.isBlank name = true) : Malformed (.createUser name) .blankUsername
  | groupName {name : String} (hblank : Text.isBlank name = true) : Malformed (.createGroup name) .blankGroupName
  | roleName {name : String} {description : Option String} (hblank : Text.isBlank name = true) :
    Malformed (.createRole name description) .blankRoleName
  | newRoleName {id : Id} {update : RoleUpdate} {name : String} (hgiven : update.name = some name)
    (hblank : Text.isBlank name = true) : Malformed (.updateRole id update) .blankRoleName
  | privilegeName {name : String} {description : Option String} (hbad : PrivilegeName.isValid name = false) :
    Malformed (.createPrivilege name description) (.privilegeName name)
  | newPrivilegeName {id : Id} {update : PrivilegeUpdate} {name : String} (hgiven : update.name = some name)
    (hbad : PrivilegeName.isValid name = false) : Malformed (.updatePrivilege id update) (.privilegeName name)
  | path {new : NewAce} {fault : Path.Fault} (hbad : new.path.fault? = some fault) :
    Malformed (.createAce new) (.path fault)
  | newPath {id : Id} {update : AceUpdate} {path : Path} {fault : Path.Fault} (hgiven : update.path = some path)
    (hbad : path.fault? = some fault) : Malformed (.updateAce id update) (.path fault)

variable {op : Operation} {fault : InvalidInput}

theorem nameFault_eq_some {blank : InvalidInput} {name : String} :
    nameFault? blank name = some fault ↔ Text.isBlank name = true ∧ blank = fault := by
  unfold nameFault?
  split
  · rename_i hblank
    simp [hblank]
  · rename_i hblank
    simp [hblank]

theorem privilegeNameFault_eq_some {name : String} :
    privilegeNameFault? name = some fault ↔ PrivilegeName.isValid name = false ∧ .privilegeName name = fault := by
  unfold privilegeNameFault?
  split
  · rename_i hvalid
    simp [hvalid]
  · rename_i hbad
    simp [hbad]

theorem fault_eq_some_iff : op.fault? = some fault ↔ op.Malformed fault := by
  constructor
  · intro h
    cases op with
    | createUser name =>
      obtain ⟨hblank, rfl⟩ := nameFault_eq_some.mp h
      exact .username hblank
    | createGroup name =>
      obtain ⟨hblank, rfl⟩ := nameFault_eq_some.mp h
      exact .groupName hblank
    | createRole name description =>
      obtain ⟨hblank, rfl⟩ := nameFault_eq_some.mp h
      exact .roleName hblank
    | updateRole id update =>
      obtain ⟨name, hgiven, hname⟩ := Option.bind_eq_some_iff.mp h
      obtain ⟨hblank, rfl⟩ := nameFault_eq_some.mp hname
      exact .newRoleName hgiven hblank
    | createPrivilege name description =>
      obtain ⟨hbad, rfl⟩ := privilegeNameFault_eq_some.mp h
      exact .privilegeName hbad
    | updatePrivilege id update =>
      obtain ⟨name, hgiven, hname⟩ := Option.bind_eq_some_iff.mp h
      obtain ⟨hbad, rfl⟩ := privilegeNameFault_eq_some.mp hname
      exact .newPrivilegeName hgiven hbad
    | createAce new =>
      obtain ⟨pathFault, hbad, rfl⟩ := Option.map_eq_some_iff.mp h
      exact .path hbad
    | updateAce id update =>
      obtain ⟨path, hgiven, hpath⟩ := Option.bind_eq_some_iff.mp h
      obtain ⟨pathFault, hbad, rfl⟩ := Option.map_eq_some_iff.mp hpath
      exact .newPath hgiven hbad
    | _ => exact absurd h (by simp [fault?])
  · intro h
    cases h with
    | username hblank | groupName hblank | roleName hblank => exact nameFault_eq_some.mpr ⟨hblank, rfl⟩
    | newRoleName hgiven hblank => exact Option.bind_eq_some_iff.mpr ⟨_, hgiven, nameFault_eq_some.mpr ⟨hblank, rfl⟩⟩
    | privilegeName hbad => exact privilegeNameFault_eq_some.mpr ⟨hbad, rfl⟩
    | newPrivilegeName hgiven hbad =>
      exact Option.bind_eq_some_iff.mpr ⟨_, hgiven, privilegeNameFault_eq_some.mpr ⟨hbad, rfl⟩⟩
    | path hbad => exact Option.map_eq_some_iff.mpr ⟨_, hbad, rfl⟩
    | newPath hgiven hbad => exact Option.bind_eq_some_iff.mpr ⟨_, hgiven, Option.map_eq_some_iff.mpr ⟨_, hbad, rfl⟩⟩

/-- Whether the time limit that is set applies to an operation.  It does to those on roles, privileges, memberships and
entries, to checks and to seeding; those on users and groups have no limit, and the clean-up after a resource has
another one. -/
def isTimed : Operation → Bool
  | .createUser _ | .getUser _ | .getUserNamed _ | .listUsers | .deleteUser _ => false
  | .createGroup _ | .getGroup _ | .deleteGroup _ => false
  | .resourceDeleted _ | .dump | .healthCheck => false
  | _ => true

end Operation

namespace Engine

variable {e : Engine} {op : Operation}

theorem patience_of_isTimed (htimed : op.isTimed = true) : e.patience op = e.timeout := by
  cases op with
  | createUser | getUser | getUserNamed | listUsers | deleteUser => exact absurd htimed Bool.false_ne_true
  | createGroup | getGroup | deleteGroup => exact absurd htimed Bool.false_ne_true
  | resourceDeleted | dump | healthCheck => exact absurd htimed Bool.false_ne_true
  | _ => rfl

theorem refusal_closed (hclosed : e.connection = .closed) : e.refusal? op = some (.storage .closed) := by
  rw [refusal?, hclosed]

theorem refusal_held_short (hheld : e.connection = .held) {limit : Duration} (hlimit : e.patience op = some limit)
    (hshort : limit.nanoseconds < acquireLimit.nanoseconds) : e.refusal? op = some (.timeout limit) := by
  rw [refusal?, hheld]
  simp only [hlimit, if_pos hshort]

theorem refusal_held_long (hheld : e.connection = .held) {limit : Duration} (hlimit : e.patience op = some limit)
    (hlong : acquireLimit.nanoseconds < limit.nanoseconds) : e.refusal? op = some (.storage .exhausted) := by
  rw [refusal?, hheld]
  simp only [hlimit, if_neg (show ¬ limit.nanoseconds < acquireLimit.nanoseconds by omega)]

theorem run_malformed {fault : InvalidInput} (h : op.Malformed fault) (now : Stamp) :
    e.run now op = (.error (.invalid fault), e) := by
  rw [run_eq, Operation.fault_eq_some_iff.mpr h]

theorem run_refusal {error : AccessError} (hrefusal : e.refusal? op = some error)
    (hsound : ∀ fault, ¬ op.Malformed fault) (now : Stamp) : e.run now op = (.error error, e) := by
  have hfault : op.fault? = none :=
    Option.eq_none_iff_forall_ne_some.mpr fun fault hsome => hsound fault (Operation.fault_eq_some_iff.mp hsome)
  rw [run_eq, hfault, hrefusal]

theorem run_unavailable_keeps (h : e.connection ≠ .free) (now : Stamp) (op : Operation) : (e.run now op).2 = e := by
  rcases e.run_cases now op with ⟨fault, -, hrun⟩ | ⟨-, error, -, hrun⟩ | ⟨-, hrefusal, -⟩
  · rw [hrun]
  · rw [hrun]
  · exact absurd (refusal_eq_none_iff.mp hrefusal) h

theorem release_held (hfree : e.connection = .free) : { e with connection := .held }.release = e := by
  cases e
  cases hfree
  rfl

end Engine

namespace Session

/-- The session as it is when its connection is free. -/
def available (s : Session) : Session := { s with engine := { s.engine with connection := .free } }

/-- What a session answers to an operation that cannot reach the storage: what is wrong with its input, just as when the
storage can be reached, and a refusal if nothing is. -/
structure Unavailable (s : Session) (op : Operation) (refusal : AccessError) : Prop where
  malformed : ∀ fault, op.Malformed fault → s.Refuses op (.invalid fault) ∧ s.available.Refuses op (.invalid fault)
  sound : (∀ fault, ¬ op.Malformed fault) → s.Refuses op refusal

variable {s : Session}

theorem unavailable_of_refusal {op : Operation} {error : AccessError} (h : s.engine.refusal? op = some error) :
    s.Unavailable op error where
  malformed := fun _ hmalformed =>
    ⟨refuses_of_run (Engine.run_malformed hmalformed), refuses_of_run (Engine.run_malformed hmalformed)⟩
  sound := fun hsound => refuses_of_run (Engine.run_refusal h hsound)

/-! ## What remains -/

theorem through_asking_unavailable (h : s.engine.connection ≠ .free) (history : History) :
    (s.through (asking history)).engine = s.engine := by
  induction history generalizing s with
  | nil => rfl
  | cons entry rest ih =>
    have hkept : (s.occur entry.1 (.request (.operation entry.2))).engine = s.engine :=
      Engine.run_unavailable_keeps h entry.1 entry.2
    exact (ih (hkept ▸ h)).trans hkept

theorem through_asking_file (history : History) (s : Session) :
    (s.through (asking history)).file.isSome = s.file.isSome := by
  induction history generalizing s with
  | nil => rfl
  | cons entry rest ih =>
    have hopened : (s.occur entry.1 (.request (.operation entry.2))).file.isSome = s.file.isSome := Option.isSome_map
    exact (ih _).trans hopened

theorem run_hold_engine (hfree : s.engine.connection = .free) (now : Stamp) :
    (s.run now .hold).2.engine = { s.engine with connection := .held } := by
  simp only [run, Engine.hold, hfree]
  rfl

theorem release_engine (hfree : s.engine.connection = .free) (before now : Stamp) (history : History) :
    (((s.run before .hold).2.through (asking history)).run now .release).2.engine = s.engine := by
  have hheld := run_hold_engine hfree before
  have hkept : ((s.run before .hold).2.through (asking history)).engine = { s.engine with connection := .held } := by
    rw [through_asking_unavailable (by simp [hheld]), hheld]
  show ((s.run before .hold).2.through (asking history)).engine.release = s.engine
  rw [hkept, Engine.release_held hfree]

theorem run_reopen {file : DatabaseFile} (hfile : s.file = some file) (now : Stamp) :
    s.run now .reopen = (.ok .done, s.withEngine s.engine.reopen) := by
  simp only [run, hfile]

theorem reopen_engine {file : DatabaseFile} (hfile : s.file = some file) (before now : Stamp) (history : History) :
    (((s.run before .close).2.through (asking history)).run now .reopen).1 = .ok .done ∧
      (((s.run before .close).2.through (asking history)).run now .reopen).2.engine =
        { store := s.engine.store, connection := .free, limit := s.engine.limit, timeout := s.engine.limit } := by
  have hclosed : (s.run before .close).2.engine = s.engine.close := rfl
  have hkept : ((s.run before .close).2.through (asking history)).engine = s.engine.close := by
    rw [through_asking_unavailable (by simp [hclosed, Engine.close]), hclosed]
  have hpresent : ((s.run before .close).2.through (asking history)).file.isSome = true := by
    rw [through_asking_file]
    show (s.file.map _).isSome = true
    rw [hfile]
    rfl
  obtain ⟨f, hf⟩ := Option.isSome_iff_exists.mp hpresent
  rw [run_reopen hf]
  refine ⟨rfl, ?_⟩
  show ((s.run before .close).2.through (asking history)).engine.reopen = _
  rw [hkept]
  rfl

/-- **What is asked of storage that cannot be reached is answered exactly, and leaves no trace.**  On a closed
connection all operations end with a fault of the storage.  On a held one those that are timed end with the limit that is
set, and the clean-up after a resource with the limit that the engine was opened with, if it is below the one for
acquiring a connection; if it is above, they end with a fault of the storage.  Only what is wrong with an input is told
before.  Then the connection is given back, or the file opened anew, and the tables are as they were. -/
theorem unavailable_exact (s : Session) :
    (s.engine.connection = .closed → ∀ op, s.Unavailable op (.storage .closed)) ∧
    (s.engine.connection = .held → ∀ op limit, op.isTimed = true → s.engine.timeout = some limit →
      (limit.nanoseconds < Engine.acquireLimit.nanoseconds → s.Unavailable op (.timeout limit)) ∧
      (Engine.acquireLimit.nanoseconds < limit.nanoseconds → s.Unavailable op (.storage .exhausted))) ∧
    (s.engine.connection = .held → ∀ path limit, s.engine.limit = some limit →
      (limit.nanoseconds < Engine.acquireLimit.nanoseconds → s.Unavailable (.resourceDeleted path) (.timeout limit)) ∧
      (Engine.acquireLimit.nanoseconds < limit.nanoseconds →
        s.Unavailable (.resourceDeleted path) (.storage .exhausted))) ∧
    (s.engine.connection = .free → ∀ before now history,
      (((s.run before .hold).2.through (asking history)).run now .release).2.engine = s.engine) ∧
    ∀ file, s.file = some file → ∀ before now history,
      (((s.run before .close).2.through (asking history)).run now .reopen).1 = .ok .done ∧
      (((s.run before .close).2.through (asking history)).run now .reopen).2.engine =
        { store := s.engine.store, connection := .free, limit := s.engine.limit, timeout := s.engine.limit } := by
  have hheldExact : s.engine.connection = .held → ∀ op limit, s.engine.patience op = some limit →
      (limit.nanoseconds < Engine.acquireLimit.nanoseconds → s.Unavailable op (.timeout limit)) ∧
      (Engine.acquireLimit.nanoseconds < limit.nanoseconds → s.Unavailable op (.storage .exhausted)) := by
    intro hheld op limit hlimit
    exact ⟨fun hshort => unavailable_of_refusal (Engine.refusal_held_short hheld hlimit hshort),
      fun hlong => unavailable_of_refusal (Engine.refusal_held_long hheld hlimit hlong)⟩
  refine ⟨?_, ?_, ?_, fun hfree => release_engine hfree, fun file hfile => reopen_engine hfile⟩
  · intro hclosed op
    exact unavailable_of_refusal (Engine.refusal_closed hclosed)
  · intro hheld op limit htimed hlimit
    exact hheldExact hheld op limit ((Engine.patience_of_isTimed htimed).trans hlimit)
  · intro hheld path limit hlimit
    exact hheldExact hheld (.resourceDeleted path) limit hlimit

def taken : Session :=
  (((inMemory (some (.ofMilliseconds 5))).run ⟨"1"⟩ (.operation (.createRole "operator" none))).2.run ⟨"2"⟩ .hold).2

def nobody (path : Path) : NewAce := { path, kind := .user, role := .issue .role 1 }

/-- A bad path is told while the connection is taken; the missing user only when it can be had. -/
theorem unavailable_exact_nobody :
    taken.Refuses (.createAce (nobody (.ofString "nodes"))) (.invalid (.path .notRooted)) ∧
    taken.Refuses (.createAce (nobody (.ofString "/nodes"))) (.timeout (.ofMilliseconds 5)) ∧
    (taken.available.run ⟨"3"⟩ (.operation (.createAce (nobody (.ofString "/nodes"))))).1 =
      .error (.access (.invalid (.subject .user))) := by
  have hunavailable : ∀ new, taken.Unavailable (.createAce new) (.timeout (.ofMilliseconds 5)) := fun new =>
    ((unavailable_exact taken).2.1 (by decide +kernel) (.createAce new) _ rfl (by decide +kernel)).1 (by decide)
  have hbad : (Operation.createAce (nobody (.ofString "nodes"))).Malformed (.path .notRooted) :=
    .path (by decide +kernel)
  have hgood : ∀ fault, ¬ (Operation.createAce (nobody (.ofString "/nodes"))).Malformed fault := by
    rintro _ ⟨⟩
    rename_i fault hfault
    have hnone : (nobody (.ofString "/nodes")).path.fault? = none := by decide +kernel
    rw [hnone] at hfault
    exact absurd hfault (by simp)
  exact ⟨((hunavailable _).malformed _ hbad).1, (hunavailable _).sound hgood, by decide +kernel⟩

/-- A session that waits for longer than a connection is waited for. -/
def patient : Session := ((inMemory (some (.ofMilliseconds 40000))).run ⟨"1"⟩ .hold).2

/-- A limit that does not end an operation on a held connection: a list is asked for, and what is told is not the limit
that is set. -/
theorem unavailable_patient :
    Reached patient ∧ patient.engine.connection = .held ∧ Operation.listRoles.isTimed = true ∧
    (∀ fault, ¬ Operation.listRoles.Malformed fault) ∧ patient.engine.timeout = some (.ofMilliseconds 40000) ∧
    (patient.run ⟨"2"⟩ (.operation .listRoles)).1 = .error (.access (.storage .exhausted)) :=
  ⟨(Reached.inMemory _).run ⟨"1"⟩ .hold, by decide +kernel, rfl, nofun, by decide +kernel, by decide +kernel⟩

end Session

end ResourceAccess
