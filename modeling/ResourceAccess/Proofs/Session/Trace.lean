import ResourceAccess.Proofs.Session.Atomic

/-!
# A session as a history of its tables

A session meets with requests, and with command lines beside it.  Each of these events does some operations on the
tables, often none, and nothing else happens to the tables.  So the tables are where the history of these operations
leads, and what holds of all histories holds of all sessions.

* `Session.Event`, `Session.through`: what happens, and the session afterwards
* `Session.work`, `Session.trace`: the operations that this amounts to
* `Session.through_store`: **the tables of a session are those that its history leads to**
-/

namespace ResourceAccess

variable {now : Stamp}

/-! ## What a command and a set-up amount to -/

/-- The operation, if at this pace the tables are not left as they were. -/
def Pace.work (pace : Pace) (now : Stamp) (op : Operation) (s : Store) : List Operation :=
  if (pace.run now op s).2 = s then [] else [op]

theorem Pace.run_snd_eq_after (pace : Pace) (now : Stamp) (op : Operation) (s : Store) :
    (pace.run now op s).2 = s.after ((pace.work now op s).map (now, ·)) := by
  unfold work
  split
  · rename_i hkept
    exact hkept
  · rename_i hchanged
    rcases pace.run_snd now op s with hkept | hrun
    · exact absurd hkept hchanged
    · exact hrun

namespace Command

/-- The operation on a role and a privilege that are given by name, if there are such. -/
def membershipWork (now : Stamp) (op : Id → Id → Operation) (role privilege : String) (s : Store) (pace : Pace) :
    List Operation :=
  match (pace.run now (.getRoleNamed role) s).1, (pace.run now (.getPrivilegeNamed privilege) s).1 with
  | .ok (.role r), .ok (.privilege p) => pace.work now (op r.id p.id) s
  | _, _ => []

/-- The operations that a command does on the tables; those that only look are not among them. -/
def work (now : Stamp) (command : Command) (s : Store) (pace : Pace) : List Operation :=
  match command with
  | .check .. | .roles | .privileges | .aces => []
  | .grant role privilege => membershipWork now .addPrivilege role privilege s pace
  | .revoke role privilege => membershipWork now .removePrivilege role privilege s pace
  | .purge top => pace.work now (.resourceDeleted top) s

variable {s : Store}

theorem onMembership_snd (op : Id → Id → Operation) (role privilege : String) (pace : Pace) :
    (onMembership now op role privilege s pace).2 =
      s.after ((membershipWork now op role privilege s pace).map (now, ·)) := by
  unfold onMembership membershipWork
  cases (pace.run now (.getRoleNamed role) s).1 with
  | error error => rfl
  | ok answer =>
    cases answer with
    | role r =>
      dsimp only
      cases (pace.run now (.getPrivilegeNamed privilege) s).1 with
      | error error => rfl
      | ok answer =>
        cases answer with
        | privilege p =>
          dsimp only
          rw [report_snd]
          exact pace.run_snd_eq_after now (op r.id p.id) s
        | _ => rfl
    | _ => rfl

theorem execute_snd (now : Stamp) (command : Command) (s : Store) (pace : Pace) :
    (command.execute now s pace).2 = s.after ((command.work now s pace).map (now, ·)) := by
  cases command with
  | grant role privilege => exact onMembership_snd _ role privilege pace
  | revoke role privilege => exact onMembership_snd _ role privilege pace
  | purge top =>
    rw [execute, report_snd]
    exact pace.run_snd_eq_after now _ s
  | _ => exact execute_read rfl now s pace

end Command

namespace Store

def administratorWork (name : String) (s : Store) : List Operation :=
  match s.roleRowNamed? Catalog.administrator with
  | none => []
  | some role => [.createUser name, .createAce (administratorAce (.issue .user (s.issued.users + 1)) role.id)]

/-- The operations that set up a new store. -/
def setUpWork (now : Stamp) (administrator : Option String) : List Operation :=
  .seed :: match administrator with
    | none => []
    | some name => if (Operation.createUser name).fault?.isNone then (seed now {}).administratorWork name else []

variable {s : Store}

theorem createUser_eq_ok {name : String} {user : User} {t : Store} (h : s.createUser now name = .ok (user, t)) :
    user = ⟨.issue .user (s.issued.users + 1), name, now⟩ ∧
      t = { s with users := s.users ++ [user], issued := { s.issued with users := s.issued.users + 1 } } := by
  unfold createUser at h
  split at h
  · exact absurd h (by simp)
  · obtain ⟨rfl, rfl⟩ := Prod.mk.inj (Except.ok.inj h)
    exact ⟨rfl, rfl⟩

theorem addAdministrator_eq_after {name : String} (hfault : (Operation.createUser name).fault? = none)
    {t : Store} (h : s.addAdministrator now name = .ok t) :
    t = s.after ((s.administratorWork name).map (now, ·)) := by
  obtain ⟨user, withUser, role, ace, huser, hrole, hace⟩ := addAdministrator_eq_ok h
  obtain ⟨hid, hroles⟩ : user.id = .issue .user (s.issued.users + 1) ∧ withUser.roles = s.roles := by
    obtain ⟨rfl, rfl⟩ := createUser_eq_ok huser
    exact ⟨rfl, rfl⟩
  have hsame : s.roleRowNamed? Catalog.administrator = some role := by
    rw [← hrole, roleRowNamed?, roleRowNamed?, hroles]
  have hfirst : ((Operation.createUser name).run now s).2 = withUser := by
    rw [Operation.run_eq_perform hfault, Operation.perform, huser]
    rfl
  rw [hid] at hace
  rw [administratorWork, hsame]
  show t = ((Operation.createAce _).run now ((Operation.createUser name).run now s).2).2
  rw [hfirst, Operation.run_eq_perform (administratorAce_fault _ _), Operation.perform, hace]
  rfl

/-- **A set-up is a seeding, and then the making of an administrator.** -/
theorem setUp_eq_after (now : Stamp) (administrator : Option String) :
    (setUp now administrator).2 = after {} ((setUpWork now administrator).map (now, ·)) := by
  have hframe := seed_frame now {}
  have hrole := hasAdministrator_seed now {}
  unfold setUpWork setUp
  rw [List.map_cons, after_cons, Operation.run_seed]
  obtain ⟨seeded, heq⟩ : ∃ seeded, seed now {} = seeded := ⟨_, rfl⟩
  rw [heq] at hframe hrole ⊢
  cases administrator with
  | none => rfl
  | some name =>
    dsimp only
    cases hfault : (Operation.createUser name).fault? with
    | some fault => rfl
    | none =>
      obtain ⟨t, hadd⟩ := addAdministrator_ok hframe.users hframe.aces hrole now name
      rw [hadd]
      exact addAdministrator_eq_after hfault hadd

end Store

namespace Session

/-! ## Events -/

/-- What happens to a session: a request to it, or a command line beside it. -/
inductive Event where
  | request (request : Request)
  | invocation (surroundings : CommandLine.Surroundings) (arguments : List String)

def occur (now : Stamp) (event : Event) (s : Session) : Session :=
  match event with
  | .request request => (s.run now request).2
  | .invocation surroundings arguments => (s.invoke now surroundings arguments).2

/-- The session after events, each with its stamp, the first one first. -/
def through (s : Session) (events : List (Stamp × Event)) : Session :=
  events.foldl (fun s entry => s.occur entry.1 entry.2) s

/-- A session before anything has happened to it. -/
inductive New : Session → Prop
  | inMemory (limit : Option Duration) : New (inMemory limit)
  | onFile (name : String) (limit : Option Duration) : New (onFile name limit)

theorem New.reached {s : Session} (h : New s) : Reached s := by
  cases h with
  | inMemory limit => exact .inMemory limit
  | onFile name limit => exact .onFile name limit

theorem New.store {s : Session} (h : New s) : s.engine.store = {} := by
  cases h <;> rfl

theorem New.connection {s : Session} (h : New s) : s.engine.connection = .free := by
  cases h <;> rfl

theorem Reached.occur {s : Session} (h : Reached s) (now : Stamp) (event : Event) : Reached (s.occur now event) := by
  cases event with
  | request request => exact h.run now request
  | invocation surroundings arguments => exact h.invoke now surroundings arguments

theorem Reached.through {s : Session} (h : Reached s) (events : List (Stamp × Event)) : Reached (s.through events) := by
  induction events generalizing s with
  | nil => exact h
  | cons entry rest ih => exact ih (h.occur entry.1 entry.2)

/-- The events of a session that is asked for operations. -/
def asking (history : History) : List (Stamp × Event) :=
  history.map fun entry => (entry.1, .request (.operation entry.2))

theorem run_operation_engine (now : Stamp) (op : Operation) (s : Session) :
    (s.run now (.operation op)).2.engine = (s.engine.run now op).2 := rfl

/-- The session answers an operation with an error and does nothing. -/
def Refuses (s : Session) (op : Operation) (error : AccessError) : Prop :=
  ∀ now, (s.run now (.operation op)).1 = .error (.access error) ∧ (s.run now (.operation op)).2.engine = s.engine

theorem refuses_of_run {s : Session} {op : Operation} {error : AccessError}
    (h : ∀ now, s.engine.run now op = (.error error, s.engine)) : s.Refuses op error := by
  intro now
  exact ⟨run_operation_eq_error.mpr ⟨error, rfl, congrArg Prod.fst (h now)⟩, congrArg Prod.snd (h now)⟩

/-- Whatever operations a session is asked for, its connection stays what it is. -/
theorem through_asking_connection (history : History) (s : Session) :
    (s.through (asking history)).engine.connection = s.engine.connection := by
  induction history generalizing s with
  | nil => rfl
  | cons entry rest ih => exact (ih _).trans (Engine.run_connection entry.1 entry.2 s.engine)

/-! ## The file -/

theorem opened_present {s : Session} {file : DatabaseFile} (h : s.opened.file = some file) : file.present = true := by
  obtain ⟨f, -, rfl⟩ := Option.map_eq_some_iff.mp h
  rfl

theorem occur_file (now : Stamp) (event : Event) (s : Session) :
    (s.occur now event).file = s.opened.file ∨ s.occur now event = s := by
  cases event with
  | request request =>
    cases request with
    | healthCheck =>
      simp only [occur, run]
      cases s.engine.health <;> exact Or.inl rfl
    | hold =>
      simp only [occur, run]
      cases s.engine.hold <;> exact Or.inl rfl
    | reopen =>
      simp only [occur, run]
      cases s.file with
      | none => exact Or.inr rfl
      | some file => exact Or.inl rfl
    | setUp administrator =>
      simp only [occur, run, setUp]
      cases s.file with
      | none => exact Or.inr rfl
      | some file =>
        dsimp only
        split
        · exact Or.inr rfl
        · exact Or.inl rfl
    | _ => exact Or.inl rfl
  | invocation surroundings arguments =>
    simp only [occur, invoke]
    cases CommandLine.plan surroundings arguments with
    | error report => exact Or.inr rfl
    | ok plan =>
      dsimp only
      split
      · exact Or.inl rfl
      · exact Or.inr rfl

theorem through_file {s : Session} {file : DatabaseFile} (hfile : s.file = some file) (hpresent : file.present = true)
    (events : List (Stamp × Event)) : (s.through events).file = some file := by
  induction events generalizing s with
  | nil => exact hfile
  | cons entry rest ih =>
    refine ih (s := s.occur entry.1 entry.2) ?_
    rcases s.occur_file entry.1 entry.2 with hopened | hsame
    · rw [hopened, opened, hfile, Option.map_some, ← hpresent]
    · rw [hsame, hfile]

/-- As long as there is no file, nothing has happened. -/
theorem Reached.new_of_absent {s : Session} (h : Reached s) {file : DatabaseFile} (hfile : s.file = some file)
    (habsent : file.present = false) : New s := by
  have hstep : ∀ (s t : Session), (t.file = s.opened.file ∨ t = s) →
      (∀ file, s.file = some file → file.present = false → New s) →
      ∀ file, t.file = some file → file.present = false → New t := by
    rintro s t (hopened | rfl) ih file hfile habsent
    · rw [opened_present (hopened ▸ hfile)] at habsent
      exact absurd habsent (by simp)
    · exact ih file hfile habsent
  induction h generalizing file with
  | inMemory limit => exact .inMemory limit
  | onFile name limit => exact .onFile name limit
  | @run s now request _ ih => exact hstep s _ (s.occur_file now (.request request)) (fun _ => ih) file hfile habsent
  | ask expiry now op _ ih => exact hstep _ _ (Or.inl rfl) (fun _ => ih) file hfile habsent
  | @invoke s now surroundings arguments _ ih =>
    exact hstep s _ (s.occur_file now (.invocation surroundings arguments)) (fun _ => ih) file hfile habsent

/-! ## The operations of an event -/

/-- The operations that an event does on the tables: none if it is refused, or is about something else. -/
def work (now : Stamp) (event : Event) (s : Session) : List Operation :=
  match event with
  | .request (.operation op) => if op.fault?.isNone && (s.engine.refusal? op).isNone then [op] else []
  | .request (.setUp administrator) => if s.file.any (!·.present) then Store.setUpWork now administrator else []
  | .request _ => []
  | .invocation surroundings arguments =>
    match CommandLine.plan surroundings arguments with
    | .error _ => []
    | .ok plan =>
      if s.file.any (·.name == plan.file) then
        plan.command.work now s.engine.store { limit := plan.limit, expiry := surroundings.expiry }
      else []

/-- The operations that events do on the tables, each with its stamp. -/
def trace (s : Session) : List (Stamp × Event) → History
  | [] => []
  | (now, event) :: rest => (s.work now event).map (now, ·) ++ (s.occur now event).trace rest

theorem run_operation_store (now : Stamp) (op : Operation) (s : Session) :
    (s.run now (.operation op)).2.engine.store =
      s.engine.store.after ((s.work now (.request (.operation op))).map (now, ·)) := by
  show (s.engine.run now op).2.store =
    s.engine.store.after ((if op.fault?.isNone && (s.engine.refusal? op).isNone then [op] else []).map (now, ·))
  rcases s.engine.run_cases now op with ⟨fault, hfault, hrun⟩ | ⟨hfault, error, hrefusal, hrun⟩ |
    ⟨hfault, hrefusal, answer, t, -, hrun⟩
  · rw [hrun, hfault]
    rfl
  · rw [hrun, hfault, hrefusal]
    rfl
  · have hfree := Engine.refusal_eq_none_iff.mp hrefusal
    rw [(Engine.run_free hfree).2, hfault, hrefusal]
    rfl

theorem setUp_store {s : Session} (h : Reached s) (now : Stamp) (administrator : Option String) :
    (s.run now (.setUp administrator)).2.engine.store =
      s.engine.store.after ((s.work now (.request (.setUp administrator))).map (now, ·)) := by
  show (s.setUp now administrator).2.engine.store = _
  rw [work]
  unfold setUp
  cases hfile : s.file with
  | none => rfl
  | some file =>
    cases hpresent : file.present with
    | true =>
      simp only [hpresent, Option.any_some]
      rfl
    | false =>
      rw [(h.new_of_absent hfile hpresent).store]
      simp only [hpresent, Option.any_some]
      exact Store.setUp_eq_after now administrator

theorem invoke_store (now : Stamp) (surroundings : CommandLine.Surroundings) (arguments : List String) (s : Session) :
    (s.invoke now surroundings arguments).2.engine.store =
      s.engine.store.after ((s.work now (.invocation surroundings arguments)).map (now, ·)) := by
  rw [work]
  unfold invoke
  cases CommandLine.plan surroundings arguments with
  | error report => rfl
  | ok plan =>
    dsimp only
    by_cases hours : s.file.any (·.name == plan.file) = true
    · rw [if_pos hours, if_pos hours, ← plan.command.execute_snd]
      rfl
    · rw [if_neg hours, if_neg hours]
      rfl

/-- An event changes the tables by its operations. -/
theorem occur_store {s : Session} (h : Reached s) (now : Stamp) (event : Event) :
    (s.occur now event).engine.store = s.engine.store.after ((s.work now event).map (now, ·)) := by
  cases event with
  | request request =>
    cases request with
    | operation op => exact run_operation_store now op s
    | setUp administrator => exact setUp_store h now administrator
    | _ => exact run_connection_keeps (by simp) (by simp)
  | invocation surroundings arguments => exact invoke_store now surroundings arguments s

/-- **The tables of a session are those that its history leads to.** -/
theorem through_store {s : Session} (h : Reached s) (events : List (Stamp × Event)) :
    (s.through events).engine.store = s.engine.store.after (s.trace events) := by
  induction events generalizing s with
  | nil => rfl
  | cons entry rest ih =>
    obtain ⟨now, event⟩ := entry
    have hrest := ih (h.occur now event)
    rw [occur_store h now event] at hrest
    rw [trace, Store.after_append, ← hrest]
    rfl

end Session

end ResourceAccess
