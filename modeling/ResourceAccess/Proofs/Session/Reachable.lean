import ResourceAccess.CommandLine.Invocation
import ResourceAccess.Proofs.Procedure.Attempt

/-!
# Stores that sessions lead to

In a session a store is not changed by single operations alone: there is the set-up of a new file, and there are
command lines.  They all amount to operations, so what holds of every reachable store holds throughout a session,
whatever becomes of its connection.

* `Store.setUp_reachable`: a store that was set up is reachable
* `Session.Reached.store`: **the store of a session is reachable**
-/

namespace ResourceAccess

variable {now : Stamp} {s : Store}

namespace Reachable

theorem atPace (h : Reachable s) (pace : Pace) (now : Stamp) (op : Operation) : Reachable (pace.run now op s).2 := by
  rcases pace.run_snd now op s with hkept | hrun
  · rw [hkept]
    exact h
  · rw [hrun]
    exact h.step now op

theorem perform (h : Reachable s) {op : Operation} (hfault : op.fault? = none) : Reachable (op.perform now s).2 := by
  have hstep := h.step now op
  rw [Operation.run, hfault] at hstep
  exact hstep

theorem seed (h : Reachable s) : Reachable (s.seed now) := by
  have hstep : Reachable (Operation.seed.perform now s).2 := h.perform rfl
  simpa only [Operation.perform] using hstep

theorem createUser (h : Reachable s) {name : String} (hfault : (Operation.createUser name).fault? = none)
    {user : User} {after : Store} (hcreate : s.createUser now name = .ok (user, after)) : Reachable after := by
  have hstep : Reachable ((Operation.createUser name).perform now s).2 := h.perform hfault
  rw [Operation.perform, hcreate] at hstep
  exact hstep

theorem createAce (h : Reachable s) {new : NewAce} (hfault : (Operation.createAce new).fault? = none)
    {ace : Ace} {after : Store} (hcreate : s.createAce now new = .ok (ace, after)) : Reachable after := by
  have hstep : Reachable ((Operation.createAce new).perform now s).2 := h.perform hfault
  rw [Operation.perform, hcreate] at hstep
  exact hstep

end Reachable

/-! ## Setting up -/

namespace Store

def administratorAce (user role : Id) : NewAce :=
  { NewAce.forUser .root user role with allowed := some true, propagates := some true }

theorem administratorAce_fault (user role : Id) : (Operation.createAce (administratorAce user role)).fault? = none := by
  have hroot : Path.root.fault? = none := by decide
  show Option.map InvalidInput.path Path.root.fault? = none
  rw [hroot, Option.map_none]

theorem addAdministrator_eq_ok {name : String} {after : Store} (h : s.addAdministrator now name = .ok after) :
    ∃ user withUser role ace, s.createUser now name = .ok (user, withUser) ∧
      withUser.roleRowNamed? Catalog.administrator = some role ∧
      withUser.createAce now (administratorAce user.id role.id) = .ok (ace, after) := by
  unfold addAdministrator at h
  cases huser : s.createUser now name with
  | error e =>
    rw [huser] at h
    exact absurd h (by simp [bind, Except.bind])
  | ok created =>
    obtain ⟨user, withUser⟩ := created
    simp only [huser, bind, Except.bind] at h
    cases hrole : withUser.roleRowNamed? Catalog.administrator with
    | none =>
      rw [hrole] at h
      exact absurd h (by simp [throw, throwThe, MonadExceptOf.throw])
    | some role =>
      simp only [hrole] at h
      split at h
      · exact absurd h (by simp)
      · rename_i made hace
        obtain rfl := Except.ok.inj h
        exact ⟨user, withUser, role, made.1, rfl, hrole, hace⟩

theorem addAdministrator_reachable (h : Reachable s) {name : String}
    (hfault : (Operation.createUser name).fault? = none) {after : Store}
    (hadd : s.addAdministrator now name = .ok after) : Reachable after := by
  obtain ⟨user, withUser, role, ace, huser, -, hace⟩ := addAdministrator_eq_ok hadd
  exact (h.createUser hfault huser).createAce (administratorAce_fault user.id role.id) hace

/-- Both a set-up that fails half-way and one that succeeds are histories. -/
theorem setUp_reachable (now : Stamp) (administrator : Option String) :
    Reachable (Store.setUp now administrator).2 := by
  have hseeded : Reachable (seed now {}) := Reachable.empty.seed
  unfold setUp
  -- the seeded store is too large to be looked at, and nothing depends on what is in it
  obtain ⟨seeded, heq⟩ : ∃ seeded, seed now {} = seeded := ⟨_, rfl⟩
  rw [heq] at hseeded ⊢
  cases administrator with
  | none => exact hseeded
  | some name =>
    dsimp only
    cases hfault : (Operation.createUser name).fault? with
    | some fault => exact hseeded
    | none =>
      dsimp only
      cases hadd : addAdministrator now name seeded with
      | error e => exact hseeded
      | ok after => exact addAdministrator_reachable hseeded hfault hadd

end Store

/-! ## Command lines -/

namespace Command

theorem report_snd (reply : Reply) : (report reply).2 = reply.2 := by
  obtain ⟨_ | _, _⟩ := reply
  · rfl
  · rfl

theorem report_of_answer {reply : Reply} {answer : Answer} (h : reply.1 = .ok answer) :
    (report reply).1 = .printed answer := by
  obtain ⟨_, _⟩ := reply
  subst h
  rfl

theorem report_of_error {reply : Reply} {error : AccessError} (h : reply.1 = .error error) :
    (report reply).1 = .failed (.access error) := by
  obtain ⟨_, _⟩ := reply
  subst h
  rfl

theorem onMembership_reachable (h : Reachable s) (op : Id → Id → Operation) (role privilege : String) (pace : Pace) :
    Reachable (onMembership now op role privilege s pace).2 := by
  unfold onMembership
  split
  · exact h
  · split
    · exact h
    · rw [report_snd]
      exact h.atPace pace now _
    · exact h
  · exact h

theorem execute_reachable (h : Reachable s) (now : Stamp) (command : Command) (pace : Pace) :
    Reachable (command.execute now s pace).2 := by
  cases command with
  | check user path privilege explained =>
    rw [execute, report_snd]
    exact h.atPace pace now (.explain user path privilege)
  | grant role privilege => exact onMembership_reachable h _ role privilege pace
  | revoke role privilege => exact onMembership_reachable h _ role privilege pace
  | _ =>
    rw [execute, report_snd]
    exact h.atPace pace now _

end Command

/-! ## Sessions -/

theorem Engine.run_reachable {e : Engine} (h : Reachable e.store) (now : Stamp) (op : Operation) :
    Reachable (e.run now op).2.store := by
  rcases e.run_cases now op with ⟨fault, -, hrun⟩ | ⟨-, error, -, hrun⟩ | ⟨hfault, hrefusal, -⟩
  · rw [hrun]
    exact h
  · rw [hrun]
    exact h
  · rw [run_eq_of_free (refusal_eq_none_iff.mp hrefusal)]
    exact h.step now op

theorem Engine.attempt_reachable {e : Engine} (h : Reachable e.store) (expiry : Option Expiry) (now : Stamp)
    (op : Operation) : Reachable (e.attempt expiry now op).2.store := by
  rcases e.attempt_snd expiry now op with hkept | hrun
  · rw [hkept]
    exact h
  · rw [hrun]
    exact run_reachable h now op

namespace Session

theorem ask_eq_ok {s : Session} {expiry : Option Expiry} {op : Operation} {answer : Answer} :
    (s.ask expiry now op).1 = .ok answer ↔ (s.engine.attempt expiry now op).1 = .ok answer := by
  show (s.engine.attempt expiry now op).1.mapError Failure.access = .ok answer ↔ _
  cases (s.engine.attempt expiry now op).1 with
  | ok answered =>
    show (.ok answered : Except Failure Answer) = .ok answer ↔ (.ok answered : Except AccessError Answer) = .ok answer
    rw [Except.ok.injEq, Except.ok.injEq]
  | error error =>
    show (.error (.access error) : Except Failure Answer) = .ok answer ↔ _
    exact iff_of_false nofun nofun

theorem ask_eq_error {s : Session} {expiry : Option Expiry} {op : Operation} {failure : Failure} :
    (s.ask expiry now op).1 = .error failure ↔
      ∃ error, failure = .access error ∧ (s.engine.attempt expiry now op).1 = .error error := by
  show (s.engine.attempt expiry now op).1.mapError Failure.access = .error failure ↔ _
  cases (s.engine.attempt expiry now op).1 with
  | ok answered =>
    show (.ok answered : Except Failure Answer) = .error failure ↔ _
    exact iff_of_false nofun nofun
  | error error =>
    show (.error (.access error) : Except Failure Answer) = .error failure ↔ _
    constructor
    · intro h
      exact ⟨error, (Except.error.inj h).symm, rfl⟩
    · rintro ⟨error', rfl, h⟩
      rw [Except.error.inj h]

theorem run_operation_eq_ok {s : Session} {op : Operation} {answer : Answer} :
    (s.run now (.operation op)).1 = .ok answer ↔ (s.engine.run now op).1 = .ok answer := ask_eq_ok

theorem run_operation_eq_error {s : Session} {op : Operation} {failure : Failure} :
    (s.run now (.operation op)).1 = .error failure ↔
      ∃ error, failure = .access error ∧ (s.engine.run now op).1 = .error error := ask_eq_error

/-- The sessions that come about: a new one, and then requests to it, operations whose time limit may run out, and
command lines beside it. -/
inductive Reached : Session → Prop where
  | inMemory (limit : Option Duration) : Reached (inMemory limit)
  | onFile (name : String) (limit : Option Duration) : Reached (onFile name limit)
  | run {s : Session} (now : Stamp) (request : Request) : Reached s → Reached (s.run now request).2
  | ask {s : Session} (expiry : Option Expiry) (now : Stamp) (op : Operation) :
    Reached s → Reached (s.ask expiry now op).2
  | invoke {s : Session} (now : Stamp) (surroundings : CommandLine.Surroundings) (arguments : List String) :
    Reached s → Reached (s.invoke now surroundings arguments).2

theorem setUp_reachable {s : Session} (h : Reachable s.engine.store) (now : Stamp) (administrator : Option String) :
    Reachable (s.setUp now administrator).2.engine.store := by
  unfold setUp
  cases s.file with
  | none => exact h
  | some file =>
    dsimp only
    by_cases hpresent : file.present = true
    · rw [if_pos hpresent]
      exact h
    · rw [if_neg hpresent]
      exact Store.setUp_reachable now administrator

theorem run_reachable {s : Session} (h : Reachable s.engine.store) (now : Stamp) (request : Request) :
    Reachable (s.run now request).2.engine.store := by
  cases request with
  | operation op => exact Engine.run_reachable h now op
  | setUp administrator => exact setUp_reachable h now administrator
  | healthCheck =>
    rw [run]
    cases s.engine.health <;> exact h
  | hold =>
    rw [run, Engine.hold]
    cases s.engine.connection <;> exact h
  | release =>
    have hstore : s.engine.release.store = s.engine.store := by
      rw [Engine.release]
      cases s.engine.connection <;> rfl
    exact hstore ▸ h
  | reopen =>
    rw [run]
    cases s.file <;> exact h
  | _ => exact h

theorem invoke_reachable {s : Session} (h : Reachable s.engine.store) (now : Stamp)
    (surroundings : CommandLine.Surroundings) (arguments : List String) :
    Reachable (s.invoke now surroundings arguments).2.engine.store := by
  unfold invoke
  cases CommandLine.plan surroundings arguments with
  | error report => exact h
  | ok plan =>
    dsimp only
    by_cases hours : s.file.any (·.name == plan.file) = true
    · rw [if_pos hours]
      exact Command.execute_reachable h now plan.command _
    · rw [if_neg hours]
      exact h

/-- **The store of a session is reachable.** -/
theorem Reached.store {s : Session} (h : Reached s) : Reachable s.engine.store := by
  induction h with
  | inMemory limit => exact Reachable.empty
  | onFile name limit => exact Reachable.empty
  | run now request _ ih => exact run_reachable ih now request
  | ask expiry now op _ ih => exact Engine.attempt_reachable ih expiry now op
  | invoke now surroundings arguments _ ih => exact invoke_reachable ih now surroundings arguments

end Session

end ResourceAccess
