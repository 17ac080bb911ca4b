import ResourceAccess.Engine
import ResourceAccess.Proofs.Store.Keyed

/-!
# A procedure that is not disturbed

Statement by statement an operation does what it does as a whole.  Its checks refuse in advance only what the change
itself would refuse, and for the same reason; what a transaction has done is lost with a refusal; and the row that is
read after the commit is the one that was written.

* `Procedure.Gives`: what a part of a procedure comes to inside a transaction
* `Operation.procedure_run`: **the procedure of an operation does its work on the tables**
* `Engine.run_eq`: so an engine that is not disturbed does this work, unless it refuses
-/

namespace ResourceAccess

namespace Procedure

variable {α β γ : Type} {s t : Store}

theorem bind_assoc (p : Procedure α) (next : α → Procedure β) (last : β → Procedure γ) :
    (p >>= next >>= last) = p >>= fun a => next a >>= last := by
  show (p.bind next).bind last = p.bind fun a => (next a).bind last
  induction p with
  | answer a => rfl
  | refuse error => rfl
  | step statement rest ih => exact congrArg (step statement) (funext ih)
  | untimed rest ih => exact congrArg untimed ih

theorem run_attempt (work : Store → Outcome α) (t : Tables) : (attempt work).run none t =
    match work t.seen with
    | .ok (a, s) => (.ok a, (t.write s).committed)
    | .error error => (.error error, t.committed) := by
  obtain ⟨c, _ | s⟩ := t
  all_goals
    show (ofOutcome (work _)).run none _ = _
    simp only [Tables.seen, Tables.after, Option.getD]
    cases work _ <;> rfl

theorem run_attempt_bind (work : Store → Outcome α) (next : α → Procedure β) (t : Tables) :
    (attempt work >>= next).run none t =
      match work t.seen with
      | .ok (a, s) => (next a).run none (t.write s)
      | .error error => (.error error, t.committed) := by
  obtain ⟨c, _ | s⟩ := t
  all_goals
    show ((ofOutcome (work _)).bind next).run none _ = _
    simp only [Tables.seen, Tables.after, Option.getD]
    cases work _ <;> rfl

/-! ## Inside a transaction -/

/-- What a part of a procedure comes to inside a transaction: it goes on with other tables, or all is lost. -/
def Gives (p : Procedure α) (s : Store) (outcome : Outcome α) : Prop :=
  ∀ ⦃β : Type⦄ (next : α → Procedure β) (c : Store), (p >>= next).run none ⟨c, some s⟩ =
    match outcome with
    | .ok (a, t) => (next a).run none ⟨c, some t⟩
    | .error error => (.error error, c)

theorem gives_attempt (work : Store → Outcome α) (s : Store) : Gives (attempt work) s (work s) :=
  fun _ next c => run_attempt_bind work next ⟨c, some s⟩

theorem gives_answer (a : α) (s : Store) : Gives (.answer a) s (.ok (a, s)) := fun _ _ _ => rfl

theorem gives_refuse (error : AccessError) (s : Store) : Gives (.refuse error : Procedure α) s (.error error) :=
  fun _ _ _ => rfl

theorem Gives.bind {p : Procedure α} {next : α → Procedure β} {a : α} {outcome : Outcome β}
    (hp : Gives p s (.ok (a, t))) (hnext : Gives (next a) t outcome) : Gives (p >>= next) s outcome := by
  intro _ last c
  rw [bind_assoc, hp]
  exact hnext last c

theorem Gives.bind_error {p : Procedure α} {error : AccessError} (hp : Gives p s (.error error))
    (next : α → Procedure β) : Gives (p >>= next) s (.error error) := by
  intro _ last c
  rw [bind_assoc, hp]

theorem gives_require_ok {view : Store → Except AccessError α} {a : α} (h : view s = .ok a) :
    Gives (require view) s (.ok (a, s)) := by
  have hgives := gives_attempt (fun s => (view s).map (·, s)) s
  rw [h] at hgives
  exact hgives

theorem gives_require_error {view : Store → Except AccessError α} {error : AccessError} (h : view s = .error error) :
    Gives (require view) s (.error error) := by
  have hgives := gives_attempt (fun s => (view s).map (·, s)) s
  rw [h] at hgives
  exact hgives

theorem gives_look (view : Store → α) (s : Store) : Gives (look view) s (.ok (view s, s)) := gives_require_ok rfl

/-- A check changes nothing, and refuses only what is refused anyhow, and for the same reason. -/
def Foresees (check : Procedure Unit) (s : Store) (outcome : Outcome α) : Prop :=
  Gives check s (.ok ((), s)) ∨ ∃ error, Gives check s (.error error) ∧ outcome = .error error

section Checks

variable {outcome : Outcome α}

theorem foresees_nothing : Foresees (.answer ()) s outcome := Or.inl (gives_answer () s)

theorem foresees_refuse {error : AccessError} (h : outcome = .error error) : Foresees (.refuse error) s outcome :=
  Or.inr ⟨error, gives_refuse error s, h⟩

theorem foresees_require {verdict : Store → Except AccessError Unit}
    (h : ∀ error, verdict s = .error error → outcome = .error error) : Foresees (require verdict) s outcome := by
  cases hverdict : verdict s with
  | ok => exact Or.inl (gives_require_ok hverdict)
  | error error => exact Or.inr ⟨error, gives_require_error hverdict, h error hverdict⟩

theorem Foresees.after {first second : Procedure Unit} (hsecond : Foresees second s outcome)
    (hfirst : Gives first s (.ok ((), s))) : Foresees (do first; second) s outcome := by
  rcases hsecond with hpasses | ⟨error, hrefuses, houtcome⟩
  · exact Or.inl (hfirst.bind hpasses)
  · exact Or.inr ⟨error, hfirst.bind hrefuses, houtcome⟩

end Checks

end Procedure

namespace Operation

open Procedure

variable {α β : Type} {s : Store}

/-! ## The shapes of an operation -/

theorem run_single {work : Store → Reply} (h : ∀ error, (work s).1 = .error error → (work s).2 = s) :
    (single work).run none ⟨s, none⟩ = work s := by
  rw [single, run_attempt, Tables.seen, Option.getD_none]
  rcases hwork : work s with ⟨error | given, after⟩
  · rw [hwork] at h
    rw [← h error rfl]
    rfl
  · rfl

theorem run_creating {check : Procedure Unit} {make : Store → Outcome α} {answer : α → Answer}
    (hcheck : Foresees check s (make s)) :
    (creating check make answer).run none ⟨s, none⟩ = Reply.ofOutcome answer s (make s) := by
  show (check >>= _).run none ⟨s, some s⟩ = _
  rcases hcheck with hpasses | ⟨error, hrefuses, hmake⟩
  · rw [hpasses]
    show (attempt make >>= _).run none ⟨s, some s⟩ = _
    rw [gives_attempt]
    cases make s <;> rfl
  · rw [hrefuses, hmake]
    rfl

theorem run_updating {find : Store → Option β} {check : β → Procedure Unit} {change : Store → Outcome (Option α)}
    {shown : Store → Answer} {answer : α → Answer} (habsent : find s = none → change s = .ok (none, s))
    (hcheck : ∀ current, find s = some current → Foresees (check current) s (change s))
    (hshown : ∀ current changed after, find s = some current → change s = .ok (changed, after) →
      shown after = .ofOption answer changed) :
    (updating find check change shown).run none ⟨s, none⟩ = Reply.ofOutcome (.ofOption answer) s (change s) := by
  show (look find >>= _).run none ⟨s, some s⟩ = _
  rw [gives_look]
  cases hfind : find s with
  | none =>
    rw [habsent hfind]
    rfl
  | some current =>
    show (check current >>= _).run none ⟨s, some s⟩ = _
    rcases hcheck current hfind with hpasses | ⟨error, hrefuses, hchange⟩
    · rw [hpasses]
      show (attempt change >>= _).run none ⟨s, some s⟩ = _
      rw [gives_attempt]
      cases hchange : change s with
      | error error => rfl
      | ok result =>
        obtain ⟨changed, after⟩ := result
        show (.ok (shown after), after) = Reply.write _ (changed, after)
        rw [hshown current changed after hfind hchange]
        rfl
    · rw [hrefuses, hchange]
      rfl

theorem requireRole_of_none {role : Id} (h : s.roleRow? role = none) :
    s.requireRole role = .error (.notFound .role role) := by
  rw [Store.requireRole, ← List.isSome_find?, show s.roles.find? (·.id == role) = none from h]
  rfl

theorem requireRole_of_some {role : Id} {row : RoleRow} (h : s.roleRow? role = some row) :
    s.requireRole role = .ok () := by
  rw [Store.requireRole, ← List.isSome_find?, show s.roles.find? (·.id == role) = some row from h]
  rfl

theorem run_regrouping_absent {role : Id} (hrow : s.roleRow? role = none) (change : Procedure Unit) :
    (regrouping role change).run none ⟨s, none⟩ = (.error (.notFound .role role), s) := by
  show (require (·.requireRole role) >>= _).run none ⟨s, some s⟩ = _
  rw [gives_require_error (requireRole_of_none hrow)]

theorem run_regrouping_refused {role : Id} {row : RoleRow} (hrow : s.roleRow? role = some row)
    {change : Procedure Unit} {error : AccessError} (hchange : Gives change s (.error error)) :
    (regrouping role change).run none ⟨s, none⟩ = (.error error, s) := by
  show (require (·.requireRole role) >>= _).run none ⟨s, some s⟩ = _
  rw [gives_require_ok (requireRole_of_some hrow)]
  show (change >>= _).run none ⟨s, some s⟩ = _
  rw [hchange]

/-- The role is shown as it is after the commit. -/
theorem run_regrouping {role : Id} {row row' : RoleRow} (hrow : s.roleRow? role = some row) {change : Procedure Unit}
    {after : Store} (hchange : Gives change s (.ok ((), after))) (hrow' : after.roleRow? role = some row') :
    (regrouping role change).run none ⟨s, none⟩ = (.ok (.role (after.load row')), after) := by
  have hrole : after.role? role = some (after.load row') := by rw [Store.role?, hrow', Option.map_some]
  show (require (·.requireRole role) >>= _).run none ⟨s, some s⟩ = _
  rw [gives_require_ok (requireRole_of_some hrow)]
  show (change >>= _).run none ⟨s, some s⟩ = _
  rw [hchange]
  show (require _).run none ⟨after, none⟩ = _
  rw [require, run_attempt, Tables.seen, Option.getD_none, hrole]
  rfl

theorem foresees_free {kind : Entity} {name : String} {taken : Store → Bool} {outcome : Outcome α}
    (h : taken s = true → outcome = .error (.conflict kind name)) : Foresees (requireFree kind name taken) s outcome := by
  refine foresees_require fun error herror => ?_
  by_cases htaken : taken s = true
  · rw [if_pos htaken] at herror
    rw [h htaken, Except.error.inj herror]
  · rw [if_neg htaken] at herror
    exact absurd herror (by simp)

theorem foresees_newName {kind : Entity} {current : String} {given : Option String} {taken : Store → String → Bool}
    {outcome : Outcome α} (h : ∀ name, given = some name → taken s name = true → outcome = .error (.conflict kind name)) :
    Foresees (requireNewName kind current given taken) s outcome := by
  cases hgiven : given with
  | none => exact foresees_nothing
  | some name =>
    show Foresees (if name = current then .answer () else requireFree kind name (taken · name)) s outcome
    split
    · exact foresees_nothing
    · exact foresees_free (h name hgiven)

/-! ## Rows that are changed in place -/

theorem find_map_of_id {rows : List β} {id : β → Id} {change : β → β} (hid : ∀ r, id (change r) = id r) (key : Id) :
    (rows.map change).find? (id · == key) = (rows.find? (id · == key)).map change := by
  rw [List.find?_map]
  congr 2
  funext r
  show (id (change r) == key) = (id r == key)
  rw [hid]

theorem find_replaced {rows : List β} {id : β → Id} {key : Id} {row changed : β}
    (hfound : rows.find? (id · == key) = some row) (hid : id changed = key) :
    (rows.map fun r => if id r = key then changed else r).find? (id · == key) = some changed := by
  have hkeeps : ∀ r, id (if id r = key then changed else r) = id r := by
    intro r
    split
    · rename_i hr
      rw [hid, hr]
    · rfl
  have hrow : id row = key := (find_key_eq_some hfound).2
  rw [find_map_of_id hkeeps, hfound, Option.map_some, if_pos hrow]

theorem roleRow_touchRole {row : RoleRow} {id : Id} (hrow : s.roleRow? id = some row) (now : Stamp) :
    (s.touchRole now id).roleRow? id = some { row with updated := now } := by
  have hkeeps : ∀ r : RoleRow, (if r.id = id then { r with updated := now } else r).id = r.id := by
    intro r
    split <;> rfl
  have hid : row.id = id := (find_key_eq_some hrow).2
  show (s.roles.map _).find? _ = _
  rw [find_map_of_id hkeeps]
  show Option.map _ (s.roleRow? id) = _
  rw [hrow, Option.map_some, if_pos hid]

/-! ## Each operation -/

variable {now : Stamp}

theorem run_createUser (name : String) :
    ((createUser name).procedure now).run none ⟨s, none⟩ = (createUser name).perform now s := by
  show (requireFree .user name _ >>= _).run none ⟨s, none⟩ = Reply.ofOutcome .user s (s.createUser now name)
  rw [requireFree, require, run_attempt_bind, Tables.seen, Option.getD_none]
  by_cases htaken : s.users.any (·.name == name) = true
  · rw [if_pos htaken, Store.createUser, if_pos htaken]
    rfl
  · rw [if_neg htaken]
    show (attempt _ >>= _).run none ⟨s, none⟩ = _
    rw [run_attempt_bind, Tables.seen, Option.getD_none]
    cases s.createUser now name <;> rfl

theorem run_deleteRole (id : Id) :
    ((deleteRole id).procedure now).run none ⟨s, none⟩ = (deleteRole id).perform now s := by
  show (look (·.roleRow? id) >>= _).run none ⟨s, some s⟩ = Reply.ofOutcome .flag s (s.deleteRole id)
  rw [gives_look]
  cases hrow : s.roleRow? id with
  | none =>
    simp only [Store.deleteRole, hrow]
    rfl
  | some current =>
    by_cases hbuiltin : current.builtin = true
    · simp only [Store.deleteRole, hrow, hbuiltin, if_true]
      rfl
    · simp only [hbuiltin]
      show (attempt _ >>= _).run none ⟨s, some s⟩ = _
      rw [gives_attempt]
      cases s.deleteRole id <;> rfl

theorem run_addPrivilege (role privilege : Id) :
    ((addPrivilege role privilege).procedure now).run none ⟨s, none⟩ = (addPrivilege role privilege).perform now s := by
  show (regrouping role (attaching now role privilege)).run none ⟨s, none⟩ =
    Reply.ofOutcome .role s (s.addPrivilege now role privilege)
  have hadd : ∀ s : Store, Gives (attempt fun s => .ok (!s.memberships.contains ⟨role, privilege⟩, s.attach role privilege))
      s (.ok (!s.memberships.contains ⟨role, privilege⟩, s.attach role privilege)) := gives_attempt _
  cases hrow : s.roleRow? role with
  | none =>
    rw [run_regrouping_absent hrow]
    simp only [Store.addPrivilege, hrow]
    rfl
  | some row =>
    cases hprivilege : s.privilege? privilege with
    | none =>
      have hrefused : Gives (attaching now role privilege) s (.error (.notFound .privilege privilege)) := by
        refine Gives.bind_error (gives_require_error ?_) _
        rw [hprivilege]
        rfl
      rw [run_regrouping_refused hrow hrefused]
      simp only [Store.addPrivilege, hrow, hprivilege]
      rfl
    | some p =>
      have hcheck : Gives (require fun s => if (s.privilege? privilege).isSome then .ok ()
          else .error (.notFound .privilege privilege)) s (.ok ((), s)) :=
        gives_require_ok (by rw [hprivilege]; rfl)
      by_cases hmember : s.memberships.contains ⟨role, privilege⟩ = true
      · have hsame : s.attach role privilege = s := by rw [Store.attach, if_pos hmember]
        have hgives : Gives (attaching now role privilege) s (.ok ((), s)) := by
          refine hcheck.bind (Gives.bind (hadd s) ?_)
          rw [hmember, hsame]
          exact gives_answer () s
        rw [run_regrouping hrow hgives hrow]
        simp only [Store.addPrivilege, hrow, hprivilege, hmember, if_true]
        rfl
      · have hrow' : (s.attach role privilege).roleRow? role = some row := by
          rw [Store.attach, if_neg hmember]
          exact hrow
        have hgives : Gives (attaching now role privilege) s (.ok ((), (s.attach role privilege).touchRole now role)) := by
          refine hcheck.bind (Gives.bind (hadd s) ?_)
          rw [Bool.eq_false_iff.mpr hmember]
          exact gives_attempt _ _
        rw [run_regrouping hrow hgives (roleRow_touchRole hrow' now)]
        simp only [Store.addPrivilege, hrow, hprivilege, hmember]
        rfl

theorem run_removePrivilege (role privilege : Id) :
    ((removePrivilege role privilege).procedure now).run none ⟨s, none⟩ =
      (removePrivilege role privilege).perform now s := by
  show (regrouping role (detaching now role privilege)).run none ⟨s, none⟩ =
    Reply.ofOutcome .role s (s.removePrivilege now role privilege)
  let detached : Store := { s with memberships := s.memberships.filter (· != Membership.mk role privilege) }
  have hremove : Gives (attempt fun s => .ok (s.memberships.contains ⟨role, privilege⟩,
      { s with memberships := s.memberships.filter (· != Membership.mk role privilege) })) s
      (.ok (s.memberships.contains ⟨role, privilege⟩, detached)) := gives_attempt _ s
  cases hrow : s.roleRow? role with
  | none =>
    rw [run_regrouping_absent hrow]
    simp only [Store.removePrivilege, hrow]
    rfl
  | some row =>
    by_cases hmember : s.memberships.contains ⟨role, privilege⟩ = true
    · have hgives : Gives (detaching now role privilege) s (.ok ((), detached.touchRole now role)) := by
        refine hremove.bind ?_
        rw [hmember]
        exact gives_attempt _ _
      rw [run_regrouping hrow hgives (roleRow_touchRole hrow now)]
      simp only [Store.removePrivilege, hrow, hmember, if_true]
      rfl
    · have hrefused : Gives (detaching now role privilege) s (.error (.notMember privilege role)) := by
        refine hremove.bind ?_
        rw [Bool.eq_false_iff.mpr hmember]
        exact gives_refuse _ _
      rw [run_regrouping_refused hrow hrefused]
      simp only [Store.removePrivilege, hrow, hmember]
      rfl

theorem run_each_bind (writes : List (Store → Store)) (next : Unit → Procedure β) (c s : Store) :
    (each writes >>= next).run none ⟨c, some s⟩ = (next ()).run none ⟨c, some (writes.foldl (fun s f => f s) s)⟩ := by
  induction writes generalizing s with
  | nil => rfl
  | cons f rest ih => exact ih (f s)

theorem foldl_seeding : (seeding now).foldl (fun s f => f s) s = s.seed now := by
  rw [seeding, List.foldl_append, List.foldl_append, List.foldl_map, List.foldl_map, List.foldl_map]
  rfl

theorem run_writing (writes : List (Store → Store)) :
    (writing writes).run none ⟨s, none⟩ = (.ok .done, writes.foldl (fun s f => f s) s) := by
  show (each writes >>= _).run none ⟨s, some s⟩ = _
  rw [run_each_bind]
  rfl

theorem createAce_of_accept {new : NewAce} {error : AccessError} (h : s.accept new = .error error) :
    s.createAce now new = .error error := by
  rw [Store.createAce, h]

theorem run_createAce (new : NewAce) :
    ((createAce new).procedure now).run none ⟨s, none⟩ = (createAce new).perform now s := by
  refine run_creating ?_
  cases hrole : s.requireRole new.role with
  | error error =>
    have haccept : s.accept new = .error error := by
      simp only [Store.accept, hrole]
      rfl
    exact Or.inr ⟨error, (gives_require_error hrole).bind_error _, createAce_of_accept haccept⟩
  | ok =>
    refine (foresees_require fun error herror => createAce_of_accept ?_).after (gives_require_ok hrole)
    simp only [Store.accept, hrole]
    cases hsubject : new.subject? with
    | none =>
      rw [hsubject] at herror
      obtain rfl := Except.error.inj herror
      rfl
    | some subject =>
      rw [hsubject] at herror
      simp only at herror
      simp only [herror]
      rfl

theorem run_updateRole (id : Id) (update : RoleUpdate) :
    ((updateRole id update).procedure now).run none ⟨s, none⟩ = (updateRole id update).perform now s := by
  refine run_updating (fun hnone => ?_) (fun current hcurrent => ?_) (fun current changed after hcurrent hchange => ?_)
  · rw [Store.updateRole, hnone]
  · by_cases hbuiltin : current.builtin = true
    · simp only [hbuiltin, if_true]
      refine foresees_refuse ?_
      simp only [Store.updateRole, hcurrent, hbuiltin, if_true]
    · simp only [hbuiltin]
      refine foresees_newName fun name hgiven htaken => ?_
      simp only [Store.updateRole, hcurrent, hbuiltin, hgiven, Option.getD_some, htaken, if_true]
      rfl
  · have hid : current.id = id := (find_key_eq_some hcurrent).2
    simp only [Store.updateRole, hcurrent] at hchange
    split at hchange
    · exact absurd hchange nofun
    · split at hchange
      · exact absurd hchange nofun
      · obtain ⟨rfl, rfl⟩ := Prod.mk.inj (Except.ok.inj hchange)
        rw [Store.role?, Store.roleRow?, find_replaced hcurrent (by exact hid)]
        rfl

theorem run_updatePrivilege (id : Id) (update : PrivilegeUpdate) :
    ((updatePrivilege id update).procedure now).run none ⟨s, none⟩ = (updatePrivilege id update).perform now s := by
  refine run_updating (fun hnone => ?_) (fun current hcurrent => ?_) (fun current changed after hcurrent hchange => ?_)
  · rw [Store.updatePrivilege, hnone]
  · refine foresees_newName fun name hgiven htaken => ?_
    simp only [Store.updatePrivilege, hcurrent, hgiven, Option.getD_some, htaken, if_true]
  · have hid : current.id = id := (find_key_eq_some hcurrent).2
    simp only [Store.updatePrivilege, hcurrent] at hchange
    split at hchange
    · exact absurd hchange nofun
    · obtain ⟨rfl, rfl⟩ := Prod.mk.inj (Except.ok.inj hchange)
      rw [Store.privilege?, find_replaced hcurrent (by exact hid)]

theorem run_updateAce (id : Id) (update : AceUpdate) :
    ((updateAce id update).procedure now).run none ⟨s, none⟩ = (updateAce id update).perform now s := by
  refine run_updating (fun hnone => ?_) (fun current hcurrent => ?_) (fun current changed after hcurrent hchange => ?_)
  · rw [Store.updateAce, hnone]
  · cases hrole : update.role with
    | none => exact foresees_nothing
    | some role =>
      refine foresees_require fun error herror => ?_
      simp only [Store.updateAce, hcurrent, Store.acceptChange, hrole, herror]
      rfl
  · have hid : current.id = id := (find_key_eq_some hcurrent).2
    simp only [Store.updateAce, hcurrent] at hchange
    split at hchange
    · exact absurd hchange nofun
    · obtain ⟨rfl, rfl⟩ := Prod.mk.inj (Except.ok.inj hchange)
      rw [Store.ace?, find_replaced hcurrent (by exact hid)]

/-- **The procedure of an operation does its work on the tables.** -/
theorem procedure_run (now : Stamp) (op : Operation) (s : Store) :
    (op.procedure now).run none ⟨s, none⟩ = op.perform now s := by
  cases op with
  | createUser name => exact run_createUser name
  | createRole name description =>
    refine run_creating (foresees_free fun htaken => ?_)
    rw [Store.createRole, if_pos htaken]
  | createPrivilege name description =>
    refine run_creating (foresees_free fun htaken => ?_)
    rw [Store.createPrivilege, if_pos htaken]
  | createAce new => exact run_createAce new
  | updateRole id update => exact run_updateRole id update
  | updatePrivilege id update => exact run_updatePrivilege id update
  | updateAce id update => exact run_updateAce id update
  | deleteRole id => exact run_deleteRole id
  | addPrivilege role privilege => exact run_addPrivilege role privilege
  | removePrivilege role privilege => exact run_removePrivilege role privilege
  | seed =>
    show (writing (seeding now)).run none ⟨s, none⟩ = (.ok .done, s.seed now)
    rw [run_writing, foldl_seeding]
  | createGroup name =>
    refine run_single fun error h => ?_
    rw [perform] at h ⊢
    cases hresult : s.createGroup now name with
    | error _ => rfl
    | ok result =>
      rw [hresult] at h
      exact absurd h nofun
  | _ => exact run_single fun error h => by first | rfl | exact absurd h nofun

end Operation

/-- An engine that is not disturbed looks at the input, asks for the connection, and does the work on the tables. -/
theorem Engine.run_eq (now : Stamp) (op : Operation) (e : Engine) : e.run now op =
    match op.fault? with
    | some fault => (.error (.invalid fault), e)
    | none =>
      match e.refusal? op with
      | some error => (.error error, e)
      | none => ((op.perform now e.store).1, { e with store := (op.perform now e.store).2 }) := by
  unfold run attempt
  cases op.fault? with
  | some fault => rfl
  | none =>
    cases e.refusal? op with
    | some error => rfl
    | none =>
      have hdeadline : (do return ⟨← e.patience op, ← none⟩ : Option Deadline) = none := by
        cases e.patience op <;> rfl
      dsimp only
      rw [hdeadline, op.procedure_run]

end ResourceAccess
