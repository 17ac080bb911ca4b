import Mathlib.Data.List.TakeWhile
import ResourceAccess.Payload.Tables
import ResourceAccess.Proofs.Payload.Coding
import ResourceAccess.Proofs.Session.Reachable
import ResourceAccess.Proofs.Store.Candidates

/-!
# What a session's tables can be relied on for

Through all requests, failed ones and set-ups among them, through command lines and reopening, the tables refer to rows
that are there, and the names and paths in them are valid.  An entry is kept with the word of its kind and one column
for each kind of subject.  That word is always one of the two there are, so an entry can always be read.

* `Store.Intact`: what is promised, table by table
* `Store.Sound.intact`: sound stores keep the promise
* `Session.tables_intact`: **the tables of a session are intact, and no reading of an entry fails for its kind**
-/

namespace ResourceAccess

theorem Text.trimBlank_eq_nil_iff {cs : List Char} : trimBlank cs = [] ↔ ∀ c ∈ cs, isBlankChar c = true := by
  induction cs with
  | nil => simp [trimBlank]
  | cons c rest ih =>
    by_cases hc : isBlankChar c = true
    · rw [trimBlank, List.dropWhile_cons_of_pos hc, ← trimBlank, ih]
      simp [hc]
    · rw [trimBlank, List.dropWhile_cons_of_neg hc, List.reverse_eq_nil_iff, List.dropWhile_eq_nil_iff]
      simp only [List.mem_reverse]

/-! ## The promise -/

namespace Store

/-- Of the two columns for subjects, the one of the kind names a row and the other is empty. -/
inductive BindsOne (s : Store) : SubjectKind → Option Id → Option Id → Prop
  | user {u : User} (hrow : u ∈ s.users) : BindsOne s .user (some u.id) none
  | group {g : Group} (hrow : g ∈ s.groups) : BindsOne s .group none (some g.id)

/-- References lead to rows, and names and paths are valid. -/
structure Intact (s : Store) : Prop where
  membership_role : ∀ m ∈ s.memberships, ∃ r ∈ s.roles, r.id = m.role
  membership_privilege : ∀ m ∈ s.memberships, ∃ p ∈ s.privileges, p.id = m.privilege
  ace_role : ∀ a ∈ s.aces, ∃ r ∈ s.roles, r.id = a.role
  ace_subject : ∀ a ∈ s.aces, s.BindsOne a.subject.kind a.subject.user? a.subject.group?
  ace_path : ∀ a ∈ s.aces, a.path.fault? = none
  privilege_name : ∀ p ∈ s.privileges, PrivilegeName.isValid p.name = true
  role_name : ∀ r ∈ s.roles, Text.trimBlank r.name.toList ≠ []
  username : ∀ u ∈ s.users, Text.trimBlank u.name.toList ≠ []
  group_name : ∀ g ∈ s.groups, Text.trimBlank g.name.toList ≠ []

theorem bindsOne_of_mem_subjects {s : Store} {subject : Subject} (h : subject ∈ s.subjects) :
    s.BindsOne subject.kind subject.user? subject.group? := by
  rcases List.mem_append.mp h with h | h
  · obtain ⟨u, hu, rfl⟩ := List.mem_map.mp h
    exact .user hu
  · obtain ⟨g, hg, rfl⟩ := List.mem_map.mp h
    exact .group hg

theorem trimBlank_ne_nil {name : String} (h : Text.isBlank name = false) : Text.trimBlank name.toList ≠ [] := by
  intro hnil
  have hblank : Text.isBlank name = true := List.all_eq_true.mpr (Text.trimBlank_eq_nil_iff.mp hnil)
  rw [h] at hblank
  exact absurd hblank (by simp)

theorem Sound.intact {s : Store} (h : s.Sound) : s.Intact where
  membership_role := fun m hm => List.mem_map.mp (h.membership_role m hm)
  membership_privilege := fun m hm => List.mem_map.mp (h.membership_privilege m hm)
  ace_role := fun a ha => List.mem_map.mp (h.ace_role a ha)
  ace_subject := fun a ha => bindsOne_of_mem_subjects (h.ace_subject a ha)
  ace_path := h.aces.keys_sound
  privilege_name := h.privileges.keys_sound
  role_name := fun r hr => trimBlank_ne_nil (h.roles.keys_sound r hr)
  username := fun u hu => trimBlank_ne_nil (h.users.keys_sound u hu)
  group_name := fun g hg => trimBlank_ne_nil (h.groups.keys_sound g hg)

end Store

/-! ## Reading -/

namespace Operation

variable {now : Stamp} {s t : Store} {op : Operation}

theorem fault_of_isRead (h : op.isRead = true) : op.fault? = none := by
  cases op with
  | createUser | createGroup | createRole | updateRole | createPrivilege | updatePrivilege | createAce | updateAce =>
    exact absurd h Bool.false_ne_true
  | _ => rfl

/-- The kind of an entry is never found wanting in an input: it is one of the two. -/
theorem fault_ne_subjectKind (op : Operation) (text : String) : op.fault? ≠ some (.subjectKind text) := by
  have hname : ∀ blank name, blank ≠ .subjectKind text → nameFault? blank name ≠ some (.subjectKind text) := by
    intro blank name hne
    rw [nameFault?]
    split <;> simp [hne]
  have hprivilege : ∀ name, privilegeNameFault? name ≠ some (.subjectKind text) := by
    intro name
    rw [privilegeNameFault?]
    split <;> simp
  cases op with
  | createUser name => exact hname _ _ (by simp)
  | createGroup name => exact hname _ _ (by simp)
  | createRole name => exact hname _ _ (by simp)
  | updateRole id update =>
    rw [fault?, Ne, Option.bind_eq_some_iff]
    rintro ⟨name, -, hfault⟩
    exact hname _ _ (by simp) hfault
  | createPrivilege name => exact hprivilege name
  | updatePrivilege id update =>
    rw [fault?, Ne, Option.bind_eq_some_iff]
    rintro ⟨name, -, hfault⟩
    exact hprivilege name hfault
  | createAce new => simp [fault?]
  | updateAce id update => simp [fault?, Option.bind_eq_some_iff]
  | _ => simp [fault?]

theorem Effect.read_answers (hread : op.isRead = true) {reply : Reply} (h : Effect now s op reply) :
    ∃ answer, reply.1 = .ok answer := by
  cases h with
  | @read _ answer => exact ⟨answer, rfl⟩
  | _ => exact absurd hread Bool.false_ne_true

theorem Effect.error_ne_subjectKind {text : String} : ¬ Effect now s op (.error (.invalid (.subjectKind text)), t) := by
  intro h
  cases h

end Operation

namespace Engine

variable {e : Engine} {op : Operation}

theorem run_read_answers (hfree : e.connection = .free) (now : Stamp) (hread : op.isRead = true) :
    ∃ answer, (e.run now op).1 = .ok answer := by
  rw [run_eq_perform hfree (Operation.fault_of_isRead hread)]
  exact (op.perform_effect now e.store).read_answers hread

theorem run_ne_subjectKind (now : Stamp) (op : Operation) (e : Engine) (text : String) :
    (e.run now op).1 ≠ .error (.invalid (.subjectKind text)) := by
  rcases e.run_cases now op with ⟨fault, hfault, hrun⟩ | ⟨-, error, hrefusal, hrun⟩ |
    ⟨-, -, answer, t, heffect, hrun⟩
  · rw [hrun]
    intro h
    obtain rfl : fault = .subjectKind text := by simpa using h
    exact op.fault_ne_subjectKind text hfault
  · rw [hrun]
    rcases refusal_eq_some hrefusal with ⟨limit, rfl⟩ | ⟨fault, rfl⟩ <;> simp
  · rw [hrun]
    rintro rfl
    exact heffect.error_ne_subjectKind

end Engine

namespace Command

variable {now : Stamp} {s : Store}

theorem run_read {op : Operation} (hread : op.isRead = true) (now : Stamp) (s : Store) :
    ∃ answer, (op.run now s).1 = .ok answer := by
  rw [Operation.run_eq_perform (Operation.fault_of_isRead hread)]
  exact (op.perform_effect now s).read_answers hread

theorem execute_read_printed {command : Command} (hread : command.isRead = true) (now : Stamp) (s : Store) :
    ∃ answer, (command.execute now s).1 = .printed answer := by
  have hreport : ∀ op : Operation, op.isRead = true →
      ∃ answer, (report (({} : Pace).run now op s)).1 = .printed answer := by
    intro op hop
    obtain ⟨answer, hanswer⟩ := run_read hop now s
    rw [Pace.run_in_time rfl]
    exact ⟨answer, report_of_answer hanswer⟩
  cases command with
  | check user path privilege explained =>
    have hexplains : (Operation.explain user path privilege).isRead = true := rfl
    obtain ⟨answer, hanswer⟩ := run_read hexplains now s
    rw [execute, Pace.run_in_time rfl]
    cases explained with
    | true => exact ⟨answer, report_of_answer hanswer⟩
    | false =>
      refine ⟨verdict answer, report_of_answer ?_⟩
      show ((Operation.explain user path privilege).run now s).1.map verdict = .ok (verdict answer)
      rw [hanswer]
      rfl
  | roles => exact hreport .listRoles rfl
  | privileges => exact hreport .listPrivileges rfl
  | aces => exact hreport .listAces rfl
  | _ => exact absurd hread Bool.false_ne_true

end Command

/-! ## Sessions -/

namespace Session

/-- **The tables of a session are intact, and no reading of an entry fails for its kind.**  Each entry is read back from
its columns.  On a free connection all reading is answered; a command line prints what it reads; and nothing that is
asked of the engine is answered with an unknown kind. -/
theorem tables_intact {s : Session} (h : Reached s) :
    s.engine.store.Intact ∧
    (∀ a ∈ s.engine.store.aces, Ace.ofJson a.toJson = .ok a) ∧
    (s.engine.connection = .free → ∀ now op, op.isRead = true →
      ∃ answer, (s.run now (.operation op)).1 = .ok answer) ∧
    (∀ now (command : Command), command.isRead = true →
      ∃ answer, (command.execute now s.engine.store).1 = .printed answer) ∧
    ∀ now op text, (s.run now (.operation op)).1 ≠ .error (.access (.invalid (.subjectKind text))) := by
  refine ⟨h.store.sound.intact, fun a _ => a.ofJson_of_fields fun _ => rfl, ?_, ?_, ?_⟩
  · intro hfree now op hread
    obtain ⟨answer, hanswer⟩ := Engine.run_read_answers hfree now hread
    exact ⟨answer, run_operation_eq_ok.mpr hanswer⟩
  · intro now command hread
    exact Command.execute_read_printed hread now _
  · intro now op text hunknown
    obtain ⟨error, heq, hanswer⟩ := run_operation_eq_error.mp hunknown
    obtain rfl : .invalid (.subjectKind text) = error := Failure.access.inj heq
    exact s.engine.run_ne_subjectKind now op text hanswer

def after (s : Session) (requests : List Request) : Session :=
  requests.foldl (fun s request => (s.run ⟨""⟩ request).2) s

theorem Reached.after {s : Session} (h : Reached s) (requests : List Request) : Reached (s.after requests) := by
  induction requests generalizing s with
  | nil => exact h
  | cons request rest ih => exact ih (h.run ⟨""⟩ request)

/-- Two entries, one of them moved, with refusals of a blank name, a relative path and a subject that is missing in
between, and opened anew. -/
def patchwork : Session :=
  (onFile "rules" none).after
    [.operation (.createUser "ann"), .operation (.createUser " "), .operation (.createGroup "ops"),
      .operation (.createRole "operator" none), .operation (.createPrivilege "Node.Console" none),
      .operation (.addPrivilege (.issue .role 1) (.issue .privilege 1)),
      .operation (.createAce (.forUser (.ofString "/nodes") (.issue .user 1) (.issue .role 1))),
      .operation (.createAce (.forUser (.ofString "nodes") (.issue .user 1) (.issue .role 1))),
      .operation (.createAce (.forGroup (.ofString "/nodes") (.issue .group 1) (.issue .role 1))),
      .operation (.createAce { NewAce.forGroup .root (.issue .group 1) (.issue .role 1) with group := none }),
      .operation (.updateAce (.issue .ace 2) { path := some (.ofString "/labs") }),
      .operation (.deleteUser (.issue .user 1)), .close, .reopen]

theorem tables_intact_patchwork :
    Reached patchwork ∧
    (patchwork.engine.store.aces.map fun a => (a.path, a.subject)) =
      [(.ofString "/labs", .group (.issue .group 1))] ∧
    patchwork.engine.store.Intact ∧
    ∃ answer, (patchwork.run ⟨""⟩ (.operation .listAces)).1 = .ok answer := by
  have hreached : Reached patchwork := (Reached.onFile "rules" none).after _
  obtain ⟨hintact, -, hreads, -⟩ := tables_intact hreached
  exact ⟨hreached, by decide +kernel, hintact, hreads (by decide +kernel) ⟨""⟩ .listAces rfl⟩

end Session

end ResourceAccess
