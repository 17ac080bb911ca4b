import ResourceAccess.Procedure.Operation

/-!
# A procedure that is interrupted

The tables change at one statement only: the commit of the transaction, or the one statement that stands outside any
transaction.  After it nothing is done but to look, and there the time no longer counts.  So a procedure whose time limit
runs out leaves the tables as they were, or, if that statement landed nonetheless, as the whole procedure leaves them.

* `Procedure.Atomic`: how the statements of such a procedure follow each other
* `Procedure.Atomic.run_interrupted`: **what becomes of it when its time limit runs out**
* `Operation.procedure_atomic`: **all operations are of this kind**
-/

namespace ResourceAccess

namespace Procedure

variable {α β : Type} {p : Procedure α} {s c : Store} {limit : Duration} {expiry : Expiry}

/-! ## How statements follow each other -/

/-- All statements only look. -/
inductive Looks : Procedure α → Prop
  | answer (a : α) : Looks (.answer a)
  | refuse (error : AccessError) : Looks (.refuse error)
  | look {f : Store → Store} {rest : Store → Procedure α} (hsame : ∀ s, f s = s) (hrest : ∀ s, Looks (rest s)) :
    Looks (.step (.change f) rest)

/-- What follows once the tables have been changed. -/
inductive Closes : Procedure α → Prop
  | answer (a : α) : Closes (.answer a)
  | refuse (error : AccessError) : Closes (.refuse error)
  | untimed {rest : Procedure α} (hrest : Looks rest) : Closes (.untimed rest)

/-- All statements belong to the transaction that is open. -/
inductive Within : Procedure α → Prop
  | answer (a : α) : Within (.answer a)
  | refuse (error : AccessError) : Within (.refuse error)
  | change {f : Store → Store} {rest : Store → Procedure α} (hrest : ∀ s, Within (rest s)) :
    Within (.step (.change f) rest)

/-- The rest of a transaction, with its commit if it comes that far. -/
inductive Pending : Procedure α → Prop
  | answer (a : α) : Pending (.answer a)
  | refuse (error : AccessError) : Pending (.refuse error)
  | change {f : Store → Store} {rest : Store → Procedure α} (hrest : ∀ s, Pending (rest s)) :
    Pending (.step (.change f) rest)
  | commit {rest : Store → Procedure α} (hrest : ∀ s, Closes (rest s)) : Pending (.step .commit rest)

/-- The tables change at one statement at most. -/
inductive Atomic : Procedure α → Prop
  | answer (a : α) : Atomic (.answer a)
  | refuse (error : AccessError) : Atomic (.refuse error)
  | look {f : Store → Store} {rest : Store → Procedure α} (hsame : ∀ s, f s = s) (hrest : ∀ s, Atomic (rest s)) :
    Atomic (.step (.change f) rest)
  | change {f : Store → Store} {rest : Store → Procedure α} (hrest : ∀ s, Closes (rest s)) :
    Atomic (.step (.change f) rest)
  | begin {rest : Store → Procedure α} (hrest : ∀ s, Pending (rest s)) : Atomic (.step .begin rest)

/-! ## Interruptions -/

/-- What becomes of a procedure when its limit runs out: it was in time, or it reports the limit.  Then nothing is done,
or everything, if the statement that was under way landed. -/
inductive Interrupted (limit : Duration) (landed : Bool) (before : Store) (whole : Except AccessError α × Store) :
    Except AccessError α × Store → Prop
  | inTime : Interrupted limit landed before whole whole
  | undone : Interrupted limit landed before whole (.error (.timeout limit), before)
  | done (hlanded : landed = true) : Interrupted limit landed before whole (.error (.timeout limit), whole.2)

theorem Looks.run_snd (h : Looks p) (s : Store) : (p.run none ⟨s, none⟩).2 = s := by
  induction h with
  | answer a => rfl
  | refuse error => rfl
  | @look f rest hsame _ ih =>
    show ((rest s).run none ⟨f s, none⟩).2 = s
    rw [hsame]
    exact ih s

theorem Closes.run_deadline (h : Closes p) (deadline : Option Deadline) (t : Tables) :
    p.run deadline t = p.run none t := by
  cases h <;> rfl

theorem Closes.run_snd (h : Closes p) (s : Store) : (p.run none ⟨s, none⟩).2 = s := by
  cases h with
  | answer a => rfl
  | refuse error => rfl
  | untimed hrest => exact hrest.run_snd s

/-- Before the commit nothing is lost but the transaction. -/
theorem Pending.run_interrupted (h : Pending p) (limit : Duration) (expiry : Expiry) (c s : Store) :
    Interrupted limit expiry.landed c (p.run none ⟨c, some s⟩) (p.run (some ⟨limit, expiry⟩) ⟨c, some s⟩) := by
  induction h generalizing s expiry with
  | answer a => exact .inTime
  | refuse error => exact .inTime
  | @change f rest _ ih =>
    obtain ⟨_ | finished, landed⟩ := expiry
    · have hlost : (.step (.change f) rest : Procedure _).run (some ⟨limit, 0, landed⟩) ⟨c, some s⟩ =
          (.error (.timeout limit), c) := by cases landed <;> rfl
      rw [hlost]
      exact .undone
    · exact ih s ⟨finished, landed⟩ (f s)
  | @commit rest hrest =>
    have hwhole : ((.step .commit rest : Procedure _).run none ⟨c, some s⟩).2 = s := (hrest s).run_snd s
    obtain ⟨_ | finished, landed⟩ := expiry
    · cases landed with
      | false => exact .undone
      | true =>
        have hdone : (.step .commit rest : Procedure _).run (some ⟨limit, 0, true⟩) ⟨c, some s⟩ =
            (.error (.timeout limit), ((.step .commit rest : Procedure _).run none ⟨c, some s⟩).2) := by
          rw [hwhole]
          rfl
        rw [hdone]
        exact .done rfl
    · have hsame : (.step .commit rest : Procedure _).run (some ⟨limit, finished + 1, landed⟩) ⟨c, some s⟩ =
          (.step .commit rest : Procedure _).run none ⟨c, some s⟩ := (hrest s).run_deadline _ _
      rw [hsame]
      exact .inTime

/-- **A procedure that changes the tables at one statement does nothing or everything when its limit runs out.** -/
theorem Atomic.run_interrupted (h : Atomic p) (limit : Duration) (expiry : Expiry) (s : Store) :
    Interrupted limit expiry.landed s (p.run none ⟨s, none⟩) (p.run (some ⟨limit, expiry⟩) ⟨s, none⟩) := by
  induction h generalizing expiry with
  | answer a => exact .inTime
  | refuse error => exact .inTime
  | @look f rest hsame _ ih =>
    obtain ⟨_ | finished, landed⟩ := expiry
    · have hlost : (.step (.change f) rest : Procedure _).run (some ⟨limit, 0, landed⟩) ⟨s, none⟩ =
          (.error (.timeout limit), s) := by
        cases landed with
        | false => rfl
        | true => exact Prod.ext rfl (hsame s)
      rw [hlost]
      exact .undone
    · have hstep := ih s ⟨finished, landed⟩
      show Interrupted limit landed s ((rest s).run none ⟨f s, none⟩)
        ((rest s).run (some ⟨limit, finished, landed⟩) ⟨f s, none⟩)
      rw [hsame]
      exact hstep
  | @change f rest hrest =>
    have hwhole : ((.step (.change f) rest : Procedure _).run none ⟨s, none⟩).2 = f s := (hrest s).run_snd (f s)
    obtain ⟨_ | finished, landed⟩ := expiry
    · cases landed with
      | false => exact .undone
      | true =>
        have hdone : (.step (.change f) rest : Procedure _).run (some ⟨limit, 0, true⟩) ⟨s, none⟩ =
            (.error (.timeout limit), ((.step (.change f) rest : Procedure _).run none ⟨s, none⟩).2) := by
          rw [hwhole]
          rfl
        rw [hdone]
        exact .done rfl
    · have hsame : (.step (.change f) rest : Procedure _).run (some ⟨limit, finished + 1, landed⟩) ⟨s, none⟩ =
          (.step (.change f) rest : Procedure _).run none ⟨s, none⟩ := (hrest s).run_deadline _ _
      rw [hsame]
      exact .inTime
  | @begin rest hrest =>
    obtain ⟨_ | finished, landed⟩ := expiry
    · have hlost : (.step .begin rest : Procedure _).run (some ⟨limit, 0, landed⟩) ⟨s, none⟩ =
          (.error (.timeout limit), s) := by cases landed <;> rfl
      rw [hlost]
      exact .undone
    · exact (hrest s).run_interrupted limit ⟨finished, landed⟩ s s

/-! ## Parts of procedures -/

theorem within_ofOutcome (outcome : Outcome α) : Within (ofOutcome outcome) := by
  cases outcome with
  | error error => exact .refuse error
  | ok result => exact .answer result.1

theorem within_attempt (work : Store → Outcome α) : Within (attempt work) :=
  .change fun s => within_ofOutcome (work s)

theorem within_each (writes : List (Store → Store)) : Within (each writes) := by
  induction writes with
  | nil => exact .answer ()
  | cons f rest ih => exact .change fun _ => ih

theorem Within.bind {next : α → Procedure β} (h : Within p) (hnext : ∀ a, Within (next a)) : Within (p >>= next) := by
  induction h with
  | answer a => exact hnext a
  | refuse error => exact .refuse error
  | change _ ih => exact .change ih

theorem Within.pending {next : α → Procedure β} (h : Within p) (hnext : ∀ a, Pending (next a)) :
    Pending (p >>= next) := by
  induction h with
  | answer a => exact hnext a
  | refuse error => exact .refuse error
  | change _ ih => exact .change ih

theorem closes_ofOutcome (outcome : Outcome α) : Closes (ofOutcome outcome) := by
  cases outcome with
  | error error => exact .refuse error
  | ok result => exact .answer result.1

/-- A statement that only looks leaves the tables as they are, whatever it finds. -/
theorem outcomeStore_map (verdict : Except AccessError α) (s : Store) :
    outcomeStore s (verdict.map (·, s)) = s := by
  cases verdict <;> rfl

theorem looks_require (view : Store → Except AccessError α) : Looks (require view) := by
  refine .look (fun s => outcomeStore_map (view s) s) fun s => ?_
  show Looks (ofOutcome ((view s).map (·, s)))
  cases view s with
  | error error => exact .refuse error
  | ok a => exact .answer a

theorem atomic_require_bind (view : Store → Except AccessError α) {next : α → Procedure β}
    (hnext : ∀ a, Atomic (next a)) : Atomic (require view >>= next) := by
  refine .look (fun s => outcomeStore_map (view s) s) fun s => ?_
  show Atomic ((ofOutcome ((view s).map (·, s))).bind next)
  cases view s with
  | error error => exact .refuse error
  | ok a => exact hnext a

theorem atomic_attempt_bind (work : Store → Outcome α) {next : α → Procedure β} (hnext : ∀ a, Closes (next a)) :
    Atomic (attempt work >>= next) := by
  refine .change fun s => ?_
  show Closes ((ofOutcome (work s)).bind next)
  cases work s with
  | error error => exact .refuse error
  | ok result => exact hnext result.1

end Procedure

namespace Operation

open Procedure

variable {α β : Type} {check : Procedure Unit}

theorem within_requireFree (kind : Entity) (name : String) (taken : Store → Bool) :
    Within (requireFree kind name taken) := within_attempt _

theorem within_requireNewName (kind : Entity) (current : String) (given : Option String)
    (taken : Store → String → Bool) : Within (requireNewName kind current given taken) := by
  unfold requireNewName
  split
  · exact .answer ()
  · split
    · exact .answer ()
    · exact within_requireFree _ _ _

theorem single_atomic (work : Store → Reply) : Atomic (single work) := .change fun _ => closes_ofOutcome _

theorem creating_atomic (hcheck : Within check) (make : Store → Outcome α) (answer : α → Answer) :
    Atomic (creating check make answer) := by
  refine .begin fun _ => hcheck.pending fun _ => (within_attempt make).pending fun made => ?_
  exact .commit fun _ => .answer (answer made)

theorem updating_atomic {check : β → Procedure Unit} (hcheck : ∀ current, Within (check current))
    (find : Store → Option β) (change : Store → Outcome α) (shown : Store → Answer) :
    Atomic (updating find check change shown) := by
  refine .begin fun _ => (within_attempt _).pending fun found => ?_
  cases found with
  | none => exact .answer _
  | some current =>
    refine (hcheck current).pending fun _ => (within_attempt change).pending fun _ => ?_
    exact .commit fun _ => .untimed (looks_require _)

theorem writing_atomic (writes : List (Store → Store)) : Atomic (writing writes) :=
  .begin fun _ => (within_each writes).pending fun _ => .commit fun _ => .answer _

theorem regrouping_atomic {change : Procedure Unit} (hchange : Within change) (role : Id) :
    Atomic (regrouping role change) := by
  refine .begin fun _ => (within_attempt _).pending fun _ => hchange.pending fun _ => ?_
  exact .commit fun _ => .untimed (looks_require _)

theorem within_attaching (now : Stamp) (role privilege : Id) : Within (attaching now role privilege) := by
  refine (within_attempt _).bind fun _ => (within_attempt _).bind fun added => ?_
  cases added with
  | false => exact .answer ()
  | true => exact within_attempt _

theorem within_detaching (now : Stamp) (role privilege : Id) : Within (detaching now role privilege) := by
  refine (within_attempt _).bind fun removed => ?_
  cases removed with
  | false => exact .refuse _
  | true => exact within_attempt _

theorem procedure_atomic (now : Stamp) (op : Operation) : Atomic (op.procedure now) := by
  cases op with
  | createUser name =>
    exact atomic_require_bind _ fun _ => atomic_attempt_bind _ fun user => .answer (Answer.user user)
  | createRole name description => exact creating_atomic (within_requireFree _ _ _) _ _
  | createPrivilege name description => exact creating_atomic (within_requireFree _ _ _) _ _
  | createAce new => exact creating_atomic ((within_attempt _).bind fun _ => within_attempt _) _ _
  | updateRole id update =>
    refine updating_atomic (fun current => ?_) _ _ _
    dsimp only
    split
    · exact .refuse _
    · exact within_requireNewName _ _ _ _
  | updatePrivilege id update => exact updating_atomic (fun current => within_requireNewName _ _ _ _) _ _ _
  | updateAce id update =>
    refine updating_atomic (fun current => ?_) _ _ _
    split
    · exact .answer ()
    · exact within_attempt _
  | deleteRole id =>
    refine .begin fun _ => (within_attempt _).pending fun found => ?_
    cases found with
    | none => exact .answer _
    | some current =>
      dsimp only
      split
      · exact .refuse _
      · exact (within_attempt _).pending fun gone => .commit fun _ => .answer _
  | addPrivilege role privilege => exact regrouping_atomic (within_attaching now role privilege) role
  | removePrivilege role privilege => exact regrouping_atomic (within_detaching now role privilege) role
  | seed => exact writing_atomic (seeding now)
  | _ => exact single_atomic _

end Operation

end ResourceAccess
