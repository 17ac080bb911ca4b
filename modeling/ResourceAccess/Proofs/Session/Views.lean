import ResourceAccess.Proofs.Session.Trace
import ResourceAccess.Proofs.Store.Views

/-!
# All views of the tables agree

Whatever is asked for can be asked for in several ways: in a list, by identifier, by name, by path.  The lists show
every row once and in order, what they show is what the look-ups find, and what they do not show is not found.  The
order of the entries at one path is that of their making, if the clock goes forward from one event to the next.

* `Directory`: a list and the look-ups that belong to it
* `Engine.ViewsAgree`: what all lists and look-ups of an engine have in common
* `Session.views_agree`: **they agree, whatever has happened to the session**
-/

namespace ResourceAccess

/-- A list that ascends by name, and look-ups that find what is in the list and nothing else. -/
structure Directory {α : Type} (id : α → Id) (name : α → String) (found : α → Answer)
    (byId : Id → Except AccessError Answer) (byName : String → Except AccessError Answer) (shown : List α) : Prop where
  ascending : shown.Pairwise fun a b => name a < name b
  by_id : ∀ a ∈ shown, byId (id a) = .ok (found a)
  by_name : ∀ a ∈ shown, byName (name a) = .ok (found a)
  unknown_id : ∀ x, (∀ a ∈ shown, id a ≠ x) → byId x = .ok .absent
  unknown_name : ∀ x, (∀ a ∈ shown, name a ≠ x) → byName x = .ok .absent

/-- What the lists and the look-ups of an engine have in common. -/
structure Engine.ViewsAgree (e : Engine) (now : Stamp) : Prop where
  users : ∃ shown, (e.run now .listUsers).1 = .ok (.users shown) ∧ shown.Perm e.store.users ∧
    Directory User.id User.name .user (fun id => (e.run now (.getUser id)).1)
      (fun name => (e.run now (.getUserNamed name)).1) shown
  privileges : ∃ shown, (e.run now .listPrivileges).1 = .ok (.privileges shown) ∧ shown.Perm e.store.privileges ∧
    Directory Privilege.id Privilege.name .privilege (fun id => (e.run now (.getPrivilege id)).1)
      (fun name => (e.run now (.getPrivilegeNamed name)).1) shown
  roles : ∃ shown, (e.run now .listRoles).1 = .ok (.roles shown) ∧
    (shown.map fun r => r.toRoleRow).Perm e.store.roles ∧
    Directory (fun r : Role => r.id) (fun r => r.name) .role (fun id => (e.run now (.getRole id)).1)
      (fun name => (e.run now (.getRoleNamed name)).1) shown ∧
    ∀ r ∈ shown, (e.run now (.listRolePrivileges r.id)).1 = .ok (.privileges r.privileges) ∧
      (r.privileges.Pairwise fun p q => p.name < q.name) ∧
      ∀ p, p ∈ r.privileges ↔ p ∈ e.store.privileges ∧ Membership.mk r.id p.id ∈ e.store.memberships
  aces : ∃ shown, (e.run now .listAces).1 = .ok (.aces shown) ∧ shown.Perm e.store.aces ∧
    (shown.Pairwise fun a b => a.path.text < b.path.text ∨ a.path = b.path ∧ a.created < b.created) ∧
    (∀ a ∈ shown, (e.run now (.getAce a.id)).1 = .ok (.ace a)) ∧
    (∀ x, (∀ a ∈ shown, a.id ≠ x) → (e.run now (.getAce x)).1 = .ok .absent) ∧
    ∀ path : String,
      (e.run now (.getAceAt (.ofString path))).1 = .ok (.ofOption .ace (shown.find? (·.path.text == path))) ∧
      (e.run now (.aceExists (.ofString path))).1 = .ok (.flag (shown.any (·.path.text == path)))

/-! ## Tables in order -/

section Tables

variable {α : Type} {id : α → Id} {name : α → String} {found : α → Answer} {rows : List α}

theorem ofOption_find {κ : Type} [BEq κ] [LawfulBEq κ] {key : α → κ} (h : (rows.map key).Nodup) {row : α}
    (hrow : row ∈ rows) : Answer.ofOption found (rows.find? (key · == key row)) = found row := by
  rw [(find_key_eq_some_iff h).mpr ⟨hrow, rfl⟩, Answer.ofOption]

theorem ofOption_find_absent {κ : Type} [BEq κ] [LawfulBEq κ] {key : α → κ} {k : κ} (h : ∀ row ∈ rows, key row ≠ k) :
    Answer.ofOption found (rows.find? (key · == k)) = .absent := by
  have hnone : rows.find? (key · == k) = none := List.find?_eq_none.mpr fun row hrow => by simpa using h row hrow
  rw [hnone, Answer.ofOption]

theorem Keyed.directory {kind : Entity} {sound : String → Prop} {count : Nat} (found : α → Answer)
    (h : Keyed kind id name sound count rows) :
    Directory id name found (fun x => .ok (.ofOption found (rows.find? (id · == x))))
      (fun x => .ok (.ofOption found (rows.find? (name · == x)))) (sortedBy name rows) where
  ascending := sortedBy_strict h.keys_nodup
  by_id := fun _ ha => congrArg _ (ofOption_find h.ids_nodup ((sortedBy_perm _ _).mem_iff.mp ha))
  by_name := fun _ ha => congrArg _ (ofOption_find h.keys_nodup ((sortedBy_perm _ _).mem_iff.mp ha))
  unknown_id := fun _ hx => congrArg _ (ofOption_find_absent fun a ha => hx a ((sortedBy_perm _ _).mem_iff.mpr ha))
  unknown_name := fun _ hx => congrArg _ (ofOption_find_absent fun a ha => hx a ((sortedBy_perm _ _).mem_iff.mpr ha))

theorem Directory.map {β : Type} {id' : β → Id} {name' : β → String} {found' : β → Answer} {f : α → β}
    {byId : Id → Except AccessError Answer} {byName : String → Except AccessError Answer} {shown : List α}
    (hid : ∀ a, id' (f a) = id a) (hname : ∀ a, name' (f a) = name a)
    (h : Directory id name (fun a => found' (f a)) byId byName shown) :
    Directory id' name' found' byId byName (shown.map f) where
  ascending := by
    refine List.pairwise_map.mpr (h.ascending.imp fun hab => ?_)
    rwa [hname, hname]
  by_id := by
    refine List.forall_mem_map.mpr fun a ha => ?_
    rw [hid]
    exact h.by_id a ha
  by_name := by
    refine List.forall_mem_map.mpr fun a ha => ?_
    rw [hname]
    exact h.by_name a ha
  unknown_id := by
    intro x hx
    refine h.unknown_id x fun a ha => ?_
    rw [← hid]
    exact hx _ (List.mem_map_of_mem ha)
  unknown_name := by
    intro x hx
    refine h.unknown_name x fun a ha => ?_
    rw [← hname]
    exact hx _ (List.mem_map_of_mem ha)

end Tables

/-! ## The engine -/

theorem path_eq_ofString_iff {path : Path} {text : String} : path = .ofString text ↔ path.text = text := by
  constructor
  · rintro rfl
    exact Path.text_ofString text
  · rintro rfl
    exact (Path.ofString_text path).symm

namespace Engine

variable {e : Engine}

theorem viewsAgree_of_sound (hs : e.store.Sound) (hcreated : (e.store.aces.map (·.created)).Nodup)
    (hfree : e.connection = .free) (now : Stamp) : e.ViewsAgree now where
  users := by
    have hget : (fun id => (e.run now (.getUser id)).1) = fun id => .ok (.ofOption .user (e.store.user? id)) :=
      funext fun _ => run_eq_perform hfree rfl
    have hnamed : (fun name => (e.run now (.getUserNamed name)).1) =
        fun name => .ok (.ofOption .user (e.store.userNamed? name)) := funext fun _ => run_eq_perform hfree rfl
    rw [hget, hnamed]
    exact ⟨_, run_eq_perform hfree rfl, sortedBy_perm _ _, hs.users.directory .user⟩
  privileges := by
    have hget : (fun id => (e.run now (.getPrivilege id)).1) =
        fun id => .ok (.ofOption .privilege (e.store.privilege? id)) := funext fun _ => run_eq_perform hfree rfl
    have hnamed : (fun name => (e.run now (.getPrivilegeNamed name)).1) =
        fun name => .ok (.ofOption .privilege (e.store.privilegeNamed? name)) :=
      funext fun _ => run_eq_perform hfree rfl
    rw [hget, hnamed]
    exact ⟨_, run_eq_perform hfree rfl, sortedBy_perm _ _, hs.privileges.directory .privilege⟩
  roles := by
    have hshown : (e.run now .listRoles).1 = .ok (.roles ((sortedBy (·.name) e.store.roles).map e.store.load)) := by
      rw [run_eq_perform hfree rfl, ← Store.roleList_eq hs]
      rfl
    have hloaded : ∀ o : Option RoleRow,
        Answer.ofOption .role (o.map e.store.load) = .ofOption (fun row => .role (e.store.load row)) o := by
      intro o
      cases o <;> rfl
    have hget : (fun id => (e.run now (.getRole id)).1) =
        fun id => .ok (.ofOption (fun row => .role (e.store.load row)) (e.store.roleRow? id)) := by
      funext id
      rw [← hloaded]
      exact run_eq_perform hfree rfl
    have hnamed : (fun name => (e.run now (.getRoleNamed name)).1) =
        fun name => .ok (.ofOption (fun row => .role (e.store.load row)) (e.store.roleRowNamed? name)) := by
      funext name
      rw [← hloaded]
      exact run_eq_perform hfree rfl
    -- a directory of rows, shown as the roles that are read for them
    refine ⟨_, hshown, ?_, ?_, ?_⟩
    · rw [List.map_map]
      exact ((sortedBy_perm _ _).map _).trans (by rw [show Role.toRoleRow ∘ e.store.load = id from rfl, List.map_id])
    · rw [hget, hnamed]
      exact (hs.roles.directory _).map (fun _ => rfl) (fun _ => rfl)
    · refine List.forall_mem_map.mpr fun row _ => ⟨run_eq_perform hfree rfl, ?_, ?_⟩
      · exact Store.privilegesOf_ascending hs row.id
      · exact fun p => Store.mem_privilegesOf
  aces := by
    refine ⟨e.store.aceList, run_eq_perform hfree rfl, Store.aceList_perm _, Store.aceList_pairwise hcreated, ?_, ?_,
      ?_⟩
    · intro a ha
      rw [run_eq_perform hfree rfl]
      exact congrArg _ (ofOption_find hs.aces.ids_nodup (Store.mem_aceList.mp ha))
    · intro x hx
      rw [run_eq_perform hfree rfl]
      exact congrArg _ (ofOption_find_absent fun a ha => hx a (Store.mem_aceList.mpr ha))
    · intro path
      have hpath : (fun a : Ace => a.path == .ofString path) = fun a => a.path.text == path := by
        funext a
        rw [Bool.eq_iff_iff, beq_iff_eq, beq_iff_eq, path_eq_ofString_iff]
      refine ⟨?_, ?_⟩
      · rw [run_eq_perform hfree rfl, ← hpath, ← Store.aceAt_eq_find hcreated]
        rfl
      · rw [run_eq_perform hfree rfl, ← hpath, (Store.aceList_perm _).any_eq]
        rfl

end Engine

/-! ## Sessions -/

theorem Pace.work_length (pace : Pace) (now : Stamp) (op : Operation) (s : Store) :
    (pace.work now op s).length ≤ 1 := by
  unfold work
  split
  · exact Nat.zero_le 1
  · exact Nat.le_refl 1

namespace Command

theorem membershipWork_length (now : Stamp) (op : Id → Id → Operation) (role privilege : String) (s : Store)
    (pace : Pace) : (membershipWork now op role privilege s pace).length ≤ 1 := by
  unfold membershipWork
  split
  · exact pace.work_length now _ s
  · exact Nat.zero_le 1

theorem work_length (now : Stamp) (command : Command) (s : Store) (pace : Pace) :
    (command.work now s pace).length ≤ 1 := by
  cases command with
  | grant role privilege => exact membershipWork_length now _ role privilege s pace
  | revoke role privilege => exact membershipWork_length now _ role privilege s pace
  | purge top => exact pace.work_length now _ s
  | _ => exact Nat.zero_le 1

end Command

theorem Store.setUpWork_makes (now : Stamp) (administrator : Option String) :
    (setUpWork now administrator).countP (·.makesAce) ≤ 1 := by
  have hwork : ∀ (name : String) (s : Store), (s.administratorWork name).countP (·.makesAce) ≤ 1 := by
    intro name s
    unfold administratorWork
    split
    · exact Nat.zero_le 1
    · exact Nat.le_refl 1
  unfold setUpWork
  rw [List.countP_cons_of_neg (by decide)]
  cases administrator with
  | none => exact Nat.zero_le 1
  | some name =>
    dsimp only
    split
    · exact hwork name _
    · exact Nat.zero_le 1

namespace Session

theorem work_makes (now : Stamp) (event : Event) (s : Session) : (s.work now event).countP (·.makesAce) ≤ 1 := by
  cases event with
  | request request =>
    cases request with
    | operation op =>
      rw [work]
      split
      · exact List.countP_le_length
      · exact Nat.zero_le 1
    | setUp administrator =>
      rw [work]
      split
      · exact Store.setUpWork_makes now administrator
      · exact Nat.zero_le 1
    | _ => exact Nat.zero_le 1
  | invocation surroundings arguments =>
    rw [work]
    split
    · exact Nat.zero_le 1
    · rename_i plan _
      split
      · exact List.countP_le_length.trans (plan.command.work_length now _ _)
      · exact Nat.zero_le 1

/-- The stamps of the operations that make entries are stamps of events, each used once at most. -/
theorem trace_made (s : Session) (events : List (Stamp × Event)) :
    (((s.trace events).filter (·.2.makesAce)).map (·.1)).Sublist (events.map (·.1)) := by
  induction events generalizing s with
  | nil => exact List.Sublist.refl _
  | cons entry rest ih =>
    obtain ⟨now, event⟩ := entry
    have hnow : ((((s.work now event).map (now, ·)).filter (·.2.makesAce)).map (·.1)) =
        List.replicate ((s.work now event).countP (·.makesAce)) now := by
      rw [List.filter_map, List.map_map, List.countP_eq_length_filter]
      exact List.map_const'
    have honce : (List.replicate ((s.work now event).countP (·.makesAce)) now).Sublist [now] :=
      (List.replicate_sublist_replicate now).mpr (s.work_makes now event)
    rw [trace, List.filter_append, List.map_append, hnow]
    exact honce.append (ih _)

/-- **All views of the tables agree,** whatever has happened, as long as the clock went forward: in a store that
operations lead to, and in a session after any requests, set-ups and command lines. -/
theorem views_agree :
    (∀ history : History, (history.map (·.1)).Pairwise (· < ·) → ∀ e : Engine, e.store = Store.after {} history →
      e.connection = .free → ∀ now, e.ViewsAgree now) ∧
    ∀ start, New start → ∀ events, (events.map (·.1)).Pairwise (· < ·) →
      (start.through events).engine.connection = .free → ∀ now, (start.through events).engine.ViewsAgree now := by
  refine ⟨?_, ?_⟩
  · intro history hclock e hstore hfree now
    have hstamps : (e.store.aces.map (·.created)).Sublist (history.map (·.1)) := by
      rw [hstore]
      exact (Store.created_sublist history).trans (List.filter_sublist.map _)
    have hsound : e.store.Sound := hstore ▸ Store.sound_after history
    exact Engine.viewsAgree_of_sound hsound ((hclock.sublist hstamps).imp ne_of_lt) hfree now
  · intro start hnew events hclock hfree now
    have hreached : Reached (start.through events) := hnew.reached.through events
    have hstamps : ((start.through events).engine.store.aces.map (·.created)).Sublist (events.map (·.1)) := by
      rw [through_store hnew.reached, hnew.store]
      exact (Store.created_sublist _).trans (start.trace_made events)
    exact Engine.viewsAgree_of_sound hreached.store.sound ((hclock.sublist hstamps).imp ne_of_lt) hfree now

def moving : History :=
  [(⟨"1"⟩, .createUser "ann"), (⟨"2"⟩, .createRole "operator" none), (⟨"3"⟩, .createRole "guest" none),
    (⟨"4"⟩, .createAce (.forUser (.ofString "/labs") (.issue .user 1) (.issue .role 1))),
    (⟨"5"⟩, .createAce (.forUser (.ofString "/nodes") (.issue .user 1) (.issue .role 2))),
    (⟨"6"⟩, .updateAce (.issue .ace 1) { path := some (.ofString "/nodes") })]

/-- It is still the first one there, in the list and when the path is looked up. -/
theorem views_agree_moving :
    ∃ shown, (({ store := Store.after {} moving } : Engine).run ⟨"7"⟩ .listAces).1 = .ok (.aces shown) ∧
      shown.map (·.id) = [.issue .ace 1, .issue .ace 2] ∧
      (({ store := Store.after {} moving } : Engine).run ⟨"7"⟩ (.getAceAt (.ofString "/nodes"))).1 =
        .ok (.ofOption .ace (shown.find? (·.path.text == "/nodes"))) ∧
      ∃ a, shown.find? (·.path.text == "/nodes") = some a ∧ a.id = .issue .ace 1 := by
  obtain ⟨shown, hlist, -, -, -, -, hpaths⟩ :=
    (views_agree.1 moving (by decide +kernel) { store := Store.after {} moving } rfl rfl ⟨"7"⟩).aces
  have hshown : (Store.after {} moving).aceList = shown := by
    rw [Engine.run_eq_perform rfl rfl] at hlist
    simpa [Operation.perform, Reply.read] using hlist
  refine ⟨shown, hlist, ?_, (hpaths "/nodes").1, ?_⟩
  · rw [← hshown]
    decide +kernel
  · rw [← hshown]
    exact ⟨_, rfl, by decide +kernel⟩

end Session

end ResourceAccess
