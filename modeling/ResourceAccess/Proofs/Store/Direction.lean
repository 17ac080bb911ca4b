import ResourceAccess.Proofs.Decision.Relaxed
import ResourceAccess.Proofs.Store.Relevant

/-!
# In which direction entries push

An entry that allows can only open access, and one that denies can only close it, wherever the entry stands and whatever
the other entries are.  So to add the one or to take the other away never shuts anybody out, and the converse never lets
anybody in.  To change whether a denial propagates does nothing at all, as it speaks below its path in any case.

* `Store.Relaxes`: a store whose entries are at least as lenient as those of another one
* `Store.Relaxes.check`: such a store allows what the other one allows
* `Operation.Loosens`, `Operation.Tightens`, `Operation.RecastsDenial`: what is done to a single entry
* `Engine.entries_push_one_way`: **an entry pushes access in its own direction only**
-/

namespace ResourceAccess

/-! ## Stores with more lenient entries -/

/-- The entry binds the same subject to the same role as the other one, and its rule relaxes that one's rule. -/
structure Ace.Relaxes (a' a : Ace) : Prop where
  subject : a'.subject = a.subject
  role : a'.role = a.role
  rule : a'.rule.Relaxes a.rule

theorem Ace.Relaxes.refl (a : Ace) : a.Relaxes a := ⟨rfl, rfl, rfl, fun h => h, fun _ h => h⟩

namespace Store

/-- The entries relax all entries of the other store that allow, and what they deny is denied there.  Roles hold the
same privileges in both. -/
structure Relaxes (t s : Store) : Prop where
  memberships : t.memberships = s.memberships
  privileges : t.privileges = s.privileges
  allows : ∀ a ∈ s.aces, a.allowed = true → ∃ a' ∈ t.aces, a'.Relaxes a
  denies : ∀ a' ∈ t.aces, a'.allowed = false → ∃ a ∈ s.aces, a'.Relaxes a

variable {s t : Store} {user : Id} {path : Path} {privilege : String}

theorem Relaxes.candidates (h : t.Relaxes s) (user : Id) (privilege : String) :
    Decision.Relaxes (t.candidates user privilege) (s.candidates user privilege) where
  allows := by
    intro r hr hallowed
    obtain ⟨a, ha, hsubject, rfl, hjoined⟩ := mem_candidates_iff.mp hr
    obtain ⟨a', ha', hrelaxes⟩ := h.allows a ha hallowed
    refine ⟨a'.rule, mem_candidates_iff.mpr ⟨a', ha', hrelaxes.subject.trans hsubject, rfl, ?_⟩, hrelaxes.rule⟩
    rw [h.memberships, h.privileges, hrelaxes.role]
    exact hjoined
  denies := by
    intro r' hr' hdenied
    obtain ⟨a', ha', hsubject, rfl, hjoined⟩ := mem_candidates_iff.mp hr'
    obtain ⟨a, ha, hrelaxes⟩ := h.denies a' ha' hdenied
    refine ⟨a.rule, mem_candidates_iff.mpr ⟨a, ha, hrelaxes.subject.symm.trans hsubject, rfl, ?_⟩, hrelaxes.rule⟩
    rw [← h.memberships, ← h.privileges, ← hrelaxes.role]
    exact hjoined

/-- **What a store allows, a store with more lenient entries allows.** -/
theorem Relaxes.check (h : t.Relaxes s) (hallowed : s.check user path privilege = true) :
    t.check user path privilege = true := (h.candidates user privilege).isAllowed hallowed

/-- The same in the other direction: what the more lenient store refuses, the other one refuses. -/
theorem Relaxes.check_false (h : t.Relaxes s) (hrefused : t.check user path privilege = false) :
    s.check user path privilege = false := by
  by_contra hallowed
  rw [h.check (by simpa using hallowed)] at hrefused
  exact absurd hrefused (by simp)

theorem Relaxes.explain (h : t.Relaxes s) (h' : s.Relaxes t) :
    t.explain user path privilege = s.explain user path privilege :=
  Decision.ofRules_eq_of_relaxes (h.candidates user privilege) (h'.candidates user privilege)

/-! ## Writing one entry -/

theorem Relaxes.refl (s : Store) : s.Relaxes s :=
  ⟨rfl, rfl, fun a ha _ => ⟨a, ha, .refl a⟩, fun a ha _ => ⟨a, ha, .refl a⟩⟩

/-- Entries that allow may be there besides, and entries that deny may be missing. -/
theorem relaxes_of_mem (hmemberships : t.memberships = s.memberships) (hprivileges : t.privileges = s.privileges)
    (hallows : ∀ a ∈ s.aces, a.allowed = true → a ∈ t.aces) (hdenies : ∀ a ∈ t.aces, a.allowed = false → a ∈ s.aces) :
    t.Relaxes s :=
  ⟨hmemberships, hprivileges, fun a ha hallowed => ⟨a, hallows a ha hallowed, .refl a⟩,
    fun a ha hdenied => ⟨a, hdenies a ha hdenied, .refl a⟩⟩

theorem relaxes_of_map {f : Ace → Ace} (hf : ∀ a ∈ s.aces, (f a).Relaxes a) :
    { s with aces := s.aces.map f }.Relaxes s where
  memberships := rfl
  privileges := rfl
  allows := fun a ha _ => ⟨f a, List.mem_map_of_mem ha, hf a ha⟩
  denies := by
    rintro a' ha' -
    obtain ⟨a, ha, rfl⟩ := List.mem_map.mp ha'
    exact ⟨a, ha, hf a ha⟩

theorem map_relaxes {f : Ace → Ace} (hf : ∀ a ∈ s.aces, a.Relaxes (f a)) :
    s.Relaxes { s with aces := s.aces.map f } where
  memberships := rfl
  privileges := rfl
  allows := by
    rintro a' ha' -
    obtain ⟨a, ha, rfl⟩ := List.mem_map.mp ha'
    exact ⟨a, ha, hf a ha⟩
  denies := fun a ha _ => ⟨f a, List.mem_map_of_mem ha, hf a ha⟩

theorem deleteAce_relaxes {id : Id} (hdenies : ∀ a ∈ s.aces, a.id = id → a.allowed = false) :
    (s.deleteAce id).2.Relaxes s := by
  refine relaxes_of_mem rfl rfl (fun a ha hallowed => ?_) fun a ha _ => List.mem_of_mem_filter ha
  have hne : a.id ≠ id := fun hid => absurd (hallowed.symm.trans (hdenies a ha hid)) (by simp)
  exact List.mem_filter.mpr ⟨ha, by simpa using hne⟩

theorem relaxes_deleteAce {id : Id} (hallows : ∀ a ∈ s.aces, a.id = id → a.allowed = true) :
    s.Relaxes (s.deleteAce id).2 := by
  refine relaxes_of_mem rfl rfl (fun a ha _ => List.mem_of_mem_filter ha) fun a ha hdenied => ?_
  have hne : a.id ≠ id := fun hid => absurd (hdenied.symm.trans (hallows a ha hid)) (by simp)
  exact List.mem_filter.mpr ⟨ha, by simpa using hne⟩

/-- In a sound store the rows with an identifier are the one row, so to replace them is to replace that row. -/
theorem forall_replace (h : s.Sound) {R : Ace → Ace → Prop} (hrefl : ∀ a, R a a) {row changed : Ace}
    (hrow : row ∈ s.aces) (hchanged : R changed row) :
    ∀ a ∈ s.aces, R (if a.id = row.id then changed else a) a := by
  intro a ha
  by_cases hid : a.id = row.id
  · rw [if_pos hid, h.aces.eq_of_id_eq ha hrow hid]
    exact hchanged
  · rw [if_neg hid]
    exact hrefl a

end Store

/-! ## What is done to an entry -/

namespace Operation

/-- An entry that allows is made, one that denies is deleted or made to allow, or one that allows is made to
propagate. -/
inductive Loosens (s : Store) : Operation → Prop
  | createAce {new : NewAce} (hallows : new.allowed.getD true = true) : Loosens s (.createAce new)
  | deleteAce {id : Id} (hdenies : ∀ a ∈ s.aces, a.id = id → a.allowed = false) : Loosens s (.deleteAce id)
  | allow {id : Id} {update : AceUpdate} (honly : ∀ a ∈ s.aces, a.id = id →
      a.allowed = false ∧ update.apply a = { a with allowed := true }) : Loosens s (.updateAce id update)
  | spread {id : Id} {update : AceUpdate} (honly : ∀ a ∈ s.aces, a.id = id →
      a.allowed = true ∧ a.propagates = false ∧ update.apply a = { a with propagates := true }) :
    Loosens s (.updateAce id update)

/-- An entry that denies is made, one that allows is deleted or made to deny, or one that allows is made to keep to its
path. -/
inductive Tightens (s : Store) : Operation → Prop
  | createAce {new : NewAce} (hdenies : new.allowed.getD true = false) : Tightens s (.createAce new)
  | deleteAce {id : Id} (hallows : ∀ a ∈ s.aces, a.id = id → a.allowed = true) : Tightens s (.deleteAce id)
  | deny {id : Id} {update : AceUpdate} (honly : ∀ a ∈ s.aces, a.id = id →
      a.allowed = true ∧ update.apply a = { a with allowed := false }) : Tightens s (.updateAce id update)
  | confine {id : Id} {update : AceUpdate} (honly : ∀ a ∈ s.aces, a.id = id →
      a.allowed = true ∧ a.propagates = true ∧ update.apply a = { a with propagates := false }) :
    Tightens s (.updateAce id update)

/-- An entry that denies is made to propagate, or not to. -/
inductive RecastsDenial (s : Store) : Operation → Prop
  | updateAce {id : Id} {update : AceUpdate} (honly : ∀ a ∈ s.aces, a.id = id →
      a.allowed = false ∧ ∃ propagates, update.apply a = { a with propagates }) :
    RecastsDenial s (.updateAce id update)

variable {now : Stamp} {s t : Store} {id : Id} {update : AceUpdate} {op : Operation}
  {answer : Except AccessError Answer}

theorem updateAce_relaxes (hs : s.Sound) (heffect : Effect now s (.updateAce id update) (answer, t))
    (hchanged : ∀ a ∈ s.aces, a.id = id → (update.apply a).Relaxes a) : t.Relaxes s := by
  cases heffect with
  | @aceChanged _ row _ hrow hid =>
    subst hid
    have hrelaxes := hchanged row hrow rfl
    exact Store.relaxes_of_map (Store.forall_replace hs .refl hrow ⟨hrelaxes.subject, hrelaxes.role, hrelaxes.rule⟩)
  | _ => exact .refl s

theorem relaxes_updateAce (hs : s.Sound) (heffect : Effect now s (.updateAce id update) (answer, t))
    (hchanged : ∀ a ∈ s.aces, a.id = id → a.Relaxes (update.apply a)) : s.Relaxes t := by
  cases heffect with
  | @aceChanged _ row _ hrow hid =>
    subst hid
    have hrelaxes := hchanged row hrow rfl
    have hrow' : row.Relaxes { update.apply row with updated := now } :=
      ⟨hrelaxes.subject, hrelaxes.role, hrelaxes.rule⟩
    exact Store.map_relaxes (Store.forall_replace hs (R := fun a' a => a.Relaxes a') .refl hrow hrow')
  | _ => exact .refl s

theorem relaxes_of_denied {a a' : Ace} (hsubject : a'.subject = a.subject) (hrole : a'.role = a.role)
    (hpath : a'.path = a.path) (hdenied : a.allowed = false) : a'.Relaxes a := by
  have hnot : ¬ a.rule.allowed = true := by simp [Ace.rule, hdenied]
  exact ⟨hsubject, hrole, hpath, fun h => absurd h hnot, fun h => absurd h hnot⟩

theorem Loosens.relaxes (h : op.Loosens s) (hs : s.Sound) (heffect : op.Effect now s (answer, t)) : t.Relaxes s := by
  cases h with
  | createAce hallows =>
    cases heffect with
    | aceAdded _ _ _ _ hace =>
      refine Store.relaxes_of_mem rfl rfl (fun a ha _ => List.mem_append_left _ ha) fun a ha hdenied => ?_
      rcases List.mem_append.mp ha with hold | hnew
      · exact hold
      · rw [List.mem_singleton.mp hnew, hace] at hdenied
        exact absurd (hallows.symm.trans hdenied) (by simp)
    | _ => exact .refl s
  | deleteAce hdenies =>
    cases heffect with
    | read => exact .refl s
    | aceAbsent => exact Store.deleteAce_relaxes hdenies
    | aceDeleted => exact Store.deleteAce_relaxes hdenies
  | allow honly =>
    refine updateAce_relaxes hs heffect fun a ha hid => ?_
    obtain ⟨hdenied, happly⟩ := honly a ha hid
    rw [happly]
    exact relaxes_of_denied rfl rfl rfl hdenied
  | spread honly =>
    refine updateAce_relaxes hs heffect fun a ha hid => ?_
    obtain ⟨-, -, happly⟩ := honly a ha hid
    rw [happly]
    exact ⟨rfl, rfl, rfl, fun h => h, fun _ _ => rfl⟩

theorem Tightens.relaxes (h : op.Tightens s) (hs : s.Sound) (heffect : op.Effect now s (answer, t)) : s.Relaxes t := by
  cases h with
  | createAce hdenies =>
    cases heffect with
    | aceAdded _ _ _ _ hace =>
      refine Store.relaxes_of_mem rfl rfl (fun a ha hallowed => ?_) fun a ha _ => List.mem_append_left _ ha
      rcases List.mem_append.mp ha with hold | hnew
      · exact hold
      · rw [List.mem_singleton.mp hnew, hace] at hallowed
        exact absurd (hdenies.symm.trans hallowed) (by simp)
    | _ => exact .refl s
  | deleteAce hallows =>
    cases heffect with
    | read => exact .refl s
    | aceAbsent => exact Store.relaxes_deleteAce hallows
    | aceDeleted => exact Store.relaxes_deleteAce hallows
  | deny honly =>
    refine relaxes_updateAce hs heffect fun a ha hid => ?_
    obtain ⟨-, happly⟩ := honly a ha hid
    rw [happly]
    exact relaxes_of_denied rfl rfl rfl rfl
  | confine honly =>
    refine relaxes_updateAce hs heffect fun a ha hid => ?_
    obtain ⟨-, hpropagates, happly⟩ := honly a ha hid
    rw [happly]
    exact ⟨rfl, rfl, rfl, fun h => h, fun _ _ => hpropagates⟩

/-- Whether a denial propagates makes no difference. -/
theorem RecastsDenial.relaxes (h : op.RecastsDenial s) (hs : s.Sound) (heffect : op.Effect now s (answer, t)) :
    t.Relaxes s ∧ s.Relaxes t := by
  cases h with
  | updateAce honly =>
    constructor
    · refine updateAce_relaxes hs heffect fun a ha hid => ?_
      obtain ⟨hdenied, propagates, happly⟩ := honly a ha hid
      rw [happly]
      exact relaxes_of_denied rfl rfl rfl hdenied
    · refine relaxes_updateAce hs heffect fun a ha hid => ?_
      obtain ⟨hdenied, propagates, happly⟩ := honly a ha hid
      rw [happly]
      exact relaxes_of_denied rfl rfl rfl hdenied

end Operation

/-! ## What the engine answers -/

namespace Engine

variable {e : Engine} {user : Id} {path : Path} {privilege : String}

/-- Where the tables change and the connection does not, an answer to a check carries over as its flag does. -/
theorem run_check_imp {t : Store} {allowed : Bool}
    (h : e.store.check user path privilege = allowed → t.check user path privilege = allowed) (before later : Stamp)
    (hanswer : (e.run before (.check user path privilege)).1 = .ok (.flag allowed)) :
    ({ e with store := t }.run later (.check user path privilege)).1 = .ok (.flag allowed) := by
  have hrefusal : { e with store := t }.refusal? (.check user path privilege) =
      e.refusal? (.check user path privilege) := rfl
  cases hcase : e.refusal? (.check user path privilege) with
  | some error =>
    simp only [run_eq, Operation.fault?, hcase] at hanswer
    exact absurd hanswer (by simp)
  | none =>
    simp only [run_eq, Operation.fault?, hcase, Operation.perform, Reply.read] at hanswer
    have hflag : e.store.check user path privilege = allowed := by simpa using hanswer
    simp only [run_eq, Operation.fault?, hrefusal, hcase, Operation.perform, Reply.read, h hflag]

/-- **An entry pushes access in its own direction only.**  Nobody who has access loses it by an operation that loosens,
nobody who has none gets it by one that tightens, and no decision changes with whether a denial propagates. -/
theorem entries_push_one_way (hreachable : Reachable e.store) (user : Id) (path : Path) (privilege : String)
    (op : Operation) (before now later : Stamp) :
    (op.Loosens e.store → (e.run before (.check user path privilege)).1 = .ok (.flag true) →
      ((e.run now op).2.run later (.check user path privilege)).1 = .ok (.flag true)) ∧
    (op.Tightens e.store → (e.run before (.check user path privilege)).1 = .ok (.flag false) →
      ((e.run now op).2.run later (.check user path privilege)).1 = .ok (.flag false)) ∧
    (op.RecastsDenial e.store → ((e.run now op).2.run later (.explain user path privilege)).1 =
      (e.run before (.explain user path privilege)).1) := by
  have hs := hreachable.sound
  rcases e.run_effect now op with ⟨error, hrun⟩ | ⟨answer, t, heffect, hrun⟩
  · rw [hrun]
    exact ⟨fun _ h => h, fun _ h => h, fun _ => rfl⟩
  · rw [hrun]
    refine ⟨fun hop => run_check_imp (hop.relaxes hs heffect).check before later,
      fun hop => run_check_imp (hop.relaxes hs heffect).check_false before later, fun hop => ?_⟩
    obtain ⟨hrelaxes, hrelaxed⟩ := hop.relaxes hs heffect
    exact run_explain_congr (hrelaxes.explain hrelaxed) later

/-- The operator who has a node denied: to drop the denial takes nothing away elsewhere, to keep the grant to its path
opens nothing, and the node stays denied below, whether the denial propagates or not. -/
theorem entries_push_one_way_operator :
    let e : Engine := { store := Store.after {} operatorHistory }
    Reachable e.store ∧
    ((e.run ⟨""⟩ (.deleteAce (.issue .ace 2))).2.run ⟨""⟩
      (.check (.issue .user 1) (.ofString "/nodes/2") "Node.Console")).1 = .ok (.flag true) ∧
    ((e.run ⟨""⟩ (.updateAce (.issue .ace 1) { propagates := some false })).2.run ⟨""⟩
      (.check (.issue .user 1) (.ofString "/nodes/1") "Node.Console")).1 = .ok (.flag false) ∧
    ((e.run ⟨""⟩ (.updateAce (.issue .ace 2) { propagates := some false })).2.run ⟨""⟩
      (.explain (.issue .user 1) (.ofString "/nodes/1/x") "Node.Console")).1 =
        .ok (.decision (.denied (.ofString "/nodes/1"))) := by
  intro e
  have hreachable : Reachable e.store := Reachable.empty.after operatorHistory
  refine ⟨hreachable, ?_, ?_, ?_⟩
  · have hdenies : ∀ a ∈ e.store.aces, a.id = .issue .ace 2 → a.allowed = false := by decide +kernel
    obtain ⟨hloosens, -, -⟩ := entries_push_one_way hreachable (.issue .user 1) (.ofString "/nodes/2") "Node.Console"
      (.deleteAce (.issue .ace 2)) ⟨""⟩ ⟨""⟩ ⟨""⟩
    exact hloosens (.deleteAce hdenies) (by decide +kernel)
  · have honly : ∀ a ∈ e.store.aces, a.id = .issue .ace 1 → a.allowed = true ∧ a.propagates = true ∧
        AceUpdate.apply { propagates := some false } a = { a with propagates := false } := by decide +kernel
    obtain ⟨-, htightens, -⟩ := entries_push_one_way hreachable (.issue .user 1) (.ofString "/nodes/1") "Node.Console"
      (.updateAce (.issue .ace 1) { propagates := some false }) ⟨""⟩ ⟨""⟩ ⟨""⟩
    exact htightens (.confine honly) (by decide +kernel)
  · have honly : ∀ a ∈ e.store.aces, a.id = .issue .ace 2 → a.allowed = false ∧ ∃ propagates,
        AceUpdate.apply { propagates := some false } a = { a with propagates } := by
      have hdenied : ∀ a ∈ e.store.aces, a.id = .issue .ace 2 → a.allowed = false := by decide +kernel
      exact fun a ha hid => ⟨hdenied a ha hid, false, rfl⟩
    obtain ⟨-, -, hsame⟩ := entries_push_one_way hreachable (.issue .user 1) (.ofString "/nodes/1/x") "Node.Console"
      (.updateAce (.issue .ace 2) { propagates := some false }) ⟨""⟩ ⟨""⟩ ⟨""⟩
    exact (hsame (.updateAce honly)).trans (by decide +kernel)

end Engine

end ResourceAccess
