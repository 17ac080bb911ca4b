import ResourceAccess.Proofs.Store.Update

/-!
# Which new entries are refused, and why

A new entry is looked at five times: at its path, its role, the form of its subject, the row of its subject, and at the
entries that are there.  Several things may be wrong at once.  So each flaw is stated on its own, whatever else is wrong,
and the order is stated apart.  The program that makes entries answers with the first flaw there is.  Where there is
none, it adds the entry, and nothing is left that could fail.

* `NewAce.Has`: the flaws of a new entry, each for itself
* `NewAce.First`: the one that is met first
* `NewAce.First.unique`: there is at most one
* `Operation.Effect.createAce_cases`: on the tables, the first flaw is answered, or the entry is added
* `Engine.createAce_decides`: **so does the engine, for every new entry**
-/

namespace ResourceAccess

namespace NewAce

/-- The subject is of the kind that is asked for, and the columns hold it and nothing else. -/
structure Names (new : NewAce) (subject : Subject) : Prop where
  kind : new.kind = subject.kind
  user : new.user = subject.user?
  group : new.group = subject.group?

/-- What may be wrong with a new entry. -/
inductive Flaw where
  | path (fault : Path.Fault)
  | role
  | subject
  | unknown (subject : Subject)
  | taken
deriving DecidableEq

namespace Flaw

def rank : Flaw → Nat
  | .path _ => 0
  | .role => 1
  | .subject => 2
  | .unknown _ => 3
  | .taken => 4

def error (new : NewAce) : Flaw → AccessError
  | .path fault => .invalid (.path fault)
  | .role => .notFound .role new.role
  | .subject => .invalid (.subject new.kind)
  | .unknown (.user id) => .notFound .user id
  | .unknown (.group id) => .notFound .group id
  | .taken => .conflict .ace new.path.text

end Flaw

/-- The new entry has the flaw, and may have others.  An entry stands in the way whatever it allows. -/
inductive Has (s : Store) (new : NewAce) : Flaw → Prop
  | path {fault : Path.Fault} (hfault : new.path.fault? = some fault) : Has s new (.path fault)
  | role (habsent : ∀ r ∈ s.roles, r.id ≠ new.role) : Has s new .role
  | subject (hnone : ∀ subject, ¬ new.Names subject) : Has s new .subject
  | unknown {subject : Subject} (hnames : new.Names subject) (habsent : subject ∉ s.subjects) :
    Has s new (.unknown subject)
  | taken {a : Ace} (ha : a ∈ s.aces) (hpath : a.path = new.path) (hnames : new.Names a.subject)
    (hrole : a.role = new.role) : Has s new .taken

/-- The new entry has the flaw, and none that is looked for earlier. -/
structure First (s : Store) (new : NewAce) (flaw : Flaw) : Prop where
  has : new.Has s flaw
  first : ∀ other, new.Has s other → flaw.rank ≤ other.rank

/-- The entry says what is asked for, allows and propagates unless it is told otherwise, and was made now. -/
structure Makes (new : NewAce) (now : Stamp) (a : Ace) : Prop where
  path : a.path = new.path
  names : new.Names a.subject
  role : a.role = new.role
  allowed : Given new.allowed true a.allowed
  propagates : Given new.propagates true a.propagates
  created : a.created = now
  updated : a.updated = now

variable {s : Store} {new : NewAce} {now : Stamp}

theorem names_iff {subject : Subject} : new.Names subject ↔ new.subject? = some subject := by
  constructor
  · rintro ⟨hkind, huser, hgroup⟩
    cases subject <;> simp_all [subject?, Subject.kind, Subject.user?, Subject.group?]
  · intro h
    unfold subject? at h
    split at h
    · rename_i hkind huser hgroup
      obtain rfl := Option.some.inj h
      exact ⟨hkind, huser, hgroup⟩
    · rename_i hkind huser hgroup
      obtain rfl := Option.some.inj h
      exact ⟨hkind, huser, hgroup⟩
    · exact absurd h (by simp)

theorem Names.unique {a b : Subject} (ha : new.Names a) (hb : new.Names b) : a = b :=
  Option.some.inj ((names_iff.mp ha).symm.trans (names_iff.mp hb))

theorem not_names_of_none (h : new.subject? = none) (subject : Subject) : ¬ new.Names subject := by
  intro hnames
  rw [names_iff, h] at hnames
  exact absurd hnames (by simp)

/-- No two flaws are looked for at once. -/
theorem Has.eq_of_rank_eq {a b : Flaw} (ha : new.Has s a) (hb : new.Has s b) (hrank : a.rank = b.rank) : a = b := by
  cases ha with
  | path hfault =>
    cases hb with
    | path hfault' => rw [Option.some.inj (hfault.symm.trans hfault')]
    | _ => exact absurd hrank (by simp [Flaw.rank])
  | unknown hnames =>
    cases hb with
    | unknown hnames' => rw [hnames.unique hnames']
    | _ => exact absurd hrank (by simp [Flaw.rank])
  | _ => cases hb <;> first | rfl | exact absurd hrank (by simp [Flaw.rank])

theorem First.unique {a b : Flaw} (ha : new.First s a) (hb : new.First s b) : a = b :=
  ha.has.eq_of_rank_eq hb.has (Nat.le_antisymm (ha.first b hb.has) (hb.first a ha.has))

/-! What is in order is not a flaw, and so the first flaw comes later. -/

section Order

variable {flaw : Flaw} {subject : Subject}

theorem Has.one_le_rank (h : new.Has s flaw) (hpath : new.path.fault? = none) : 1 ≤ flaw.rank := by
  cases h with
  | path hfault => exact absurd (hpath.symm.trans hfault) (by simp)
  | _ => simp [Flaw.rank]

theorem Has.two_le_rank (h : new.Has s flaw) (hpath : new.path.fault? = none) (hrole : new.role ∈ s.roles.map (·.id)) :
    2 ≤ flaw.rank := by
  have hlater := h.one_le_rank hpath
  cases h with
  | path => exact absurd hlater (by simp [Flaw.rank])
  | role habsent =>
    obtain ⟨r, hr, hid⟩ := List.mem_map.mp hrole
    exact absurd hid (habsent r hr)
  | _ => simp [Flaw.rank]

theorem Has.three_le_rank (h : new.Has s flaw) (hpath : new.path.fault? = none)
    (hrole : new.role ∈ s.roles.map (·.id)) (hnames : new.Names subject) : 3 ≤ flaw.rank := by
  have hlater := h.two_le_rank hpath hrole
  cases h with
  | path | role => exact absurd hlater (by simp [Flaw.rank])
  | subject hnone => exact absurd hnames (hnone subject)
  | _ => simp [Flaw.rank]

theorem Has.eq_taken (h : new.Has s flaw) (hpath : new.path.fault? = none) (hrole : new.role ∈ s.roles.map (·.id))
    (hnames : new.Names subject) (hsubject : subject ∈ s.subjects) : flaw = .taken := by
  have hlater := h.three_le_rank hpath hrole hnames
  cases h with
  | path | role | subject => exact absurd hlater (by simp [Flaw.rank])
  | unknown hnames' habsent =>
    rw [hnames'.unique hnames] at habsent
    exact absurd hsubject habsent
  | taken => rfl

end Order

end NewAce

/-! ## On the tables -/

namespace Operation.Effect

open NewAce (names_iff)

variable {now : Stamp} {s : Store} {new : NewAce}

/-- A new entry with a sound path is refused for its first flaw, or has none and is added. -/
theorem createAce_cases (hpath : new.path.fault? = none) {reply : Reply} (h : Effect now s (.createAce new) reply) :
    (∃ flaw, new.First s flaw ∧ reply = (.error (flaw.error new), s)) ∨
    (∀ flaw, ¬ new.Has s flaw) ∧ ∃ ace, new.Makes now ace ∧ ace.id = .issue .ace (s.issued.aces + 1) ∧
      reply = (.ok (.ace ace),
        { s with aces := s.aces ++ [ace], issued := { s.issued with aces := s.issued.aces + 1 } }) := by
  cases h with
  | read hread => exact absurd hread Bool.false_ne_true
  | aceRoleAbsent habsent =>
    have hhas : new.Has s .role := .role fun r hr hid => habsent (List.mem_map.mpr ⟨r, hr, hid⟩)
    exact Or.inl ⟨.role, ⟨hhas, fun other hother => hother.one_le_rank hpath⟩, rfl⟩
  | aceSubjectWrong hrole hwrong =>
    have hhas : new.Has s .subject := .subject (NewAce.not_names_of_none hwrong)
    exact Or.inl ⟨.subject, ⟨hhas, fun other hother => hother.two_le_rank hpath hrole⟩, rfl⟩
  | @aceUserAbsent _ user hrole hgiven habsent =>
    have hnames : new.Names (.user user) := names_iff.mpr hgiven
    exact Or.inl ⟨.unknown (.user user), ⟨.unknown hnames habsent,
      fun other hother => hother.three_le_rank hpath hrole hnames⟩, rfl⟩
  | @aceGroupAbsent _ group hrole hgiven habsent =>
    have hnames : new.Names (.group group) := names_iff.mpr hgiven
    exact Or.inl ⟨.unknown (.group group), ⟨.unknown hnames habsent,
      fun other hother => hother.three_le_rank hpath hrole hnames⟩, rfl⟩
  | @aceTaken _ subject hrole hgiven hsubject htaken =>
    have hnames : new.Names subject := names_iff.mpr hgiven
    obtain ⟨a, ha, hkey⟩ := htaken
    simp only [Ace.key, Prod.mk.injEq] at hkey
    obtain ⟨hat, rfl, hgives⟩ := hkey
    refine Or.inl ⟨.taken, ⟨.taken ha hat hnames hgives, fun other hother => ?_⟩, rfl⟩
    rw [hother.eq_taken hpath hrole hnames hsubject]
  | @aceAdded _ subject ace hrole hgiven hsubject hnew hace =>
    have hnames : new.Names subject := names_iff.mpr hgiven
    refine Or.inr ⟨fun flaw hflaw => ?_, ace, ?_, ?_, rfl⟩
    · obtain rfl := hflaw.eq_taken hpath hrole hnames hsubject
      cases hflaw with
      | @taken a ha hat hnames' hgives =>
        exact hnew a ha (by rw [Ace.key, hat, hnames'.unique hnames, hgives])
    · subst hace
      exact ⟨rfl, hnames, rfl, given_iff.mpr rfl, given_iff.mpr rfl, rfl, rfl⟩
    · rw [hace]

end Operation.Effect

/-! ## What the engine answers -/

namespace Engine

variable {e : Engine}

/-- **A new entry is refused for the first flaw that it has, and else it is added and nothing is changed.**  Every new
entry has one first flaw, or none at all.  If it has one, that is what is answered, and nothing is done.  If it has none,
there is one entry more, under an identifier that no entry bears.  It says what was asked for, all other rows are as they
were, and a look-up gives what was answered. -/
theorem createAce_decides (h : Reachable e.store) (hfree : e.connection = .free) (now : Stamp) (new : NewAce) :
    ((∃ flaw, new.First e.store flaw) ∨ ∀ flaw, ¬ new.Has e.store flaw) ∧
    (∀ flaw, new.First e.store flaw → e.run now (.createAce new) = (.error (flaw.error new), e)) ∧
    ((∀ flaw, ¬ new.Has e.store flaw) → ∃ ace e', e.run now (.createAce new) = (.ok (.ace ace), e') ∧
      new.Makes now ace ∧ (∀ a ∈ e.store.aces, a.id ≠ ace.id) ∧
      e' = { e with
        store.aces := e.store.aces ++ [ace]
        store.issued := { e.store.issued with aces := e.store.issued.aces + 1 } } ∧
      ∀ later, (e'.run later (.getAce ace.id)).1 = .ok (.ace ace)) := by
  have hsound : ((Operation.createAce new).run now e.store).2.Sound := (h.step now _).sound
  cases hfault : new.path.fault? with
  | some fault =>
    have hfirst : new.First e.store (.path fault) := ⟨.path hfault, fun _ _ => Nat.zero_le _⟩
    have hinput : (Operation.createAce new).fault? = some (.path fault) := by rw [Operation.fault?, hfault]; rfl
    have hrun : e.run now (.createAce new) = (.error (.invalid (.path fault)), e) := by
      rw [run_eq_of_free hfree, Operation.run_of_fault hinput]
    refine ⟨Or.inl ⟨_, hfirst⟩, fun flaw hflaw => ?_, fun hnone => absurd hfirst.has (hnone _)⟩
    rw [hflaw.unique hfirst, hrun]
    rfl
  | none =>
    have hinput : (Operation.createAce new).fault? = none := by rw [Operation.fault?, hfault]; rfl
    have heffect := (Operation.createAce new).perform_effect now e.store
    rw [run_eq_of_free hfree]
    rw [← Operation.run_eq_perform hinput] at heffect
    rcases heffect.createAce_cases hfault with ⟨first, hfirst, hreply⟩ | ⟨hnone, ace, hmakes, hid, hreply⟩
    · rw [hreply]
      refine ⟨Or.inl ⟨_, hfirst⟩, fun flaw hflaw => ?_, fun hnone => absurd hfirst.has (hnone _)⟩
      rw [hflaw.unique hfirst]
    · rw [hreply] at hsound ⊢
      refine ⟨Or.inr hnone, fun flaw hflaw => absurd hflaw.has (hnone flaw), fun _ => ?_⟩
      refine ⟨ace, _, rfl, hmakes, fun a ha hsame => ?_, rfl, fun later => ?_⟩
      · have hids := hsound.aces.ids_nodup
        rw [List.map_append, List.nodup_append] at hids
        exact hids.2.2 _ (List.mem_map_of_mem ha) _ (List.mem_singleton_self _) hsame
      · exact (shows_ace (e := { e with store := _ }) hsound hfree (List.mem_append_right _ (List.mem_singleton_self _))
          later).2.1

def oneRule : History :=
  [.createUser "ann", .createRole "operator" none, .createRole "guest" none,
    .createAce (.forUser (.ofString "/labs") (.issue .user 1) (.issue .role 1))].map fun op => (⟨"1"⟩, op)

/-- An entry at a relative path for a role that is not there, with two subjects, is refused for its path.  Without these
flaws it is refused for the user, who is not there either.  The rule that is there cannot be made again as a denial, and
for the other role it can. -/
theorem createAce_decides_oneRule :
    (({ store := Store.after {} oneRule } : Engine).run ⟨"2"⟩ (.createAce
      { NewAce.forUser (.ofString "labs") (.issue .user 7) (.issue .role 7) with group := some (.issue .group 1) })).1 =
        .error (.invalid (.path .notRooted)) ∧
    (({ store := Store.after {} oneRule } : Engine).run ⟨"2"⟩ (.createAce
      (.forUser (.ofString "/labs") (.issue .user 7) (.issue .role 1)))).1 = .error (.notFound .user (.issue .user 7)) ∧
    (({ store := Store.after {} oneRule } : Engine).run ⟨"2"⟩ (.createAce
      { NewAce.forUser (.ofString "/labs") (.issue .user 1) (.issue .role 1) with allowed := some false })).1 =
        .error (.conflict .ace "/labs") ∧
    ∃ ace e', ({ store := Store.after {} oneRule } : Engine).run ⟨"2"⟩ (.createAce
        { NewAce.forUser (.ofString "/labs") (.issue .user 1) (.issue .role 2) with allowed := some false }) =
          (.ok (.ace ace), e') ∧
      ace.allowed = false ∧ ace.propagates = true ∧ (e'.run ⟨"3"⟩ (.getAce ace.id)).1 = .ok (.ace ace) := by
  have hrules := createAce_decides (e := { store := Store.after {} oneRule }) (Reachable.empty.after oneRule) rfl ⟨"2"⟩
  have hoperator : .issue .role 1 ∈ (Store.after {} oneRule).roles.map (·.id) := by decide +kernel
  have hguest : .issue .role 2 ∈ (Store.after {} oneRule).roles.map (·.id) := by decide +kernel
  have hann : .user (.issue .user 1) ∈ (Store.after {} oneRule).subjects := by decide +kernel
  have hnobody : .user (.issue .user 7) ∉ (Store.after {} oneRule).subjects := by decide +kernel
  have hlabs : (Path.ofString "/labs").fault? = none := by decide +kernel
  refine ⟨?_, ?_, ?_, ?_⟩
  · have hfirst := (hrules { NewAce.forUser (.ofString "labs") (.issue .user 7) (.issue .role 7) with
      group := some (.issue .group 1) }).2.1 (.path .notRooted) ⟨.path (by decide +kernel), fun _ _ => Nat.zero_le _⟩
    rw [hfirst]
    rfl
  · have hnames : (NewAce.forUser (.ofString "/labs") (.issue .user 7) (.issue .role 1)).Names
        (.user (.issue .user 7)) := ⟨rfl, rfl, rfl⟩
    have hfirst := (hrules (.forUser (.ofString "/labs") (.issue .user 7) (.issue .role 1))).2.1 _
      ⟨.unknown hnames hnobody, fun _ hother => hother.three_le_rank hlabs hoperator hnames⟩
    rw [hfirst]
    rfl
  · have hrule : (⟨.issue .ace 1, .ofString "/labs", .user (.issue .user 1), .issue .role 1, true, true, ⟨"1"⟩,
        ⟨"1"⟩⟩ : Ace) ∈ (Store.after {} oneRule).aces := by decide +kernel
    have hnames : { NewAce.forUser (.ofString "/labs") (.issue .user 1) (.issue .role 1) with
        allowed := some false }.Names (.user (.issue .user 1)) := ⟨rfl, rfl, rfl⟩
    have hfirst := (hrules { NewAce.forUser (.ofString "/labs") (.issue .user 1) (.issue .role 1) with
      allowed := some false }).2.1 .taken ⟨.taken hrule rfl hnames rfl,
        fun other hother => by rw [hother.eq_taken hlabs hoperator hnames hann]⟩
    rw [hfirst, NewAce.Flaw.error]
    rfl
  · have hnames : { NewAce.forUser (.ofString "/labs") (.issue .user 1) (.issue .role 2) with
        allowed := some false }.Names (.user (.issue .user 1)) := ⟨rfl, rfl, rfl⟩
    have hnone : ∀ flaw, ¬ NewAce.Has (Store.after {} oneRule)
        { NewAce.forUser (.ofString "/labs") (.issue .user 1) (.issue .role 2) with allowed := some false } flaw := by
      intro flaw hflaw
      obtain rfl := hflaw.eq_taken hlabs hguest hnames hann
      cases hflaw with
      | @taken a ha _ _ hrole =>
        have hothers : ∀ a ∈ (Store.after {} oneRule).aces, a.role ≠ .issue .role 2 := by decide +kernel
        exact hothers a ha hrole
    obtain ⟨ace, e', hrun, hmakes, -, -, hget⟩ := (hrules _).2.2 hnone
    exact ⟨ace, e', hrun, hmakes.allowed.set _ rfl, hmakes.propagates.kept rfl, hget ⟨"3"⟩⟩

end Engine

end ResourceAccess
