import ResourceAccess.Proofs.Store.Seeded

/-!
# What becomes of a set-up

A set-up insists on a file that is not there.  It leaves the catalog, and with it the administrator if a name is given
that is not blank.  A blank name is refused too late: the file is there by then, with the catalog in it and nobody to
use it, and no further set-up gets anywhere.

* `Session.Administered`: one user may do everything that the catalog names, and nobody may do anything else
* `Session.through_run_setUp`: a file that is there is not set up again, ever
* `Session.setUp_outcome`: **the outcome of a set-up**
-/

namespace ResourceAccess

namespace Store

/-- The catalog is there, and nothing else at all. -/
structure HoldsOnlyCatalog (s : Store) : Prop extends s.HoldsCatalog where
  users : s.users = []
  aces : s.aces = []

theorem holdsOnlyCatalog_seed (now : Stamp) : (seed now {}).HoldsOnlyCatalog where
  toHoldsCatalog := holdsCatalog_seed now
  users := (seed_frame now {}).users
  aces := (seed_frame now {}).aces

theorem setUp_blank {name : String} (hblank : Text.isBlank name = true) (now : Stamp) :
    setUp now (some name) = (.error (.invalid .blankUsername), seed now {}) := by
  have hfault : (Operation.createUser name).fault? = some .blankUsername := by
    rw [Operation.fault?, Operation.nameFault?, if_pos hblank]
  simp only [setUp, hfault]

end Store

namespace Session

variable {now : Stamp} {s : Session} {file : DatabaseFile}

/-- One user has the administrator's role on everything in the catalog, is allowed at the root all that the catalog
names, and no rule allows or denies anything else. -/
structure Administered (s : Session) (user : User) : Prop where
  catalog : s.engine.store.HoldsCatalog
  administrator : s.engine.store.AdministeredBy user
  allowed : ∀ now path, path.isRooted = true → ∀ c ∈ Catalog.privileges,
    (s.run now (.operation (.explain user.id path c.name))).1 = .ok (.decision (.allowed .root))
  unmatched : ∀ now path subject privilege, subject ≠ user.id ∨ (¬ ∃ c ∈ Catalog.privileges, c.name = privilege) →
    (s.run now (.operation (.explain subject path privilege))).1 = .ok (.decision .noMatchingRule)

theorem administered_of_store {user : User} (hfree : s.engine.connection = .free)
    (hcatalog : s.engine.store.HoldsCatalog) (hadministrator : s.engine.store.AdministeredBy user) :
    s.Administered user where
  catalog := hcatalog
  administrator := hadministrator
  allowed := by
    intro now path hrooted c hc
    rw [run_operation_eq_ok, Engine.run_eq_perform hfree rfl]
    show Except.ok (Answer.decision (s.engine.store.explain user.id path c.name)) = _
    rw [hadministrator.explain_allowed hcatalog hrooted ⟨c, hc, rfl⟩]
  unmatched := by
    intro now path subject privilege hnot
    rw [run_operation_eq_ok, Engine.run_eq_perform hfree rfl]
    show Except.ok (Answer.decision (s.engine.store.explain subject path privilege)) = _
    rw [hadministrator.explain_unmatched hcatalog hnot]

/-! ## Running a set-up -/

theorem run_setUp_absent (hfile : s.file = some file) (habsent : file.present = false) (now : Stamp)
    (administrator : Option String) : s.run now (.setUp administrator) =
      (((Store.setUp now administrator).1.mapError Failure.access).map fun _ => .done,
        s.withEngine { s.engine with store := (Store.setUp now administrator).2 }) := by
  simp only [run, setUp, hfile, habsent]
  rfl

theorem withEngine_store (s : Session) (t : Store) : (s.withEngine { s.engine with store := t }).engine.store = t := rfl

theorem run_setUp_store (hfile : s.file = some file) (habsent : file.present = false) (now : Stamp)
    (administrator : Option String) :
    (s.run now (.setUp administrator)).2.engine.store = (Store.setUp now administrator).2 := by
  rw [run_setUp_absent hfile habsent, withEngine_store]

/-- Whatever happens after a set-up, there is no other one. -/
theorem through_run_setUp (hfile : s.file = some file) (hpresent : file.present = true)
    (events : List (Stamp × Event)) (later : Stamp) (administrator : Option String) :
    (s.through events).run later (.setUp administrator) = (.error (.databaseExists file.name), s.through events) :=
  run_setUp_present (through_file hfile hpresent events) hpresent

/-- **The outcome of a set-up.**  On a file that is not there it leaves the catalog, and with a name that is not blank
an administrator of it; without a name there is the same but this user and the entry.  A blank name is refused, and the
catalog is left without anybody.  On a file that is there a set-up does nothing; so after any of these outcomes every
later set-up fails, whatever happens in between. -/
theorem setUp_outcome (h : Reached s) (hfile : s.file = some file) (now : Stamp) :
    (file.present = true → ∀ administrator,
      s.run now (.setUp administrator) = (.error (.databaseExists file.name), s)) ∧
    (file.present = false →
      (∀ name, Text.isBlank name = false → ∃ user, user.name = name ∧
        (s.run now (.setUp (some name))).1 = .ok .done ∧ (s.run now (.setUp (some name))).2.Administered user ∧
        (s.run now (.setUp none)).2.engine.store = { (s.run now (.setUp (some name))).2.engine.store with
          users := []
          aces := []
          issued := (s.run now (.setUp none)).2.engine.store.issued }) ∧
      ((s.run now (.setUp none)).1 = .ok .done ∧ (s.run now (.setUp none)).2.engine.store.HoldsOnlyCatalog) ∧
      (∀ name, Text.isBlank name = true →
        (s.run now (.setUp (some name))).1 = .error (.access (.invalid .blankUsername)) ∧
        (s.run now (.setUp (some name))).2.engine.store = Store.seed now {} ∧
        (s.run now (.setUp (some name))).2.engine.store.HoldsOnlyCatalog) ∧
      ∀ administrator events later another,
        ((s.run now (.setUp administrator)).2.through events).run later (.setUp another) =
          (.error (.databaseExists file.name), (s.run now (.setUp administrator)).2.through events)) := by
  refine ⟨fun hpresent administrator => run_setUp_present hfile hpresent, fun habsent => ⟨?_, ?_, ?_, ?_⟩⟩
  · intro name hname
    obtain ⟨user, huser, hok, hcatalog, hadministrator, hsame⟩ := Store.setUp_named hname now
    have hfree : (s.run now (.setUp (some name))).2.engine.connection = .free := by
      rw [run_setUp_absent hfile habsent]
      exact (h.new_of_absent hfile habsent).connection
    have hstore := run_setUp_store hfile habsent now (some name)
    refine ⟨user, huser, ?_, administered_of_store hfree (hstore ▸ hcatalog) (hstore ▸ hadministrator), ?_⟩
    · rw [run_setUp_absent hfile habsent, hok]
      rfl
    · rw [run_setUp_store hfile habsent, run_setUp_store hfile habsent, Store.setUp_none]
      dsimp only
      exact hsame
  · rw [run_setUp_store hfile habsent, run_setUp_absent hfile habsent, Store.setUp_none]
    dsimp only
    exact ⟨rfl, Store.holdsOnlyCatalog_seed now⟩
  · intro name hblank
    rw [run_setUp_store hfile habsent, run_setUp_absent hfile habsent, Store.setUp_blank hblank]
    dsimp only
    exact ⟨rfl, rfl, Store.holdsOnlyCatalog_seed now⟩
  · intro administrator events later another
    have hopened : (s.run now (.setUp administrator)).2.file = some { file with present := true } := by
      rw [run_setUp_absent hfile habsent]
      show s.file.map _ = _
      rw [hfile, Option.map_some]
    exact through_run_setUp hopened rfl events later another

/-- On a new file the administrator reaches a console.  After a set-up for a blank name there is none, and the set-up
cannot be repeated. -/
theorem setUp_outcome_rules :
    (∃ user : User, user.name = "admin" ∧
      (((onFile "rules" none).run ⟨"1"⟩ (.setUp (some "admin"))).2.run ⟨"2"⟩
        (.operation (.explain user.id (.ofString "/nodes/1") "Node.Console"))).1 = .ok (.decision (.allowed .root))) ∧
    ((onFile "rules" none).run ⟨"1"⟩ (.setUp (some " "))).2.engine.store.HoldsOnlyCatalog ∧
    (((onFile "rules" none).run ⟨"1"⟩ (.setUp (some " "))).2.run ⟨"2"⟩ (.setUp (some "admin"))).1 =
      .error (.databaseExists "rules") := by
  obtain ⟨hnamed, -, hblank, hagain⟩ := (setUp_outcome (Reached.onFile "rules" none) rfl ⟨"1"⟩).2 rfl
  obtain ⟨user, hname, -, hadministered, -⟩ := hnamed "admin" (by decide +kernel)
  have hconsole : (⟨"Node.Console", "Open node consoles"⟩ : Catalog.Privilege) ∈ Catalog.privileges := by
    simp [Catalog.privileges]
  have hallowed := hadministered.allowed ⟨"2"⟩ (.ofString "/nodes/1") (by decide +kernel) _ hconsole
  have hrefused := hagain (some " ") [] ⟨"2"⟩ (some "admin")
  dsimp only [through, List.foldl_nil] at hallowed hrefused
  exact ⟨⟨user, hname, hallowed⟩, (hblank " " (by decide +kernel)).2.2, by rw [hrefused]⟩

end Session

end ResourceAccess
