import ResourceAccess.Operation

/-!
# Setting up a new store

A new store is seeded with the catalog and, when an administrator is named, gets that user with the administrator's
role at the root. A refused name leaves the seeded store behind.

* `Store.setUp_none`: without an administrator the store is the seeded one
-/

namespace ResourceAccess.Store

def addAdministrator (now : Stamp) (name : String) (s : Store) : Except AccessError Store := do
  let (user, withUser) ← s.createUser now name
  match withUser.roleRowNamed? Catalog.administrator with
  | none => throw (.notFound .role ⟨Catalog.administrator⟩)
  | some role =>
    let new := { NewAce.forUser .root user.id role.id with allowed := some true, propagates := some true }
    let (_, after) ← withUser.createAce now new
    return after

/-- What becomes of a new store, and the store. -/
def setUp (now : Stamp) (administrator : Option String) : Except AccessError Unit × Store :=
  let seeded := seed now {}
  match administrator with
  | none => (.ok (), seeded)
  | some name =>
    match (Operation.createUser name).fault? with
    | some fault => (.error (.invalid fault), seeded)
    | none =>
      match addAdministrator now name seeded with
      | .error e => (.error e, seeded)
      | .ok after => (.ok (), after)

theorem setUp_none (now : Stamp) : setUp now none = (.ok (), seed now {}) := rfl

end ResourceAccess.Store
