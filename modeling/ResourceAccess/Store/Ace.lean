import ResourceAccess.Store.Basic

/-!
# Access control entries and privilege checks

A subject has at most one entry for a role at a path. A check collects the rules of the user's own entries whose role
holds the privilege and lets them decide; entries of groups take no part.
-/

namespace ResourceAccess

/-- The entry to make; allowed and propagating unless it says otherwise. -/
structure NewAce where
  path : Path
  kind : SubjectKind
  user : Option Id := none
  group : Option Id := none
  role : Id
  allowed : Option Bool := none
  propagates : Option Bool := none
deriving DecidableEq

namespace NewAce

def forUser (path : Path) (user role : Id) : NewAce := { path, kind := .user, user := some user, role }

def forGroup (path : Path) (group role : Id) : NewAce := { path, kind := .group, group := some group, role }

/-- The one subject of the entry's kind, if it alone is given. -/
def subject? (n : NewAce) : Option Subject :=
  match n.kind, n.user, n.group with
  | .user, some user, none => some (.user user)
  | .group, none, some group => some (.group group)
  | _, _, _ => none

end NewAce

/-- The fields to set in an entry; an unset field keeps what is stored. -/
structure AceUpdate where
  path : Option Path := none
  role : Option Id := none
  allowed : Option Bool := none
  propagates : Option Bool := none
deriving DecidableEq

def AceUpdate.apply (update : AceUpdate) (a : Ace) : Ace :=
  { a with
    path := update.path.getD a.path
    role := update.role.getD a.role
    allowed := update.allowed.getD a.allowed
    propagates := update.propagates.getD a.propagates }

/-- The older entry comes first, and of two that were made at once the identifier decides. -/
def Ace.older : Ace → Ace → Bool := thenBy (·.created) fun a b => decide (a.id.text ≤ b.id.text)

/-- Paths ascend; at one path the older entry comes first. -/
def Ace.precedes : Ace → Ace → Bool := thenBy (·.path.text) fun a b => decide (a.created ≤ b.created)

/-- Paths descend; at one path allowing rules come first, and of those alike the propagating ones. -/
def Rule.precedes (a b : Rule) : Bool :=
  if a.path = b.path then
    if a.allowed = b.allowed then a.propagates || !b.propagates else a.allowed
  else decide (b.path.text ≤ a.path.text)

namespace Store

/-! ## Reading -/

/-- The oldest entry at a path. -/
def aceAt? (s : Store) (path : Path) : Option Ace := (sorted Ace.older (s.aces.filter (·.path == path))).head?

def aceList (s : Store) : List Ace := sorted Ace.precedes s.aces

/-! ## Rows -/

def requireRole (s : Store) (role : Id) : Except AccessError Unit :=
  if s.roles.any (·.id == role) then .ok () else .error (.notFound .role role)

def requireSubject (s : Store) : Subject → Except AccessError Unit
  | .user id => if s.users.any (·.id == id) then .ok () else .error (.notFound .user id)
  | .group id => if s.groups.any (·.id == id) then .ok () else .error (.notFound .group id)

/-- Whether another entry than the given one binds the subject to the role at the path. -/
def hasRival (s : Store) (id : Id) (path : Path) (subject : Subject) (role : Id) : Bool :=
  s.aces.any fun a => a.id != id && a.path == path && a.subject == subject && a.role == role

/-- The subject of a new entry, or the first reason to refuse the entry. -/
def accept (s : Store) (new : NewAce) : Except AccessError Subject := do
  s.requireRole new.role
  match new.subject? with
  | none => throw (.invalid (.subject new.kind))
  | some subject =>
    s.requireSubject subject
    if s.aces.any (fun a => a.path == new.path && a.subject == subject && a.role == new.role) then
      throw (.conflict .ace new.path.text)
    return subject

def createAce (now : Stamp) (new : NewAce) (s : Store) : Outcome Ace :=
  match s.accept new with
  | .error e => .error e
  | .ok subject =>
    let ace : Ace := ⟨.issue .ace (s.issued.aces + 1), new.path, subject, new.role,
      new.allowed.getD true, new.propagates.getD true, now, now⟩
    .ok (ace, { s with
      aces := s.aces ++ [ace]
      issued := { s.issued with aces := s.issued.aces + 1 } })

/-- Refuses a changed entry: its newly set role may have no row, or another entry may stand in its place. -/
def acceptChange (s : Store) (update : AceUpdate) (changed : Ace) : Except AccessError Unit := do
  match update.role with
  | none => pure ()
  | some role => s.requireRole role
  if s.hasRival changed.id changed.path changed.subject changed.role then
    throw (.conflict .ace changed.path.text)

def updateAce (now : Stamp) (id : Id) (update : AceUpdate) (s : Store) : Outcome (Option Ace) :=
  match s.ace? id with
  | none => .ok (none, s)
  | some current =>
    let changed := { update.apply current with updated := now }
    match s.acceptChange update changed with
    | .error e => .error e
    | .ok () => .ok (some changed, { s with aces := s.aces.map fun a => if a.id = id then changed else a })

def deleteAce (id : Id) (s : Store) : Bool × Store :=
  (s.aces.any (·.id == id), { s with aces := s.aces.filter (·.id != id) })

/-- Takes away every entry at or below a path, and counts them. -/
def purge (top : Path) (s : Store) : Nat × Store :=
  (s.aces.countP (top.subtree.covers ·.path),
    { s with aces := s.aces.filter (!top.subtree.covers ·.path) })

/-! ## Checks -/

/-- The rules of the user's entries whose role holds the privilege of that name. -/
def rulesFor (s : Store) (user : Id) (privilege : String) : List Rule :=
  (s.aces.filter (·.subject == .user user)).flatMap fun a =>
    (s.memberships.filter (·.role == a.role)).flatMap fun m =>
      (s.privileges.filter fun p => p.id == m.privilege && p.name == privilege).map fun _ => a.rule

def candidates (s : Store) (user : Id) (privilege : String) : List Rule :=
  sorted Rule.precedes (s.rulesFor user privilege)

def explain (s : Store) (user : Id) (path : Path) (privilege : String) : Decision :=
  .ofRules (s.candidates user privilege) path

def check (s : Store) (user : Id) (path : Path) (privilege : String) : Bool :=
  (s.explain user path privilege).isAllowed

end Store

end ResourceAccess
