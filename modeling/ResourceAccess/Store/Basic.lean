import ResourceAccess.Decision
import ResourceAccess.Error
import ResourceAccess.Sorted

/-!
# The tables

A store is six tables. Each keeps its rows in the order in which they were made, so the first row that fits is the
oldest one, and a list that is shown is a sorted copy. Rows refer to each other by identifier.
-/

namespace ResourceAccess

/-- When a row was made or changed, as the caller writes it. -/
structure Stamp where
  text : String
deriving DecidableEq

/-- Of two stamps the longer one is the later, and of two that are equally long the one with the greater text. Clocks
write stamps of one length, and counters write numbers. -/
instance : LE Stamp where
  le a b := a.text.length < b.text.length ∨ a.text.length = b.text.length ∧ a.text ≤ b.text

instance : DecidableLE Stamp := fun a b =>
  inferInstanceAs (Decidable (a.text.length < b.text.length ∨ a.text.length = b.text.length ∧ a.text ≤ b.text))

structure User where
  id : Id
  name : String
  created : Stamp
deriving DecidableEq

structure Group where
  id : Id
  name : String
  created : Stamp
deriving DecidableEq

structure Privilege where
  id : Id
  name : String
  description : Option String
  created : Stamp
  updated : Stamp
deriving DecidableEq

/-- A role as its table holds it. -/
structure RoleRow where
  id : Id
  name : String
  description : Option String
  builtin : Bool
  created : Stamp
  updated : Stamp
deriving DecidableEq

/-- A role with the privileges attached to it. -/
structure Role extends RoleRow where
  privileges : List Privilege
deriving DecidableEq

def Role.hasPrivilege (r : Role) (name : String) : Bool := r.privileges.any (·.name == name)

structure Membership where
  role : Id
  privilege : Id
deriving DecidableEq

/-- Whom an access control entry binds. -/
inductive Subject where
  | user (id : Id)
  | group (id : Id)
deriving DecidableEq

namespace Subject

def kind : Subject → SubjectKind
  | .user _ => .user
  | .group _ => .group

def user? : Subject → Option Id
  | .user id => some id
  | .group _ => none

def group? : Subject → Option Id
  | .user _ => none
  | .group id => some id

end Subject

/-- An access control entry: it gives a subject a role at a path, allowing or denying the role's privileges there. -/
structure Ace where
  id : Id
  path : Path
  subject : Subject
  role : Id
  allowed : Bool
  propagates : Bool
  created : Stamp
  updated : Stamp
deriving DecidableEq

def Ace.rule (a : Ace) : Rule := ⟨a.path, a.allowed, a.propagates⟩

/-- How many identifiers of each kind have been issued. -/
structure Issued where
  users : Nat := 0
  groups : Nat := 0
  roles : Nat := 0
  privileges : Nat := 0
  aces : Nat := 0
deriving DecidableEq

structure Store where
  users : List User := []
  groups : List Group := []
  roles : List RoleRow := []
  privileges : List Privilege := []
  memberships : List Membership := []
  aces : List Ace := []
  issued : Issued := {}
deriving DecidableEq

namespace Store

/-! ## Rows by identifier and by name -/

def user? (s : Store) (id : Id) : Option User := s.users.find? (·.id == id)

def userNamed? (s : Store) (name : String) : Option User := s.users.find? (·.name == name)

def group? (s : Store) (id : Id) : Option Group := s.groups.find? (·.id == id)

def roleRow? (s : Store) (id : Id) : Option RoleRow := s.roles.find? (·.id == id)

def roleRowNamed? (s : Store) (name : String) : Option RoleRow := s.roles.find? (·.name == name)

def privilege? (s : Store) (id : Id) : Option Privilege := s.privileges.find? (·.id == id)

def privilegeNamed? (s : Store) (name : String) : Option Privilege := s.privileges.find? (·.name == name)

def ace? (s : Store) (id : Id) : Option Ace := s.aces.find? (·.id == id)

end Store

/-- What an operation on the store gives: a refusal, or an answer and the store after it. -/
abbrev Outcome (α : Type) := Except AccessError (α × Store)

end ResourceAccess
