import ResourceAccess.Payload.Shape
import ResourceAccess.Store.Ace
import ResourceAccess.Store.Privilege
import ResourceAccess.Store.Role

/-!
# What callers send as JSON

Updates and new entries, each with its reader `ofJson` and its writer `toJson`. An optional field that is absent or
null is unset; the writer writes every field.
-/

namespace ResourceAccess

open Payload

def Id.ofJson (j : Json) : Decoded Id := (Payload.text j).map (⟨·⟩)

def Id.toJson (id : Id) : Json := .string id.text

def Path.ofJson (j : Json) : Decoded Path := (Payload.text j).map Path.ofString

def Path.toJson (p : Path) : Json := .string p.text

def SubjectKind.toJson (kind : SubjectKind) : Json := .string kind.word

/-! ## Updates -/

namespace Payload

/-- What an update of a name and of a description has read so far. -/
structure Naming where
  name : Option String := none
  description : Option String := none

/-- The shape of such an update; `title` is what messages call it. -/
def namingShape (title : String) : Shape Naming where
  name := title
  fields := ["name", "description"]
  blank := {}
  put field j n :=
    match field with
    | "name" => return { n with name := ← optional text j }
    | "description" => return { n with description := ← optional text j }
    | _ => return n

def readNaming {α : Type} (title : String) (make : Naming → α) (j : Json) : Decoded α :=
  (namingShape title).read (fun _ n => .ok (make n)) j

def Naming.toJson (n : Naming) : Json :=
  .object [("name", .ofOption .string n.name), ("description", .ofOption .string n.description)]

end Payload

def RoleUpdate.ofJson : Json → Decoded RoleUpdate := readNaming "RoleUpdate" fun n => ⟨n.name, n.description⟩

def RoleUpdate.toJson (u : RoleUpdate) : Json := Naming.toJson ⟨u.name, u.description⟩

def PrivilegeUpdate.ofJson : Json → Decoded PrivilegeUpdate :=
  readNaming "PrivilegeUpdate" fun n => ⟨n.name, n.description⟩

def PrivilegeUpdate.toJson (u : PrivilegeUpdate) : Json := Naming.toJson ⟨u.name, u.description⟩

namespace AceUpdate

def shape : Shape AceUpdate where
  name := "AceUpdate"
  fields := ["path", "role_id", "allowed", "propagate"]
  blank := {}
  put field j u :=
    match field with
    | "path" => return { u with path := ← optional Path.ofJson j }
    | "role_id" => return { u with role := ← optional Id.ofJson j }
    | "allowed" => return { u with allowed := ← optional flag j }
    | "propagate" => return { u with propagates := ← optional flag j }
    | _ => return u

def ofJson (j : Json) : Decoded AceUpdate := shape.read (fun _ u => .ok u) j

def toJson (u : AceUpdate) : Json :=
  .object
    [("path", .ofOption Path.toJson u.path), ("role_id", .ofOption Id.toJson u.role),
     ("allowed", .ofOption .bool u.allowed), ("propagate", .ofOption .bool u.propagates)]

end AceUpdate

/-! ## New entries -/

namespace NewAce

structure Slots where
  path : Option Path := none
  kind : Option SubjectKind := none
  user : Option Id := none
  group : Option Id := none
  role : Option Id := none
  allowed : Option Bool := none
  propagates : Option Bool := none

def shape : Shape Slots where
  name := "AceCreate"
  fields := ["path", "ace_type", "user_id", "group_id", "role_id", "allowed", "propagate"]
  blank := {}
  put field j s :=
    match field with
    | "path" => return { s with path := some (← Path.ofJson j) }
    | "ace_type" => return { s with kind := some (← Payload.kind j) }
    | "user_id" => return { s with user := ← optional Id.ofJson j }
    | "group_id" => return { s with group := ← optional Id.ofJson j }
    | "role_id" => return { s with role := some (← Id.ofJson j) }
    | "allowed" => return { s with allowed := ← optional flag j }
    | "propagate" => return { s with propagates := ← optional flag j }
    | _ => return s

def ofSlots (form : Form) (s : Slots) : Decoded NewAce := do
  let path ← shape.required form "path" s.path
  let kind ← shape.required form "ace_type" s.kind
  let role ← shape.required form "role_id" s.role
  return { path, kind, user := s.user, group := s.group, role, allowed := s.allowed, propagates := s.propagates }

def ofJson (j : Json) : Decoded NewAce := shape.read ofSlots j

def toJson (n : NewAce) : Json :=
  .object
    [("path", n.path.toJson), ("ace_type", n.kind.toJson), ("user_id", .ofOption Id.toJson n.user),
     ("group_id", .ofOption Id.toJson n.group), ("role_id", n.role.toJson),
     ("allowed", .ofOption .bool n.allowed), ("propagate", .ofOption .bool n.propagates)]

end NewAce

end ResourceAccess
