import ResourceAccess.Payload.Request
import ResourceAccess.Store.Subject

/-!
# Records as JSON

How rows, roles and decisions are written, and how a role and its privileges are read back.
-/

namespace ResourceAccess

open Payload

def Stamp.ofJson (j : Json) : Decoded Stamp := (Payload.text j).map (⟨·⟩)

def Stamp.toJson (s : Stamp) : Json := .string s.text

/-! ## Privileges -/

namespace Privilege

/-- The parts of a privilege as they are read. -/
structure Slots where
  id : Option Id := none
  name : Option String := none
  description : Option (Option String) := none
  created : Option Stamp := none
  updated : Option Stamp := none

def shape : Shape Slots where
  name := "Privilege"
  fields := ["privilege_id", "name", "description", "created_at", "updated_at"]
  blank := {}
  put field j s :=
    match field with
    | "privilege_id" => return { s with id := some (← Id.ofJson j) }
    | "name" => return { s with name := some (← text j) }
    | "description" => return { s with description := some (← optional text j) }
    | "created_at" => return { s with created := some (← Stamp.ofJson j) }
    | "updated_at" => return { s with updated := some (← Stamp.ofJson j) }
    | _ => return s

def ofSlots (form : Form) (s : Slots) : Decoded Privilege := do
  let id ← shape.required form "privilege_id" s.id
  let name ← shape.required form "name" s.name
  let description ← match form with
    | .object => pure (s.description.getD none)
    | .array => shape.required form "description" s.description
  let created ← shape.required form "created_at" s.created
  let updated ← shape.required form "updated_at" s.updated
  return { id, name, description, created, updated }

def ofJson (j : Json) : Decoded Privilege := shape.read ofSlots j

def toJson (p : Privilege) : Json :=
  .object
    [("privilege_id", p.id.toJson), ("name", .string p.name), ("description", .ofOption .string p.description),
     ("created_at", p.created.toJson), ("updated_at", p.updated.toJson)]

end Privilege

/-! ## Roles -/

namespace Role

/-- The parts of a role as they are read. -/
structure Slots where
  id : Option Id := none
  name : Option String := none
  description : Option (Option String) := none
  builtin : Option Bool := none
  created : Option Stamp := none
  updated : Option Stamp := none
  privileges : Option (List Privilege) := none

def shape : Shape Slots where
  name := "Role"
  fields := ["role_id", "name", "description", "is_builtin", "created_at", "updated_at", "privileges"]
  blank := {}
  put field j s :=
    match field with
    | "role_id" => return { s with id := some (← Id.ofJson j) }
    | "name" => return { s with name := some (← text j) }
    | "description" => return { s with description := some (← optional text j) }
    | "is_builtin" => return { s with builtin := some (← flag j) }
    | "created_at" => return { s with created := some (← Stamp.ofJson j) }
    | "updated_at" => return { s with updated := some (← Stamp.ofJson j) }
    | "privileges" => return { s with privileges := some (← Payload.list Privilege.ofJson j) }
    | _ => return s

def ofSlots (form : Form) (s : Slots) : Decoded Role := do
  let id ← shape.required form "role_id" s.id
  let name ← shape.required form "name" s.name
  let description ← match form with
    | .object => pure (s.description.getD none)
    | .array => shape.required form "description" s.description
  let builtin ← shape.required form "is_builtin" s.builtin
  let created ← shape.required form "created_at" s.created
  let updated ← shape.required form "updated_at" s.updated
  let privileges ← shape.required form "privileges" s.privileges
  return { id, name, description, builtin, created, updated, privileges }

def ofJson (j : Json) : Decoded Role := shape.read ofSlots j

def toJson (r : Role) : Json :=
  .object
    [("role_id", r.id.toJson), ("name", .string r.name), ("description", .ofOption .string r.description),
     ("is_builtin", .bool r.builtin), ("created_at", r.created.toJson), ("updated_at", r.updated.toJson),
     ("privileges", .array (r.privileges.map Privilege.toJson))]

end Role

/-! ## Written only -/

def User.toJson (u : User) : Json :=
  .object [("user_id", u.id.toJson), ("username", .string u.name), ("created_at", u.created.toJson)]

def Group.toJson (g : Group) : Json :=
  .object [("user_group_id", g.id.toJson), ("name", .string g.name), ("created_at", g.created.toJson)]

def Ace.toJson (a : Ace) : Json :=
  .object
    [("ace_id", a.id.toJson), ("path", a.path.toJson), ("ace_type", a.subject.kind.toJson),
     ("user_id", .ofOption Id.toJson a.subject.user?), ("group_id", .ofOption Id.toJson a.subject.group?),
     ("role_id", a.role.toJson), ("allowed", .bool a.allowed), ("propagate", .bool a.propagates),
     ("created_at", a.created.toJson), ("updated_at", a.updated.toJson)]

def Rule.toJson (r : Rule) : Json :=
  .object [("path", r.path.toJson), ("allowed", .bool r.allowed), ("propagate", .bool r.propagates)]

def Decision.toJson : Decision → Json
  | .allowed level => .object [("decision", .string "allowed"), ("at", level.toJson)]
  | .denied level => .object [("decision", .string "denied"), ("at", level.toJson)]
  | .noMatchingRule => .object [("decision", .string "no_matching_rule")]

end ResourceAccess
