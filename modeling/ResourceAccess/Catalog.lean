/-!
# The built-in catalog

The privileges and roles that every installation starts with. A built-in role covers catalog privileges by a rule on
their names.

* `Catalog.memberships`: the pairs of role and privilege that the rules give
-/

namespace ResourceAccess.Catalog

/-- Which privileges a built-in role receives. -/
inductive Coverage where
  | all
  /-- Those whose names end so. -/
  | endingIn (ending : String)
  | listed (names : List String)
  | nothing

def Coverage.covers (coverage : Coverage) (privilege : String) : Bool :=
  match coverage with
  | .all => true
  | .endingIn ending => ending.toList.isSuffixOf privilege.toList
  | .listed names => names.contains privilege
  | .nothing => false

structure Privilege where
  name : String
  description : String

structure Role where
  name : String
  description : String
  coverage : Coverage

def privileges : List Privilege :=
  [⟨"Project.Audit", "View projects and their settings"⟩,
   ⟨"Project.Allocate", "Create, duplicate and import projects"⟩,
   ⟨"Project.Modify", "Change, open, close and delete projects"⟩,
   ⟨"Snapshot.Audit", "View project snapshots"⟩,
   ⟨"Snapshot.Allocate", "Create and restore project snapshots"⟩,
   ⟨"Node.Audit", "View nodes"⟩,
   ⟨"Node.Allocate", "Add and delete nodes"⟩,
   ⟨"Node.Modify", "Change node settings"⟩,
   ⟨"Node.PowerMgmt", "Start, stop, suspend and reload nodes"⟩,
   ⟨"Node.Console", "Open node consoles"⟩,
   ⟨"Link.Audit", "View links"⟩,
   ⟨"Link.Allocate", "Add and delete links"⟩,
   ⟨"Link.Modify", "Change links and their filters"⟩,
   ⟨"Link.Capture", "Capture packets on links"⟩,
   ⟨"Drawing.Audit", "View drawings"⟩,
   ⟨"Drawing.Allocate", "Add and delete drawings"⟩,
   ⟨"Drawing.Modify", "Change drawings"⟩,
   ⟨"Template.Audit", "View templates"⟩,
   ⟨"Template.Allocate", "Create and delete templates"⟩,
   ⟨"Template.Modify", "Change templates"⟩,
   ⟨"Image.Audit", "View images"⟩,
   ⟨"Image.Allocate", "Upload and delete images"⟩,
   ⟨"Compute.Audit", "View computes"⟩,
   ⟨"Compute.Allocate", "Register and remove computes"⟩,
   ⟨"Compute.Modify", "Change compute settings"⟩,
   ⟨"User.Audit", "View users"⟩,
   ⟨"User.Allocate", "Create and delete users"⟩,
   ⟨"User.Modify", "Change users"⟩,
   ⟨"Group.Audit", "View user groups"⟩,
   ⟨"Group.Allocate", "Create and delete user groups"⟩,
   ⟨"Group.Modify", "Change user groups and their members"⟩,
   ⟨"Role.Audit", "View roles"⟩,
   ⟨"Role.Allocate", "Create and delete roles"⟩,
   ⟨"Role.Modify", "Change roles and their privileges"⟩,
   ⟨"Privilege.Audit", "View privileges"⟩,
   ⟨"ACE.Audit", "View access control entries"⟩,
   ⟨"ACE.Allocate", "Create and delete access control entries"⟩,
   ⟨"ACE.Modify", "Change access control entries"⟩,
   ⟨"Symbol.Audit", "View symbols"⟩,
   ⟨"Symbol.Allocate", "Upload symbols"⟩]

def administrator : String := "Administrator"

def roles : List Role :=
  [⟨administrator, "Administrator role", .all⟩,
   ⟨"User", "User role", .listed
      ["Project.Audit", "Project.Allocate", "Project.Modify", "Snapshot.Audit", "Snapshot.Allocate",
       "Node.Audit", "Node.Allocate", "Node.Modify", "Node.PowerMgmt", "Node.Console", "Link.Audit",
       "Link.Allocate", "Link.Modify", "Link.Capture", "Drawing.Audit", "Drawing.Allocate",
       "Drawing.Modify", "Template.Audit", "Image.Audit", "Compute.Audit", "Symbol.Audit",
       "Symbol.Allocate"]⟩,
   ⟨"Auditor", "Role with read-only access", .endingIn ".Audit"⟩,
   ⟨"Template manager", "Role to allow a user to create and manage templates", .listed
      ["Template.Audit", "Template.Allocate", "Template.Modify", "Image.Audit", "Image.Allocate"]⟩,
   ⟨"ACL manager", "Role to allow a user to manage access control", .listed
      ["User.Audit", "Group.Audit", "Role.Audit", "Privilege.Audit", "ACE.Audit", "ACE.Allocate",
       "ACE.Modify"]⟩,
   ⟨"No Access", "Role with no privileges", .nothing⟩]

def memberships : List (String × String) :=
  roles.flatMap fun r => (privileges.filter (r.coverage.covers ·.name)).map (r.name, ·.name)

def role? (name : String) : Option Role := roles.find? (·.name == name)

end ResourceAccess.Catalog
