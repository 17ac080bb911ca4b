import ResourceAccess.Json.Printer
import ResourceAccess.Operation
import ResourceAccess.Payload.Record

/-!
# Answers as text

What a command prints: a truth value or a number as it is, and records as JSON over several lines, each record with its
fields in the order in which it declares them.
-/

namespace ResourceAccess.Answer

def toJson : Answer → Json
  | .done => .null
  | .absent => .null
  | .flag b => .bool b
  | .count n => .ofNat n
  | .user u => u.toJson
  | .users us => .array (us.map User.toJson)
  | .group g => g.toJson
  | .role r => r.toJson
  | .roles rs => .array (rs.map Role.toJson)
  | .privilege p => p.toJson
  | .privileges ps => .array (ps.map Privilege.toJson)
  | .ace a => a.toJson
  | .aces as => .array (as.map Ace.toJson)
  | .rules rs => .array (rs.map Rule.toJson)
  | .decision d => d.toJson
  | .tables us rs ps as =>
    .object
      [("users", .array (us.map User.toJson)), ("roles", .array (rs.map Role.toJson)),
       ("privileges", .array (ps.map Privilege.toJson)), ("aces", .array (as.map Ace.toJson))]

def text (a : Answer) : String := a.toJson.pretty

end ResourceAccess.Answer
