import ResourceAccess.Payload.Answer
import ResourceAccess.Proofs.Json.Printed
import ResourceAccess.Proofs.Payload.Coding

/-!
# What the printed answers say

Truth values and numbers are printed as they are.  Everything else is printed as JSON: read again it gives the fields of
each record, in the order in which the record declares them, and from these fields the record itself.

* `Answer.Wording`: what the texts of the answers are
* `Answer.wording`: **the texts are these**
-/

namespace ResourceAccess

/-- The names of the fields, as they stand. -/
def Json.names : Json → List String
  | .object fields => fields.map (·.1)
  | _ => []

namespace Answer

/-- The texts of the answers that commands print. -/
structure Wording : Prop where
  flag : ∀ b, (Answer.flag b).text = if b then "true" else "false"
  count : ∀ n, (Answer.count n).text = toString n
  allowed : ∀ level : Path, Json.scan (decision (.allowed level)).text =
    some (.object [("decision", .string "allowed"), ("at", .string level.text)])
  denied : ∀ level : Path, Json.scan (decision (.denied level)).text =
    some (.object [("decision", .string "denied"), ("at", .string level.text)])
  unmatched : Json.scan (decision .noMatchingRule).text = some (.object [("decision", .string "no_matching_rule")])
  role : ∀ r, Json.scan (Answer.role r).text = some r.toJson
  roles : ∀ rs, Json.scan (Answer.roles rs).text = some (.array (rs.map Role.toJson))
  privileges : ∀ ps, Json.scan (Answer.privileges ps).text = some (.array (ps.map Privilege.toJson))
  aces : ∀ as, Json.scan (Answer.aces as).text = some (.array (as.map Ace.toJson))
  role_record : ∀ r : Role, r.toJson.names =
      ["role_id", "name", "description", "is_builtin", "created_at", "updated_at", "privileges"] ∧
    Role.ofJson r.toJson = .ok r
  privilege_record : ∀ p : Privilege, p.toJson.names =
      ["privilege_id", "name", "description", "created_at", "updated_at"] ∧ Privilege.ofJson p.toJson = .ok p
  ace_record : ∀ a : Ace, a.toJson.names =
      ["ace_id", "path", "ace_type", "user_id", "group_id", "role_id", "allowed", "propagate", "created_at",
        "updated_at"] ∧ Ace.ofJson a.toJson = .ok a

end Answer

/-! ## Records without numbers -/

namespace Json

variable {depth : Nat}

theorem arePlainItems_map {α : Type} {encode : α → Json} (h : ∀ a, (encode a).isPlain depth = true) (items : List α) :
    arePlainItems depth (items.map encode) = true := by
  induction items with
  | nil => rfl
  | cons a rest ih => exact Bool.and_eq_true_iff.mpr ⟨h a, ih⟩

theorem isPlain_ofOption {α : Type} {encode : α → Json} (h : ∀ a, (encode a).isPlain depth = true) (o : Option α) :
    (Json.ofOption encode o).isPlain depth = true := by
  cases o with
  | none => rfl
  | some a => exact h a

theorem isPlain_string (s : String) : (Json.string s).isPlain depth = true := rfl

end Json

open Json (arePlainFields isPlain_ofOption isPlain_string arePlainItems_map)

theorem Privilege.isPlain_toJson (p : Privilege) (depth : Nat) : p.toJson.isPlain (depth + 1) = true := by
  have hdescription : (Json.ofOption .string p.description).isPlain depth = true :=
    isPlain_ofOption isPlain_string p.description
  simp [Privilege.toJson, Json.isPlain, arePlainFields, hdescription, Id.toJson, Stamp.toJson]

theorem Role.isPlain_toJson (r : Role) (depth : Nat) : r.toJson.isPlain (depth + 3) = true := by
  have hdescription : (Json.ofOption .string r.description).isPlain (depth + 2) = true :=
    isPlain_ofOption isPlain_string r.description
  have hprivileges := arePlainItems_map (fun p : Privilege => p.isPlain_toJson depth) r.privileges
  simp [Role.toJson, Json.isPlain, arePlainFields, hdescription, hprivileges, Id.toJson, Stamp.toJson]

theorem Ace.isPlain_toJson (a : Ace) (depth : Nat) : a.toJson.isPlain (depth + 1) = true := by
  have hid : ∀ o : Option Id, (Json.ofOption Id.toJson o).isPlain depth = true := isPlain_ofOption fun _ => rfl
  simp [Ace.toJson, Json.isPlain, arePlainFields, hid, Id.toJson, Stamp.toJson, Path.toJson, SubjectKind.toJson]

/-! ## The texts -/

namespace Answer

theorem wording : Wording where
  flag := by
    intro b
    cases b <;> rfl
  count := by
    intro n
    show String.ofList (toString (n : Int)).toList = toString n
    rw [String.ofList_toList]
    rfl
  allowed := fun level => Json.scan_pretty (j := (Decision.allowed level).toJson) rfl
  denied := fun level => Json.scan_pretty (j := (Decision.denied level).toJson) rfl
  unmatched := Json.scan_pretty (j := Decision.noMatchingRule.toJson) rfl
  role := fun r => Json.scan_pretty (r.isPlain_toJson 124)
  roles := fun rs => Json.scan_pretty (j := .array (rs.map Role.toJson)) (arePlainItems_map (·.isPlain_toJson 123) rs)
  privileges := fun ps =>
    Json.scan_pretty (j := .array (ps.map Privilege.toJson)) (arePlainItems_map (·.isPlain_toJson 125) ps)
  aces := fun as => Json.scan_pretty (j := .array (as.map Ace.toJson)) (arePlainItems_map (·.isPlain_toJson 125) as)
  role_record := fun r => ⟨rfl, r.ofJson_toJson⟩
  privilege_record := fun p => ⟨rfl, p.ofJson_toJson⟩
  ace_record := fun a => ⟨rfl, a.ofJson_of_fields fun _ => rfl⟩

-- The layout: a field to a line, two blanks deeper.
example : (decision (.denied .root)).text = "\x7b\n  \"decision\": \"denied\",\n  \"at\": \"/\"\n\x7d" := by decide

end Answer

end ResourceAccess
