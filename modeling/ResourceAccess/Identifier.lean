/-!
# Identifiers

An identifier is an opaque text. The store issues the ones that rows bear, numbered from one for each kind of row; any
other text is an identifier that no row has.

* `Id.issue_inj`: what is issued for two kinds or two numbers differs
-/

namespace ResourceAccess

inductive Entity where
  | user
  | group
  | role
  | privilege
  | ace
deriving DecidableEq

def Entity.word : Entity → String
  | .user => "user"
  | .group => "group"
  | .role => "role"
  | .privilege => "privilege"
  | .ace => "ACE"

structure Id where
  text : String
deriving DecidableEq

namespace Id

/-- What an issued identifier of this kind starts with. -/
def stem : Entity → List Char
  | .user => ['u', 's', 'e', 'r', '#']
  | .group => ['g', 'r', 'o', 'u', 'p', '#']
  | .role => ['r', 'o', 'l', 'e', '#']
  | .privilege => ['p', 'r', 'i', 'v', 'i', 'l', 'e', 'g', 'e', '#']
  | .ace => ['a', 'c', 'e', '#']

def issue (kind : Entity) (number : Nat) : Id :=
  ⟨String.ofList (stem kind ++ Nat.toDigits 10 number)⟩

theorem toDigits_inj {m n : Nat} (h : Nat.toDigits 10 m = Nat.toDigits 10 n) : m = n := by
  have := congrArg (Nat.ofDigitChars 10 · 0) h
  simpa [Nat.ofDigitChars_ten_toDigits] using this

theorem issue_inj {kind₁ kind₂ : Entity} {m n : Nat} :
    issue kind₁ m = issue kind₂ n ↔ kind₁ = kind₂ ∧ m = n := by
  constructor
  · intro h
    have hl : stem kind₁ ++ Nat.toDigits 10 m = stem kind₂ ++ Nat.toDigits 10 n := by
      simpa [issue] using congrArg (·.text.toList) h
    cases kind₁ <;> cases kind₂ <;> simp [stem] at hl ⊢ <;> exact toDigits_inj hl
  · rintro ⟨rfl, rfl⟩
    rfl

end Id

end ResourceAccess
