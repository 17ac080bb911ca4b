/-!
# Resource paths

A path is a text cut into segments by slashes. It is taken as it is written: nothing is normalised, so `/a` and `/a/`
are two levels. `Path.levels` walks from a path up to the root, `Path.isWithin` is the subtree test on segments, and
`Path.subtree` gives the same region as one exact path and one stem.

* `Path.length_above_lt`: the level above a path is shorter, so the walk ends
-/

namespace ResourceAccess

/-- A resource path, character by character. -/
structure Path where
  chars : List Char
deriving DecidableEq

namespace Path

def ofString (s : String) : Path := ⟨s.toList⟩

def text (p : Path) : String := String.ofList p.chars

def root : Path := ⟨['/']⟩

@[simp] theorem ofString_text (p : Path) : ofString p.text = p := by
  simp [ofString, text]

@[simp] theorem text_ofString (s : String) : (ofString s).text = s := by
  simp [ofString, text]

def isRooted (p : Path) : Bool := p.chars.head? == some '/'

def byteLength (p : Path) : Nat := p.chars.foldr (fun c bytes => c.utf8Size + bytes) 0

/-! ## The walk to the root -/

/-- What stands before the last slash, if there is one. -/
def beforeLastSlash? : List Char → Option (List Char)
  | [] => none
  | c :: rest =>
    match beforeLastSlash? rest with
    | some above => some (c :: above)
    | none => if c = '/' then some [] else none

theorem length_beforeLastSlash_lt {cs above : List Char} (h : beforeLastSlash? cs = some above) :
    above.length < cs.length := by
  induction cs generalizing above with
  | nil => simp [beforeLastSlash?] at h
  | cons c rest ih =>
    cases hr : beforeLastSlash? rest with
    | some a =>
      simp only [beforeLastSlash?, hr, Option.some.injEq] at h
      have := ih hr
      subst h
      simp only [List.length_cons]
      omega
    | none =>
      simp only [beforeLastSlash?, hr] at h
      split at h
      · simp only [Option.some.injEq] at h
        subst h
        simp
      · simp at h

/-- The level above: what stands before the last slash, and the root where that is empty. Nothing is above the root,
and nothing above a path without a slash. -/
def above? (p : Path) : Option Path :=
  if p = root then none
  else
    match beforeLastSlash? p.chars with
    | none => none
    | some [] => some root
    | some (c :: cs) => some ⟨c :: cs⟩

theorem length_above_lt {p q : Path} (h : p.above? = some q) : q.chars.length < p.chars.length := by
  unfold above? at h
  split at h
  · simp at h
  · rename_i hp
    cases hb : beforeLastSlash? p.chars with
    | none => simp [hb] at h
    | some above =>
      have hlt := length_beforeLastSlash_lt hb
      cases above with
      | cons c cs =>
        simp only [hb, Option.some.injEq] at h
        subst h
        exact hlt
      | nil =>
        simp only [hb, Option.some.injEq] at h
        subst h
        obtain ⟨chars⟩ := p
        match chars, hb, hp with
        | [c], hb, hp =>
          simp only [beforeLastSlash?] at hb
          split at hb
          · rename_i hc
            exact absurd (by simp [root, hc]) hp
          · simp at hb
        | _ :: _ :: _, _, _ => simp [root]

/-- The path and every level above it, most specific first. -/
def walk (p : Path) : List Path :=
  match _h : p.above? with
  | none => [p]
  | some q => p :: walk q
termination_by p.chars.length
decreasing_by exact length_above_lt _h

/-- The levels of a path, most specific first; the empty path stands at the root. -/
def levels (p : Path) : List Path :=
  if p.chars = [] then [root] else p.walk

theorem walk_eq (p : Path) :
    p.walk = p :: (match p.above? with | none => [] | some q => q.walk) := by
  rw [walk]
  split <;> simp_all

/-! ## Subtrees -/

/-- The path without its trailing slashes. -/
def base (p : Path) : List Char := (p.chars.reverse.dropWhile (· == '/')).reverse

/-- Whether `p` is `q` or lies below it segment by segment. Trailing slashes of `q` are ignored, and every rooted path
lies below the root. -/
def isWithin (p q : Path) : Bool :=
  match q.base with
  | [] => p.isRooted
  | c :: cs =>
    match (c :: cs).isPrefixOf? p.chars with
    | none => false
    | some [] => true
    | some (d :: _) => d == '/'

/-- A region of the hierarchy: one exact path, and every path that starts with the stem. -/
structure Subtree where
  top : Path
  stem : List Char

/-- The region at and below a path. -/
def subtree (q : Path) : Subtree :=
  match q.base with
  | [] => ⟨root, root.chars⟩
  | c :: cs => ⟨⟨c :: cs⟩, (c :: cs) ++ ['/']⟩

def Subtree.covers (t : Subtree) (p : Path) : Bool :=
  p == t.top || p.chars.take t.stem.length == t.stem

end Path

end ResourceAccess
