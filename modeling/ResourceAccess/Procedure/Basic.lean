import ResourceAccess.Store.Basic

/-!
# Procedures on the tables

An operation reaches the tables statement by statement. A transaction works on a copy of the tables, which takes their
place with the commit; a statement outside any transaction counts at once. What a procedure has not committed when it
ends is lost, be it with an answer or with an error.

A time limit may run out at any statement. Then the procedure ends there, and nobody learns what the statement gave that
was under way; but the statement may have landed nonetheless.
-/

namespace ResourceAccess

/-- The tables, and the copy of them that an open transaction works on. -/
structure Tables where
  committed : Store
  copy : Option Store := none

inductive Statement where
  | begin
  | commit
  | change (f : Store → Store)

namespace Tables

/-- The tables as the procedure sees them itself. -/
def seen (t : Tables) : Store := t.copy.getD t.committed

/-- Outside a transaction what is written counts at once. -/
def write (t : Tables) (s : Store) : Tables :=
  match t.copy with
  | none => { committed := s }
  | some _ => { t with copy := some s }

def after (t : Tables) : Statement → Tables
  | .begin => { t with copy := some t.seen }
  | .commit => { committed := t.seen }
  | .change f => t.write (f t.seen)

end Tables

/-- Where a time limit runs out. -/
structure Expiry where
  /-- How many statements are finished by then. -/
  finished : Nat
  /-- Whether the one that is under way lands. -/
  landed : Bool
deriving DecidableEq

/-- A time limit, and where it runs out. -/
structure Deadline where
  limit : Duration
  expiry : Expiry

/-- What is done statement by statement. Each statement tells the tables as it found them. -/
inductive Procedure (α : Type) where
  | answer (a : α)
  | refuse (error : AccessError)
  | step (statement : Statement) (rest : Store → Procedure α)
  /-- From here on there is no time limit. -/
  | untimed (rest : Procedure α)

namespace Procedure

variable {α β : Type}

def bind (next : α → Procedure β) : Procedure α → Procedure β
  | .answer a => next a
  | .refuse error => .refuse error
  | .step statement rest => .step statement fun s => (rest s).bind next
  | .untimed rest => .untimed (rest.bind next)

instance : Monad Procedure where
  pure := .answer
  bind p next := p.bind next

/-- What a procedure gives, and the tables that it leaves. -/
def run (deadline : Option Deadline) (t : Tables) : Procedure α → Except AccessError α × Store
  | .answer a => (.ok a, t.committed)
  | .refuse error => (.error error, t.committed)
  | .untimed rest => rest.run none t
  | .step statement rest =>
    match deadline with
    | none => (rest t.seen).run none (t.after statement)
    | some ⟨limit, 0, landed⟩ => (.error (.timeout limit), (if landed then t.after statement else t).committed)
    | some ⟨limit, finished + 1, landed⟩ =>
      (rest t.seen).run (some ⟨limit, finished, landed⟩) (t.after statement)

/-! ## Statements -/

def begin : Procedure Unit := .step .begin fun _ => .answer ()

def commit : Procedure Unit := .step .commit fun _ => .answer ()

def outcomeStore (s : Store) : Outcome α → Store
  | .ok (_, after) => after
  | .error _ => s

def ofOutcome : Outcome α → Procedure α
  | .ok (a, _) => .answer a
  | .error error => .refuse error

/-- One statement, which may be refused and then does nothing. -/
def attempt (work : Store → Outcome α) : Procedure α :=
  .step (.change fun s => outcomeStore s (work s)) fun s => ofOutcome (work s)

/-- One statement that only looks; what it finds may be a reason to refuse. -/
def require (view : Store → Except AccessError α) : Procedure α := attempt fun s => (view s).map (·, s)

def look (view : Store → α) : Procedure α := require fun s => .ok (view s)

def each : List (Store → Store) → Procedure Unit
  | [] => .answer ()
  | f :: rest => .step (.change f) fun _ => each rest

end Procedure

end ResourceAccess
