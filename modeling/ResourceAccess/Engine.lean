import ResourceAccess.Procedure.Operation

/-!
# The engine and its connection

An engine reaches its store through one connection, which may be free, held by somebody else, or closed for good. An
operation whose input is sound is refused when the connection cannot be had: at once on a closed one, and when its time
is up on a held one. On a free one its procedure is run, which ends early if its time limit runs out. Operations on users
and groups have no time limit.
-/

namespace ResourceAccess

inductive Connection where
  | free
  | held
  | closed
deriving DecidableEq

structure Engine where
  store : Store := {}
  connection : Connection := .free
  /-- The limit that the engine was opened with; it bounds the clean-up after a deleted resource. -/
  limit : Option Duration := none
  /-- The limit of the other bounded operations, which can be set anew. -/
  timeout : Option Duration := limit
deriving DecidableEq

namespace Engine

/-- How long an operation may wait for the connection, if that is limited. -/
def patience (e : Engine) : Operation → Option Duration
  | .createUser _ | .getUser _ | .getUserNamed _ | .listUsers | .deleteUser _ => none
  | .createGroup _ | .getGroup _ | .deleteGroup _ => none
  | .dump => none
  | .resourceDeleted _ => e.limit
  | _ => e.timeout

/-- How long the connection is waited for at most. -/
def acquireLimit : Duration := .ofMilliseconds 30000

/-- Why an operation cannot reach the store. Of two limits that end the wait for a held connection the shorter one does;
which one does if they are equal is not promised. -/
def refusal? (e : Engine) (op : Operation) : Option AccessError :=
  match e.connection with
  | .free => none
  | .closed => some (.storage .closed)
  | .held =>
    match e.patience op with
    | some limit =>
      if limit.nanoseconds < acquireLimit.nanoseconds then some (.timeout limit) else some (.storage .exhausted)
    | none => some (.storage .exhausted)

/-- Asks for an operation. If its time limit runs out, it does so where it is told. -/
def attempt (expiry : Option Expiry) (now : Stamp) (op : Operation) (e : Engine) :
    Except AccessError Answer × Engine :=
  match op.fault? with
  | some fault => (.error (.invalid fault), e)
  | none =>
    match e.refusal? op with
    | some error => (.error error, e)
    | none =>
      let deadline : Option Deadline := do return ⟨← e.patience op, ← expiry⟩
      let (answer, store) := (op.procedure now).run deadline ⟨e.store, none⟩
      (answer, { e with store })

/-- Asks for an operation that is done in time. -/
def run (now : Stamp) (op : Operation) (e : Engine) : Except AccessError Answer × Engine := e.attempt none now op

/-! ## The connection -/

def hold (e : Engine) : Except StorageFault Engine :=
  match e.connection with
  | .closed => .error .closed
  | _ => .ok { e with connection := .held }

def release (e : Engine) : Engine :=
  match e.connection with
  | .held => { e with connection := .free }
  | _ => e

/-- Closes the engine; a held connection is given back first. -/
def close (e : Engine) : Engine := { e with connection := .closed }

def reopen (e : Engine) : Engine := { store := e.store, limit := e.limit }

def health (e : Engine) : Except StorageFault Unit :=
  match e.connection with
  | .free => .ok ()
  | .held => .error .exhausted
  | .closed => .error .closed

end Engine

end ResourceAccess
