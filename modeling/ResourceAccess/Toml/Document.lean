import ResourceAccess.Setting

/-!
# The table that a TOML document defines

A header opens a table, a pair of keys and a value goes into the open one, and dotted keys make tables on the way. A
key is defined once: a table that has a header of its own, or that stands in braces, is not reached into by dotted
keys, and only a table that was implied by a longer header may get its header later.
-/

namespace ResourceAccess.Toml

inductive Statement where
  | pair (keys : List String) (value : Setting)
  | header (keys : List String)
  | arrayHeader (keys : List String)

/-- How a table came to be. -/
inductive Origin where
  /-- By its header, or as the document itself. -/
  | header
  /-- By the header of a table inside it. -/
  | implied
  /-- By dotted keys. -/
  | dotted
deriving DecidableEq

inductive Node where
  | leaf (value : Setting)
  | table (origin : Origin) (entries : List (String × Node))
  /-- The tables of one array of tables, the newest first. -/
  | tables (newest : List (String × Node)) (older : List (List (String × Node)))

abbrev Entries := List (String × Node)

namespace Entries

def set (key : String) (node : Node) : Entries → Entries
  | [] => [(key, node)]
  | (k, n) :: rest => if k = key then (k, node) :: rest else (k, n) :: set key node rest

end Entries

/-! ## Pairs -/

/-- Puts a value at the end of a path of keys below a table. Dotted keys pass through tables that have no header;
`mayEnd` tells whether the last key may stand in this table, as it may where dotted keys made it. -/
def assignBelow (mayEnd : Bool) (value : Setting) : List String → Entries → Option Entries
  | [], _ => none
  | [key], entries =>
    if mayEnd && (entries.lookup key).isNone then some (entries.set key (.leaf value)) else none
  | key :: keys, entries =>
    match entries.lookup key with
    | none => (assignBelow true value keys []).map fun inner => entries.set key (.table .dotted inner)
    | some (.table .header _) => none
    | some (.table .implied inner) =>
      (assignBelow false value keys inner).map fun inner => entries.set key (.table .implied inner)
    | some (.table .dotted inner) =>
      (assignBelow true value keys inner).map fun inner => entries.set key (.table .dotted inner)
    | some (.tables newest older) =>
      (assignBelow false value keys newest).map fun newest => entries.set key (.tables newest older)
    | some (.leaf _) => none

/-- Puts a value at the end of a path of keys in the open table. -/
def assign (keys : List String) (value : Setting) (entries : Entries) : Option Entries :=
  assignBelow true value keys entries

/-! ## Headers -/

/-- Changes the last part of a path of keys, making the tables on the way that are not there. -/
def reach (change : String → Entries → Option Entries) : List String → Entries → Option Entries
  | [], _ => none
  | [key], entries => change key entries
  | key :: keys, entries =>
    match entries.lookup key with
    | none => (reach change keys []).map fun inner => entries.set key (.table .implied inner)
    | some (.table origin inner) =>
      (reach change keys inner).map fun inner => entries.set key (.table origin inner)
    | some (.tables newest older) =>
      (reach change keys newest).map fun newest => entries.set key (.tables newest older)
    | some (.leaf _) => none

def openTable (key : String) (entries : Entries) : Option Entries :=
  match entries.lookup key with
  | none => some (entries.set key (.table .header []))
  | some (.table .implied inner) => some (entries.set key (.table .header inner))
  | some _ => none

def openArrayTable (key : String) (entries : Entries) : Option Entries :=
  match entries.lookup key with
  | none => some (entries.set key (.tables [] []))
  | some (.tables newest older) => some (entries.set key (.tables [] (newest :: older)))
  | some _ => none

/-- Changes the entries of the table that a header has opened. -/
def inOpen (change : Entries → Option Entries) (keys : List String) (entries : Entries) : Option Entries :=
  match keys with
  | [] => change entries
  | keys =>
    reach (fun key entries =>
      match entries.lookup key with
      | some (.table origin inner) => (change inner).map fun inner => entries.set key (.table origin inner)
      | some (.tables newest older) => (change newest).map fun newest => entries.set key (.tables newest older)
      | _ => none) keys entries

/-! ## Documents -/

mutual

def Node.setting : Node → Setting
  | .leaf value => value
  | .table _ entries => .table (settings entries)
  | .tables newest older => .sequence ((Setting.table (settings newest) :: settingsOf older).reverse)

def settings : List (String × Node) → List (String × Setting)
  | [] => []
  | (key, node) :: rest => (key, node.setting) :: settings rest

def settingsOf : List (List (String × Node)) → List Setting
  | [] => []
  | entries :: rest => .table (settings entries) :: settingsOf rest

end

/-- The open table's keys and the document so far. -/
abbrev Draft := List String × Entries

def Statement.apply (statement : Statement) (draft : Draft) : Option Draft :=
  let (opened, entries) := draft
  match statement with
  | .pair keys value => (inOpen (assign keys value) opened entries).map (opened, ·)
  | .header keys => (reach openTable keys entries).map (keys, ·)
  | .arrayHeader keys => (reach openArrayTable keys entries).map (keys, ·)

def document? (statements : List Statement) : Option Setting :=
  (statements.foldlM (fun draft statement => Statement.apply statement draft) (([], []) : Draft)).map
    fun draft => .table (settings draft.2)

/-- The table that stands in braces. -/
def inlineTable? (pairs : List (List String × Setting)) : Option Setting :=
  (pairs.foldlM (fun entries pair => assign pair.1 pair.2 entries) ([] : Entries)).map
    fun entries => .table (settings entries)

end ResourceAccess.Toml
