import SignalEngine.Config.Setting

/-!
Tables under construction. A TOML text builds its tables step by step, through headers and through
dotted keys, and how a table came about decides in which ways it may still grow.
-/

namespace SignalEngine.Toml

/-- How a table came about: by a header of its own (as the outermost table does), by the header of a
table inside it, or by a dotted key. -/
inductive Origin where
  | header
  | implied
  | dotted
  deriving DecidableEq, Repr

/-- An entry of a table under construction. Values, among them inline tables, are finished. Of an array
of tables, the last is still growing. -/
inductive Node where
  | value (value : Setting)
  | table (origin : Origin) (entries : List (String × Node))
  | tables (finished : List (List (String × Node))) (last : List (String × Node))
  deriving Repr

abbrev Entries := List (String × Node)

mutual

def Node.setting : Node → Setting
  | .value v => v
  | .table _ entries => .table (entrySettings entries)
  | .tables finished last => .list (tableSettings finished ++ [.table (entrySettings last)])

def entrySettings : List (String × Node) → List (String × Setting)
  | [] => []
  | (name, node) :: rest => (name, node.setting) :: entrySettings rest

def tableSettings : List (List (String × Node)) → List Setting
  | [] => []
  | entries :: rest => .table (entrySettings entries) :: tableSettings rest

end

abbrev Change := Origin → Entries → Option (Origin × Entries)

/-- Changes the table at the end of a path. Tables that are missing on the way come about as `missing`
says. A path of dotted keys does not enter a table that has a header. -/
def alter (missing : Origin) (change : Change) : List String → Change
  | [], origin, entries => change origin entries
  | name :: path, origin, entries =>
      match Setting.find? name entries with
      | none =>
          (alter missing change path missing []).map fun (o, es) =>
            (origin, Setting.put name (.table o es) entries)
      | some (.table o es) =>
          if missing = .dotted ∧ o = .header then none
          else
            (alter missing change path o es).map fun (o, es) =>
              (origin, Setting.put name (.table o es) entries)
      | some (.tables finished last) =>
          (alter missing change path .header last).map fun (_, es) =>
            (origin, Setting.put name (.tables finished es) entries)
      | some (.value _) => none

def declareHere (name : String) : Change := fun origin entries =>
  match Setting.find? name entries with
  | none => some (origin, Setting.put name (.table .header []) entries)
  | some (.table .implied es) => some (origin, Setting.put name (.table .header es) entries)
  | _ => none

def appendHere (name : String) : Change := fun origin entries =>
  match Setting.find? name entries with
  | none => some (origin, Setting.put name (.tables [] []) entries)
  | some (.tables finished last) =>
      some (origin, Setting.put name (.tables (finished ++ [last]) []) entries)
  | _ => none

/-- Gives a value to a name that has none. By a dotted key this is done only in tables that came about
by dotted keys. -/
def assignHere (isDotted : Bool) (name : String) (value : Setting) : Change :=
  fun origin entries =>
    if isDotted != (origin == .dotted) then none
    else
      match Setting.find? name entries with
      | none => some (origin, Setting.put name (.value value) entries)
      | some _ => none

structure Key where
  path : List String
  name : String
  deriving DecidableEq, Repr

def assign (key : Key) (value : Setting) : Change :=
  alter .dotted (assignHere (!key.path.isEmpty) key.name value) key.path

def inlineTable? (assignments : List (Key × Setting)) : Option Setting := do
  let (_, entries) ← assignments.foldlM (fun (origin, entries) (key, value) =>
    assign key value origin entries) (Origin.header, [])
  return .table (entrySettings entries)

inductive Statement where
  | table (key : Key)
  | append (key : Key)
  | assign (key : Key) (value : Setting)
  deriving Repr

/-- A document under construction: the outermost table, and the path of the table that assignments
go to. -/
structure Document where
  entries : Entries
  current : List String
  deriving Repr

namespace Document

def blank : Document :=
  ⟨[], []⟩

def change (d : Document) (path : List String) (c : Change) : Option Entries :=
  (alter .implied c path .header d.entries).map Prod.snd

def step (d : Document) : Statement → Option Document
  | .table key =>
      (d.change key.path (declareHere key.name)).map fun es => ⟨es, key.path ++ [key.name]⟩
  | .append key =>
      (d.change key.path (appendHere key.name)).map fun es => ⟨es, key.path ++ [key.name]⟩
  | .assign key value =>
      (d.change d.current (Toml.assign key value)).map fun es => ⟨es, d.current⟩

def ofStatements (statements : List Statement) : Option Setting := do
  let d ← statements.foldlM step blank
  return .table (entrySettings d.entries)

end Document

end SignalEngine.Toml
