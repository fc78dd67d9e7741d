namespace SignalEngine

/-- A value in a configuration. The entries of a table keep their order, and no name occurs twice. -/
inductive Setting where
  /-- A place in a list that nothing was put into. -/
  | unset
  | boolean (value : Bool)
  | integer (value : Int)
  | real (value : Float)
  | text (value : String)
  /-- A date, a time or both, in its standard form. -/
  | moment (text : String)
  | list (items : List Setting)
  | table (entries : List (String × Setting))
  deriving Repr

namespace Setting

def empty : Setting :=
  .table []

def find? (name : String) (entries : List (String × α)) : Option α :=
  (entries.find? fun e => e.1 == name).map Prod.snd

/-- Puts an entry in the place of the one with its name, or at the end. -/
def put (name : String) (value : α) : List (String × α) → List (String × α)
  | [] => [(name, value)]
  | (other, old) :: rest =>
      if other = name then (name, value) :: rest else (other, old) :: put name value rest

end Setting

end SignalEngine
