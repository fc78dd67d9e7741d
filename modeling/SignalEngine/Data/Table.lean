import SignalEngine.Text.Blank

namespace SignalEngine.Table

inductive Place where
  | rowStart
  | fieldStart
  | plain
  | quoted
  | afterQuote
  deriving DecidableEq, Repr

/-- A partly read table. The characters of the current field, its row and the rows before it are all
newest first. -/
structure Draft where
  place : Place
  field : List Char
  row : List (List Char)
  rows : List (List (List Char))

namespace Draft

def start : Draft :=
  ⟨.rowStart, [], [], []⟩

def endField (d : Draft) : Draft :=
  { d with place := .fieldStart, field := [], row := d.field.reverse :: d.row }

def endRow (d : Draft) : Draft :=
  ⟨.rowStart, [], [], (d.field.reverse :: d.row).reverse :: d.rows⟩

def add (d : Draft) (place : Place) (c : Char) : Draft :=
  { d with place := place, field := c :: d.field }

def isRowEnd (c : Char) : Bool :=
  c == '\n' || c == '\r'

def stepPlain (d : Draft) (c : Char) : Draft :=
  if c = ',' then d.endField
  else if isRowEnd c then d.endRow
  else d.add .plain c

def stepStart (d : Draft) (c : Char) : Draft :=
  if c = '"' then { d with place := .quoted } else d.stepPlain c

def step (d : Draft) (c : Char) : Draft :=
  match d.place with
  | .rowStart => if isRowEnd c then d else d.stepStart c
  | .fieldStart => d.stepStart c
  | .plain => d.stepPlain c
  | .quoted => if c = '"' then { d with place := .afterQuote } else d.add .quoted c
  | .afterQuote => if c = '"' then d.add .quoted c else d.stepPlain c

def finish (d : Draft) : List (List (List Char)) :=
  if d.place = .rowStart then d.rows.reverse else d.endRow.rows.reverse

end Draft

def dropMark : List Char → List Char
  | '\uFEFF' :: rest => rest
  | cs => cs

def rows (text : String) : List (List (List Char)) :=
  let d := (dropMark text.toList).foldl Draft.step .start
  d.finish.map fun row => row.map Text.trim

end SignalEngine.Table
