namespace SignalEngine.Toml

abbrev Reader (α : Type) := List Char → Option (α × List Char)

def isSpace (c : Char) : Bool :=
  c == ' ' || c == '\t'

/-- A character that may stand in a comment: no control character but the tab. -/
def isVisible (c : Char) : Bool :=
  c == '\t' || (' ' ≤ c && c ≤ '~') || '\u0080' ≤ c

def skipSpaces (cs : List Char) : List Char :=
  cs.dropWhile isSpace

def skipComment : List Char → List Char
  | '#' :: rest => rest.dropWhile isVisible
  | cs => cs

/-- Passes over one line end. A carriage return ends a line only with a line feed after it. -/
def lineBreak? : List Char → Option (List Char)
  | '\n' :: rest => some rest
  | '\r' :: '\n' :: rest => some rest
  | _ => none

def endLine? (cs : List Char) : Option (List Char) :=
  match skipComment (skipSpaces cs) with
  | [] => some []
  | rest => lineBreak? rest

/-- Passes over spaces, comments and line ends. Inside a comment every visible character is passed
over. -/
def skipBlankFrom (inComment : Bool) : List Char → List Char
  | [] => []
  | c :: rest =>
      if inComment && isVisible c then skipBlankFrom true rest
      else if isSpace c || c == '\n' then skipBlankFrom false rest
      else if c == '\r' && rest.head? == some '\n' then skipBlankFrom false rest
      else if c == '#' then skipBlankFrom true rest
      else c :: rest

def skipBlank (cs : List Char) : List Char :=
  skipBlankFrom false cs

def char? (c : Char) : List Char → Option (List Char)
  | [] => none
  | d :: rest => if c = d then some rest else none

end SignalEngine.Toml
