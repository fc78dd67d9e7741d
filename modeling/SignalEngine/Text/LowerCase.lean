namespace SignalEngine.Text

/-- The lower-case form of a character whose lower-case form is ASCII; others stay as they are. -/
def lowerChar (c : Char) : Char :=
  if c = '\u212A' then 'k' else c.toLower

def lower (s : String) : String :=
  s.map lowerChar

def lowerAscii (s : String) : String :=
  s.map Char.toLower

end SignalEngine.Text
