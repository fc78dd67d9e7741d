namespace SignalEngine.Text

/-- The parts of a text before, between and after the occurrences of a character. There is one part
more than there are occurrences. -/
def splitAt (mark : Char) : List Char → List (List Char)
  | [] => [[]]
  | c :: rest =>
      if c = mark then [] :: splitAt mark rest
      else
        match splitAt mark rest with
        | [] => [[c]]
        | part :: parts => (c :: part) :: parts

def split (mark : Char) (s : String) : List String :=
  (splitAt mark s.toList).map String.ofList

end SignalEngine.Text
