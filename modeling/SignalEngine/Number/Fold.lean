namespace SignalEngine.Number

def infinity : Float := 1.0 / 0.0

def nan : Float := 0.0 / 0.0

/-- The larger of two numbers. A NaN gives way to the other, and of two equal ones the first stays. -/
def larger (x y : Float) : Float :=
  if x.isNaN then y else if x < y then y else x

def smaller (x y : Float) : Float :=
  if x.isNaN then y else if y < x then y else x

/-- The sum from left to right. It starts at `-0.0`, so a sum of negative zeros keeps their sign. -/
def sum (xs : List Float) : Float :=
  xs.foldl (· + ·) (-0.0)

/-- The largest number of a list, negative infinity if all are NaN. -/
def maximum (xs : List Float) : Float :=
  xs.foldl larger (-infinity)

/-- The smallest number of a list, positive infinity if all are NaN. -/
def minimum (xs : List Float) : Float :=
  xs.foldl smaller infinity

@[simp] theorem sum_nil : sum [] = -0.0 := rfl

theorem sum_append_singleton (xs : List Float) (x : Float) : sum (xs ++ [x]) = sum xs + x := by
  simp [sum]

end SignalEngine.Number
