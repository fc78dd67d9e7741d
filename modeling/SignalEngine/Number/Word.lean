namespace SignalEngine.Number

/-- How many values a word of the given number of bits has. -/
def wordValues (bits : Nat) : Nat :=
  Nat.pow 2 bits

def fits (bits n : Nat) : Bool :=
  n < wordValues bits

def fitsSigned (bits : Nat) (n : Int) : Bool :=
  -Int.ofNat (wordValues bits) ≤ n && n < Int.ofNat (wordValues bits)

/-- What is left of an integer in a word with a sign and the given number of bits beside it. -/
def wrapSigned (bits : Nat) (n : Int) : Int :=
  Int.bmod n (wordValues (bits + 1))

theorem wordValues_pos (bits : Nat) : 0 < wordValues bits :=
  Nat.pow_pos (by decide)

theorem wordValues_succ (bits : Nat) : wordValues (bits + 1) = 2 * wordValues bits :=
  Nat.pow_succ'

theorem wrapSigned_bounds (bits : Nat) (n : Int) :
    -Int.ofNat (wordValues bits) ≤ wrapSigned bits n ∧
      wrapSigned bits n < Int.ofNat (wordValues bits) := by
  have hlow := Int.le_bmod (x := n) (wordValues_pos (bits + 1))
  have hhigh := Int.bmod_lt (x := n) (wordValues_pos (bits + 1))
  rw [wordValues_succ] at hlow hhigh
  rw [wrapSigned, wordValues_succ, Int.ofNat_eq_natCast]
  omega

theorem wrapSigned_of_fitsSigned {bits : Nat} {n : Int} (h : fitsSigned bits n = true) :
    wrapSigned bits n = n := by
  rw [fitsSigned, Bool.and_eq_true, decide_eq_true_iff, decide_eq_true_iff] at h
  simp only [Int.ofNat_eq_natCast] at h
  rw [wrapSigned, wordValues_succ]
  apply Int.bmod_eq_of_le_mul_two
  · omega
  · omega

end SignalEngine.Number
