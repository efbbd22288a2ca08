/-!
# Powers

The powers of the two bases in which numbers are written here.
-/

namespace ModelKeeper

/-- Two to the power `n`: the number of words of `n` bits. -/
def twoTo (n : Nat) : Nat := Nat.pow 2 n

/-- Ten to the power `n`: the number of strings of `n` digits. -/
def tenTo (n : Nat) : Nat := Nat.pow 10 n

end ModelKeeper
