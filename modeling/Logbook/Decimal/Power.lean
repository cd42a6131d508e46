/-! # Powers of two and ten

    The sizes of machine words are powers of two, and places in decimal notation
    are powers of ten.  Both are computed exactly.
-/

namespace Logbook

/-- Two multiplied with itself so many times. -/
def twoTo (n : Nat) : Nat := Nat.pow 2 n

/-- Ten multiplied with itself so many times. -/
def tenTo (n : Nat) : Nat := Nat.pow 10 n

theorem twoTo_succ (n : Nat) : twoTo (n + 1) = twoTo n * 2 := rfl

theorem tenTo_succ (n : Nat) : tenTo (n + 1) = tenTo n * 10 := rfl

/-- No power of two is zero. -/
theorem twoTo_pos (n : Nat) : 0 < twoTo n := Nat.pow_pos (by decide)

/-- No power of ten is zero. -/
theorem tenTo_pos (n : Nat) : 0 < tenTo n := Nat.pow_pos (by decide)

end Logbook
