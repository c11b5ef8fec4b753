/-!
# Blocks

The hash and the stream cipher both mix the sixteen words of a block, each with words of its own size.
A block is read as four rows of four words; its lanes are the columns and then the diagonals, which run
to the right and go on at the left.
-/

namespace Federation.Crypto

abbrev Block (α : Type) := Vector α 16

namespace Block

variable {α : Type}

/-- The word with a number, counted modulo sixteen. -/
def word (b : Block α) (i : Nat) : α := b.get (Fin.ofNat 16 i)

def put (b : Block α) (i : Nat) (x : α) : Block α := b.set (i % 16) x (Nat.mod_lt i (by decide))

/-- The numbers of the words of each lane. -/
def lanes : List (Nat × Nat × Nat × Nat) :=
  [(0, 4, 8, 12), (1, 5, 9, 13), (2, 6, 10, 14), (3, 7, 11, 15),
    (0, 5, 10, 15), (1, 6, 11, 12), (2, 7, 8, 13), (3, 4, 9, 14)]

end Block

end Federation.Crypto
