/-!
# Words

The bounds of words of sixty-four bits.
-/

namespace TagWire

namespace Word

/-- The first number that a word cannot hold. -/
def limit : Nat := Nat.pow 2 64

/-- The first number that a signed word cannot hold.  Below zero it can hold one
number more than above. -/
def signedLimit : Nat := Nat.pow 2 63

end Word

end TagWire
