/-!
# Names for parameters without one

A parameter that is declared by its type alone gets the next name of the sequence
`a`, `b`, …, `z`, `aa`, `ab`, …: all non-empty words over the lower-case letters, shorter ones
first and words of one length in alphabetical order.
-/

namespace Switchboard

/-- The lower-case letter at a position of the alphabet. -/
def letter (n : Nat) : Char := Char.ofNat ('a'.toNat + n)

/-- The letters of the name at an index of the sequence. All names of one letter less come
    before those that end in a letter behind a given name, so the name in front of the last
    letter has the index `index / 26 - 1`. -/
def autoLetters (index : Nat) : List Char :=
  if index < 26 then [letter index]
  else autoLetters (index / 26 - 1) ++ [letter (index % 26)]
termination_by index
decreasing_by omega

/-- The name at an index of the sequence. -/
def autoName (index : Nat) : String := String.ofList (autoLetters index)

end Switchboard
