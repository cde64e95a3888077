/-! Texts cut at a character. -/

namespace Leasehold.Text

/-- The parts between the occurrences of a character; there is always one part more than there are
occurrences. -/
def splitAt (separator : Char) : List Char → List (List Char)
  | [] => [[]]
  | c :: rest =>
    if c == separator then [] :: splitAt separator rest
    else
      match splitAt separator rest with
      | [] => [[c]]
      | part :: parts => (c :: part) :: parts

end Leasehold.Text
