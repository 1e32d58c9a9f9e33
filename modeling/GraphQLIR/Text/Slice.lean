/-!
# Slices by byte offset

Offsets into a text count the bytes of its UTF-8 form. An offset is usable only where a character
starts or the text ends.
-/

namespace GraphQLIR.Text

/-- Splits a text after this many bytes, if a character ends there. -/
def splitBytes? : Nat → List Char → Option (List Char × List Char)
  | 0, chars => some ([], chars)
  | _ + 1, [] => none
  | bytes + 1, c :: rest =>
    if c.utf8Size ≤ bytes + 1 then
      (splitBytes? (bytes + 1 - c.utf8Size) rest).map fun (front, back) => (c :: front, back)
    else none

/-- The text from byte `start` up to byte `stop`. -/
def slice? (text : String) (start stop : Nat) : Option String :=
  if start ≤ stop then do
    let (_, rest) ← splitBytes? start text.toList
    let (inside, _) ← splitBytes? (stop - start) rest
    return String.ofList inside
  else none

end GraphQLIR.Text
