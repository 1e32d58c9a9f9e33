import GraphQLIR.Number.Literal
/-!
# Readers of numbers

Which texts are numbers in JSON, and which double is taken for a number that is none exactly, is up
to a reader that is given from outside.
-/

namespace GraphQLIR

/-- Reads a whole text as a number, if it is one. -/
class NumberReader where
  read? : String → Option Number

namespace NumberReader.Nearest

/-- The reader of the JSON grammar that takes the nearest double. -/
scoped instance instNumberReader : NumberReader := ⟨fun text => Number.ofLiteral? text.toList⟩

end NumberReader.Nearest

end GraphQLIR
