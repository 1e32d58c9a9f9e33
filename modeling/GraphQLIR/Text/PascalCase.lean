import GraphQLIR.Text.Uppercase
/-!
# PascalCase names

Underscores separate words. They are dropped, and each word starts with a capital.
-/

namespace GraphQLIR.Text

/-- The rest of a text, where `atStart` says that no character of the current word was read. -/
def pascalChars (atStart : Bool) : List Char → List Char
  | [] => []
  | c :: rest =>
    if c = '_' then pascalChars true rest
    else if atStart then uppercase c ++ pascalChars false rest
    else c :: pascalChars false rest

/-- Both `first_name` and `firstName` become `FirstName`. -/
def pascalCase (name : String) : String :=
  String.ofList (pascalChars true name.toList)

end GraphQLIR.Text
