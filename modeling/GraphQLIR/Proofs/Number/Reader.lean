import GraphQLIR.Number.Reader
import GraphQLIR.Proofs.Number.Values
/-!
# What readers of numbers do

A reader keeps to the JSON grammar and reads integers in range exactly. Which double it takes for
any other number, and whether it takes one at all, is left open.
-/

namespace GraphQLIR.NumberReader

/-- What is relied on of a reader. -/
structure Laws [NumberReader] : Prop where
  /-- Only texts of the grammar are numbers. -/
  spelled : ∀ {text number}, read? text = some number →
    ∃ literal : NumberLiteral, literal.Spells text.toList
  /-- An integer in range is read as itself. -/
  exact : ∀ {text} {literal : NumberLiteral}, literal.Spells text.toList → literal.IsExact →
    read? text = some (.int literal.integer)
  /-- No other number is read as an integer, not even a minus zero. -/
  integral : ∀ {text n}, read? text = some (.int n) →
    ∃ literal : NumberLiteral, literal.Spells text.toList ∧ literal.IsExact

namespace Nearest

theorem read?_eq_some_iff {text : String} {number : Number} :
    read? text = some number ↔
      ∃ literal : NumberLiteral, literal.Spells text.toList ∧ literal.value? = some number :=
  Number.ofLiteral?_eq_some_iff

theorem laws : Laws where
  spelled hread := by
    obtain ⟨literal, hspells, -⟩ := read?_eq_some_iff.1 hread
    exact ⟨literal, hspells⟩
  exact hspells hexact := read?_eq_some_iff.2 ⟨_, hspells, hexact.value?_eq⟩
  integral hread := by
    obtain ⟨literal, hspells, hvalue⟩ := read?_eq_some_iff.1 hread
    exact ⟨literal, hspells, (NumberLiteral.value?_eq_int_iff.1 hvalue).1⟩

end Nearest

end GraphQLIR.NumberReader
