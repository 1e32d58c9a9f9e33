import GraphQLIR.Proofs.Document.Faults
import GraphQLIR.Proofs.Text.Slices
/-!
# Texts of definitions

The text of a normalized definition is the part of its source that starts and ends at its offsets.
Without such a part it is the printed form. No source and no offsets can make a definition be
refused.
-/

namespace GraphQLIR

/-- The part of the source that starts and ends at the offsets, where both are known. -/
def TextOrigin.Cuts (origin : TextOrigin) (source : Option String) (inside : String) : Prop :=
  ∃ text start stop before after, source = some text ∧ origin.span = some (start, stop) ∧
    Text.CutsAt text start stop before inside after

theorem TextOrigin.slice?_eq_some_iff {origin : TextOrigin} {source : Option String}
    {inside : String} : origin.slice? source = some inside ↔ origin.Cuts source inside := by
  simp only [slice?, Cuts, Option.bind_eq_bind, Option.bind_eq_some_iff, Prod.exists,
    Text.slice?_eq_some_iff]
  constructor
  · rintro ⟨text, htext, start, stop, hspan, before, after, hcut⟩
    exact ⟨text, start, stop, before, after, htext, hspan, hcut⟩
  · rintro ⟨text, start, stop, before, after, htext, hspan, hcut⟩
    exact ⟨text, htext, start, stop, hspan, before, after, hcut⟩

/-- Nothing is cut out without a source or offsets, past the end, or where a character is cut. -/
theorem TextOrigin.exists_cuts_iff {origin : TextOrigin} {source : Option String} :
    (∃ inside, origin.Cuts source inside) ↔
      ∃ text start stop, source = some text ∧ origin.span = some (start, stop) ∧ start ≤ stop ∧
        String.Pos.Raw.IsValid text ⟨start⟩ ∧ String.Pos.Raw.IsValid text ⟨stop⟩ := by
  simp only [← Text.exists_cutsAt_iff]
  constructor
  · rintro ⟨inside, text, start, stop, before, after, htext, hspan, hcut⟩
    exact ⟨text, start, stop, htext, hspan, before, inside, after, hcut⟩
  · rintro ⟨text, start, stop, htext, hspan, before, inside, after, hcut⟩
    exact ⟨inside, text, start, stop, before, after, htext, hspan, hcut⟩

theorem FragmentDefinition.text_of_normalize_eq_ok [NumberReader] {catalog : Catalog}
    {source : Option String} {name : String} {definition : FragmentDefinition} {fragment : Fragment}
    (h : definition.normalize catalog source name = .ok fragment) :
    fragment.text = definition.origin.text source := by
  obtain ⟨selections, -, hfragment⟩ := bind_eq_ok_iff.1 h
  rw [← Except.ok.inj hfragment]

theorem OperationDefinition.text_of_normalize_eq_ok [NumberReader] {catalog : Catalog}
    {source name : Option String} {definition : OperationDefinition} {operation : Operation}
    (h : definition.normalize catalog source name = .ok operation) :
    operation.text = definition.origin.text source := by
  obtain ⟨vars, -, h⟩ := bind_eq_ok_iff.1 h
  obtain ⟨selections, -, hoperation⟩ := bind_eq_ok_iff.1 h
  rw [← Except.ok.inj hoperation]

namespace Definition

/-- The source text of the document that the definition stands in. -/
def source : Definition → Option String
  | .fragment source _ _ | .operation source _ _ => source

def origin : Definition → TextOrigin
  | .fragment _ _ definition => definition.origin
  | .operation _ _ definition => definition.origin

/-- The text for a definition that cannot be cut out of its source. -/
def printed (definition : Definition) : String :=
  definition.origin.printed

/-- The text of the record that the definition is normalized to. -/
def normalText [NumberReader] (catalog : Catalog) : Definition → Except Fault String
  | .fragment source name definition => Fragment.text <$> definition.normalize catalog source name
  | .operation source name definition => Operation.text <$> definition.normalize catalog source name

/-- The same definition in another source text, or at another place of it. -/
def relocate (source : Option String) (origin : TextOrigin) : Definition → Definition
  | .fragment _ name definition => .fragment source name { definition with origin }
  | .operation _ name definition => .operation source name { definition with origin }

/-- A definition has the text that is cut out for it, and its printed form if nothing is. -/
inductive HasText (definition : Definition) : String → Prop
  | cut {inside : String} (h : definition.origin.Cuts definition.source inside) :
    HasText definition inside
  | printed (h : ∀ inside, ¬ definition.origin.Cuts definition.source inside) :
    HasText definition definition.printed

theorem hasText_iff (definition : Definition) (text : String) :
    definition.HasText text ↔
      text = (definition.origin.slice? definition.source).getD definition.printed := by
  cases hslice : definition.origin.slice? definition.source with
  | none =>
    have hnone : ∀ inside, ¬ definition.origin.Cuts definition.source inside := by
      intro inside hcuts
      rw [TextOrigin.slice?_eq_some_iff.2 hcuts] at hslice
      cases hslice
    constructor
    · rintro (hcuts | -)
      · exact absurd hcuts (hnone text)
      · rfl
    · rintro rfl
      exact .printed hnone
  | some inside =>
    constructor
    · rintro (hcuts | hnone)
      · exact Option.some.inj ((TextOrigin.slice?_eq_some_iff.2 hcuts).symm.trans hslice)
      · exact absurd (TextOrigin.slice?_eq_some_iff.1 hslice) (hnone inside)
    · rintro rfl
      exact .cut (TextOrigin.slice?_eq_some_iff.1 hslice)

section

variable [NumberReader]

theorem normalText_eq_ok_iff (catalog : Catalog) (definition : Definition) (text : String) :
    definition.normalText catalog = .ok text ↔
      definition.fault? catalog = none ∧ definition.HasText text := by
  rw [hasText_iff]
  cases definition with
  | fragment source name definition =>
    rw [normalText, fault?, faultOf_eq_none_iff, map_eq_ok_iff]
    constructor
    · rintro ⟨fragment, hfragment, rfl⟩
      exact ⟨⟨fragment, hfragment⟩, FragmentDefinition.text_of_normalize_eq_ok hfragment⟩
    · rintro ⟨⟨fragment, hfragment⟩, rfl⟩
      exact ⟨fragment, hfragment, FragmentDefinition.text_of_normalize_eq_ok hfragment⟩
  | operation source name definition =>
    rw [normalText, fault?, faultOf_eq_none_iff, map_eq_ok_iff]
    constructor
    · rintro ⟨operation, hoperation, rfl⟩
      exact ⟨⟨operation, hoperation⟩, OperationDefinition.text_of_normalize_eq_ok hoperation⟩
    · rintro ⟨⟨operation, hoperation⟩, rfl⟩
      exact ⟨operation, hoperation, OperationDefinition.text_of_normalize_eq_ok hoperation⟩

theorem fault?_relocate (catalog : Catalog) (definition : Definition) (source : Option String)
    (origin : TextOrigin) :
    (definition.relocate source origin).fault? catalog = definition.fault? catalog := by
  have hchecks : (definition.relocate source origin).checks = definition.checks := by
    cases definition <;> rfl
  rw [fault?_eq_findSome?_checks, hchecks, ← fault?_eq_findSome?_checks]

/-- The text is cut out of the source at the offsets where this can be done, in one way only. Where
it cannot, the definition is still accepted or refused as it would be otherwise. -/
structure TakesText (catalog : Catalog) (definition : Definition) : Prop where
  eq_ok_iff : ∀ text, definition.normalText catalog = .ok text ↔
    definition.fault? catalog = none ∧ definition.HasText text
  exists_cuts_iff : (∃ inside, definition.origin.Cuts definition.source inside) ↔
    ∃ text start stop, definition.source = some text ∧
      definition.origin.span = some (start, stop) ∧ start ≤ stop ∧
      String.Pos.Raw.IsValid text ⟨start⟩ ∧ String.Pos.Raw.IsValid text ⟨stop⟩
  parts_unique : ∀ text start stop before inside after before' inside' after',
    Text.CutsAt text start stop before inside after →
    Text.CutsAt text start stop before' inside' after' →
    before = before' ∧ inside = inside' ∧ after = after'
  fault?_relocate : ∀ source origin,
    (definition.relocate source origin).fault? catalog = definition.fault? catalog

theorem takesText (catalog : Catalog) (definition : Definition) : TakesText catalog definition where
  eq_ok_iff := definition.normalText_eq_ok_iff catalog
  exists_cuts_iff := TextOrigin.exists_cuts_iff
  parts_unique _ _ _ _ _ _ _ _ _ h h' := h.unique h'
  fault?_relocate := definition.fault?_relocate catalog

end

end Definition

end GraphQLIR
