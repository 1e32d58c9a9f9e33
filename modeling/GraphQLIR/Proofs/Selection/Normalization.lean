import GraphQLIR.Proofs.Record.Normalization
import GraphQLIR.Proofs.Selection.Listing
import GraphQLIR.Selection.Normal
/-!
# Normalized selections

Accepted selections keep their shape: every written item becomes one item of the same kind, and the
selections below it are normalized in the same way. A field of a leaf type was written without
selections and every other field with some.
-/

namespace GraphQLIR

namespace WrittenField

variable {catalog : Catalog} {parent : String} {field : WrittenField} {type : TypeRef}

/-- A field passes with a sub-selection just if its type is no leaf. -/
theorem check_eq_ok {hasSelections : Bool}
    (h : field.check catalog parent hasSelections = .ok type) :
    catalog.classify field.type = .ok type ∧ type.isLeaf = !hasSelections := by
  obtain ⟨classified, hclassified, hcheck⟩ := bind_eq_ok_iff.1 h
  cases hleaf : classified.isLeaf <;> cases hasSelections <;> rw [hleaf] at hcheck <;> cases hcheck
  · exact ⟨hclassified, hleaf⟩
  · exact ⟨hclassified, hleaf⟩

/-- The field with its classified type. -/
def normalNode [NumberReader] (field : WrittenField) (type : TypeRef) : FieldNode :=
  ⟨field.name, field.aliasName, type, .ofApplications field.directives⟩

end WrittenField

def WrittenSpread.normalNode [NumberReader] (spread : WrittenSpread) : SpreadNode :=
  ⟨spread.fragmentName, .ofApplications spread.directives⟩

def WrittenInline.normalNode [NumberReader] (inline : WrittenInline) : InlineNode :=
  ⟨inline.selectsFrom, .ofApplications inline.directives⟩

namespace WrittenSelections

variable [NumberReader] {catalog : Catalog} {parent : String}

theorem normalize_field_eq_ok {field : WrittenField} {selections rest : WrittenSelections}
    {result : Selections}
    (h : normalize catalog parent (.field field selections rest) = .ok result) :
    ∃ type below later, catalog.classify field.type = .ok type ∧
      type.isLeaf = selections.isEmpty ∧
      normalize catalog field.selectsFrom selections = .ok below ∧
      normalize catalog parent rest = .ok later ∧
      result = .field (field.normalNode type) below later := by
  obtain ⟨type, htype, h⟩ := bind_eq_ok_iff.1 h
  obtain ⟨below, hbelow, h⟩ := bind_eq_ok_iff.1 h
  obtain ⟨later, hlater, h⟩ := bind_eq_ok_iff.1 h
  obtain ⟨hclassify, hleaf⟩ := WrittenField.check_eq_ok htype
  rw [Bool.not_not] at hleaf
  exact ⟨type, below, later, hclassify, hleaf, hbelow, hlater, (Except.ok.inj h).symm⟩

theorem normalize_spread_eq_ok {spread : WrittenSpread} {rest : WrittenSelections}
    {result : Selections} (h : normalize catalog parent (.spread spread rest) = .ok result) :
    ∃ later, normalize catalog parent rest = .ok later ∧
      result = .spread spread.normalNode later := by
  obtain ⟨later, hlater, h⟩ := bind_eq_ok_iff.1 h
  exact ⟨later, hlater, (Except.ok.inj h).symm⟩

theorem normalize_inline_eq_ok {inline : WrittenInline} {selections rest : WrittenSelections}
    {result : Selections}
    (h : normalize catalog parent (.inline inline selections rest) = .ok result) :
    ∃ below later, normalize catalog inline.selectsFrom selections = .ok below ∧
      normalize catalog parent rest = .ok later ∧
      result = .inline inline.normalNode below later := by
  obtain ⟨below, hbelow, h⟩ := bind_eq_ok_iff.1 h
  obtain ⟨later, hlater, h⟩ := bind_eq_ok_iff.1 h
  exact ⟨below, later, hbelow, hlater, (Except.ok.inj h).symm⟩

/-- The nodes of one level, kind by kind. -/
structure NormalizeTo (catalog : Catalog) (written : WrittenSelections) (normal : Selections) :
    Prop where
  fields : List.Forall₂ (fun field node =>
      ∃ type, catalog.classify field.type = .ok type ∧ node = field.normalNode type)
    written.fieldNodes normal.fieldNodes
  spreads : normal.spreadNodes = written.spreadNodes.map WrittenSpread.normalNode
  inlines : normal.inlineNodes = written.inlineNodes.map WrittenInline.normalNode

theorem normalizeTo_of_normalize_eq_ok {written : WrittenSelections} {normal : Selections}
    (h : normalize catalog parent written = .ok normal) : NormalizeTo catalog written normal := by
  induction written generalizing normal with
  | empty =>
    cases h
    exact ⟨.nil, rfl, rfl⟩
  | field field selections rest _ ih =>
    obtain ⟨type, below, later, htype, -, -, hlater, rfl⟩ := normalize_field_eq_ok h
    have hrest := ih hlater
    exact ⟨.cons ⟨type, htype, rfl⟩ hrest.fields, hrest.spreads, hrest.inlines⟩
  | spread spread rest ih =>
    obtain ⟨later, hlater, rfl⟩ := normalize_spread_eq_ok h
    have hrest := ih hlater
    exact ⟨hrest.fields, congrArg (spread.normalNode :: ·) hrest.spreads, hrest.inlines⟩
  | inline inline selections rest _ ih =>
    obtain ⟨below, later, -, hlater, rfl⟩ := normalize_inline_eq_ok h
    have hrest := ih hlater
    exact ⟨hrest.fields, hrest.spreads, congrArg (inline.normalNode :: ·) hrest.inlines⟩

end WrittenSelections

end GraphQLIR
