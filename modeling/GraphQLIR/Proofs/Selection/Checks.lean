import GraphQLIR.Proofs.Traversal
import GraphQLIR.Selection.Normal
/-!
# Checks of selections

Normalizing selections comes down to a list of checks, one for each field at every depth, each
field ahead of those below it. The selections have the fault of the first check that has one.
-/

namespace GraphQLIR

/-- What may be refused: the type of a variable, or a field with or without selections. -/
inductive Check
  | varType (type : TypeExpr)
  | field (parent name : String) (type : TypeExpr) (hasSelections : Bool)

namespace Check

/-- The innermost type has to be declared, and a field has selections just if its type is no
leaf. -/
def fault? (catalog : Catalog) : Check → Option Fault
  | .varType type =>
    match catalog.get? type.innermost with
    | none => some (.undeclaredType type.innermost)
    | some _ => none
  | .field parent name type hasSelections =>
    match catalog.get? type.innermost with
    | none => some (.undeclaredType type.innermost)
    | some kind =>
      if kind.isLeaf = hasSelections then
        some (.selection parent name type.text (if kind.isLeaf then .unexpected else .missing))
      else none

/-- The check of a field without the type that it is selected from. -/
def withoutParent : Check → Check
  | .varType type => .varType type
  | .field _ name type hasSelections => .field "" name type hasSelections

end Check

/-- The fault without the type that a field is selected from. -/
def Fault.withoutParent : Fault → Fault
  | .selection _ field fieldType reason => .selection "" field fieldType reason
  | fault => fault

/-- Where a field is selected from matters to the text of its fault only. -/
theorem Check.fault?_withoutParent (catalog : Catalog) (check : Check) :
    check.withoutParent.fault? catalog = (check.fault? catalog).map Fault.withoutParent := by
  cases check with
  | varType type =>
    simp only [Check.withoutParent, Check.fault?]
    cases catalog.get? type.innermost <;> rfl
  | field parent name type hasSelections =>
    simp only [Check.withoutParent, Check.fault?]
    cases catalog.get? type.innermost with
    | none => rfl
    | some kind =>
      by_cases h : kind.isLeaf = hasSelections
      · simp [h, Fault.withoutParent]
      · simp [h]

theorem Catalog.faultOf_classify (catalog : Catalog) (type : TypeExpr) :
    faultOf (catalog.classify type) = (Check.varType type).fault? catalog := by
  simp only [Catalog.classify, Catalog.kind, Check.fault?]
  cases catalog.get? type.innermost <;> rfl

theorem WrittenField.faultOf_check (catalog : Catalog) (parent : String) (hasSelections : Bool)
    (field : WrittenField) :
    faultOf (field.check catalog parent hasSelections) =
      (Check.field parent field.name field.type hasSelections).fault? catalog := by
  simp only [WrittenField.check, Catalog.classify, Catalog.kind, Check.fault?]
  cases catalog.get? field.type.innermost with
  | none => rfl
  | some kind => cases kind <;> cases hasSelections <;> rfl

namespace WrittenSelections

/-- The checks of the fields at every depth, each field ahead of those below it. `parent` is the
type that the selections select from. -/
def checks (parent : String) : WrittenSelections → List Check
  | .empty => []
  | .field field selections rest =>
    .field parent field.name field.type (!selections.isEmpty) ::
      (checks field.selectsFrom selections ++ checks parent rest)
  | .spread _ rest => checks parent rest
  | .inline inline selections rest =>
    checks inline.selectsFrom selections ++ checks parent rest

theorem faultOf_normalize [NumberReader] (catalog : Catalog) (parent : String)
    (written : WrittenSelections) :
    faultOf (written.normalize catalog parent) =
      (written.checks parent).findSome? (Check.fault? catalog) := by
  induction written generalizing parent with
  | empty => rfl
  | field field selections rest ihbelow ihlater =>
    have hbelow (type : TypeRef) : faultOf (do
          let below ← normalize catalog field.selectsFrom selections
          let later ← normalize catalog parent rest
          return SelectionSet.field (σ := SpreadNode) (ι := InlineNode)
            (⟨field.name, field.aliasName, type, .ofApplications field.directives⟩ : FieldNode)
            below later) =
        (checks field.selectsFrom selections ++ checks parent rest).findSome?
          (Check.fault? catalog) := by
      rw [List.findSome?_append, ← ihbelow, ← ihlater]
      exact faultOf_bind fun _ _ => faultOf_bind_pure _ _
    rw [checks, List.findSome?_cons, ← WrittenField.faultOf_check]
    refine (faultOf_bind fun type _ => hbelow type).trans ?_
    cases faultOf (field.check catalog parent (!selections.isEmpty)) <;> rfl
  | spread spread rest ih => exact (faultOf_bind_pure _ _).trans (ih parent)
  | inline inline selections rest ihbelow ihlater =>
    rw [checks, List.findSome?_append, ← ihbelow, ← ihlater]
    exact faultOf_bind fun _ _ => faultOf_bind_pure _ _

/-- The selections without directives, with all spreads and type conditions made equal. -/
def bare : WrittenSelections → WrittenSelections
  | .empty => .empty
  | .field field selections rest =>
    .field { field with directives := [] } (bare selections) (bare rest)
  | .spread _ rest => .spread ⟨"", []⟩ (bare rest)
  | .inline _ selections rest => .inline ⟨"", false, []⟩ (bare selections) (bare rest)

theorem isEmpty_bare (written : WrittenSelections) : written.bare.isEmpty = written.isEmpty := by
  cases written <;> rfl

theorem checks_bare (parent other : String) (written : WrittenSelections) :
    (written.bare.checks parent).map Check.withoutParent =
      (written.checks other).map Check.withoutParent := by
  induction written generalizing parent other with
  | empty => rfl
  | field field selections rest ihbelow ihlater =>
    simp only [bare, checks, List.map_cons, List.map_append, isEmpty_bare, Check.withoutParent]
    rw [ihbelow field.selectsFrom field.selectsFrom, ihlater parent other]
  | spread spread rest ih => exact ih parent other
  | inline inline selections rest ihbelow ihlater =>
    simp only [bare, checks, List.map_append]
    rw [ihbelow "" inline.selectsFrom, ihlater parent other]

end WrittenSelections

end GraphQLIR
