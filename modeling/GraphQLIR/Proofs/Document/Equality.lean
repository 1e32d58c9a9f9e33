import GraphQLIR.Document.Normal
import GraphQLIR.Proofs.Record.Equality
import GraphQLIR.Proofs.Selection.Equality
/-!
# Equality of documents

Documents are equal just if their JSON forms are, as long as no default value is an explicit null.
This does not depend on the flags of a document being right: it also holds of documents put
together by hand, whose flags are any.
-/

namespace GraphQLIR

open Json

@[simp] theorem OperationType.length_members (operationType : OperationType) :
    operationType.members.length = 4 := by
  simp [members]

@[simp] theorem OperationType.agree_members_iff (a b : OperationType) :
    Agree a.members b.members ↔ a = b := by
  simp only [members, agree_cons_iff, same_str_iff, same_bool_iff, agree_nil, and_true]
  cases a <;> cases b <;> decide

namespace Variable

/-- The default value is not an explicit null. -/
def DefaultNotNull (v : Variable) : Prop :=
  v.default ≠ some .null

theorem same_toJson_iff {a b : Variable} (ha : a.DefaultNotNull) (hb : b.DefaultNotNull) :
    a.toJson.same b.toJson = true ↔ (a == b) = true := by
  have hnodup : keys.Nodup := by decide
  have hbeq : (a == b) = (a.name == b.name && (a.type == b.type && a.default == b.default)) := rfl
  rw [toJson, toJson, same_obj_iff_agree hnodup rfl rfl, hbeq]
  simp [same_ofOption_id_iff ha hb]

/-- An explicit null looks like no default value. -/
example (name : String) (type : TypeRef) :
    toJson ⟨name, type, some .null⟩ = toJson ⟨name, type, none⟩ := rfl

end Variable

theorem Fragment.same_toJson_iff (a b : Fragment) :
    a.toJson.same b.toJson = true ↔ (a == b) = true := by
  have hnodup : keys.Nodup := by decide
  have hbeq : (a == b) = (a.name == b.name && (a.onType == b.onType &&
      (a.selections == b.selections && (a.text == b.text && a.directives == b.directives)))) := rfl
  rw [toJson, toJson, same_obj_iff_agree hnodup rfl rfl, hbeq]
  simp

namespace Operation

/-- No variable has an explicit null as its default value. -/
def DefaultsNotNull (operation : Operation) : Prop :=
  ∀ v ∈ operation.vars, v.DefaultNotNull

theorem same_toJson_iff {a b : Operation} (ha : a.DefaultsNotNull) (hb : b.DefaultsNotNull) :
    a.toJson.same b.toJson = true ↔ (a == b) = true := by
  have hnodup : keys.Nodup := by decide
  have hbeq : (a == b) = (a.name == b.name && (a.operationType == b.operationType &&
      (a.vars == b.vars && (a.hasVars == b.hasVars && (a.selections == b.selections &&
        (a.text == b.text && a.directives == b.directives)))))) := rfl
  have hvars : (ofList Variable.toJson a.vars).same (ofList Variable.toJson b.vars) = true ↔
      (a.vars == b.vars) = true :=
    same_ofList_iff fun x hx y hy => Variable.same_toJson_iff (ha x hx) (hb y hy)
  rw [toJson, toJson, same_obj_iff_agree hnodup rfl rfl, hbeq]
  simp [variableMembers, hvars]

end Operation

namespace Document

def DefaultsNotNull (document : Document) : Prop :=
  ∀ operation ∈ document.operations, operation.DefaultsNotNull

theorem same_toJson_iff {a b : Document} (ha : a.DefaultsNotNull) (hb : b.DefaultsNotNull) :
    a.toJson.same b.toJson = true ↔ (a == b) = true := by
  have hnodup : documentKeys.Nodup := by decide
  have hbeq : (a == b) = (a.fragments == b.fragments && (a.operations == b.operations &&
      (a.hasFragments == b.hasFragments && a.hasOperations == b.hasOperations))) := rfl
  have hfragments := same_ofList_iff fun x (_ : x ∈ a.fragments) y (_ : y ∈ b.fragments) =>
    Fragment.same_toJson_iff x y
  have hoperations := same_ofList_iff fun x hx y hy =>
    Operation.same_toJson_iff (ha x hx) (hb y hy)
  rw [toJson, toJson, same_obj_iff_agree hnodup rfl rfl, hbeq]
  simp [documentMembers, hfragments, hoperations]

end Document

/-! ## All forms -/

/-- Forms without explicit nulls for default values are equal just if what they are made from is.
The comparison of selections may take the positions by kind into account or not. -/
theorem same_form_iff_beq :
    (∀ a b : Document, a.DefaultsNotNull → b.DefaultsNotNull →
      (a.toJson.same b.toJson = true ↔ (a == b) = true)) ∧
    (∀ a b : SchemaRecords, a.DefaultsNotNull → b.DefaultsNotNull →
      (a.toJson.same b.toJson = true ↔ (a == b) = true)) ∧
    (∀ a b : Operation, a.DefaultsNotNull → b.DefaultsNotNull →
      (a.toJson.same b.toJson = true ↔ (a == b) = true)) ∧
    (∀ a b : Selections,
      ((Json.obj a.members).same (.obj b.members) = true ↔ (a == b) = true) ∧
        a.sameIndexed b = (a == b)) ∧
    (∀ a b : TypeRef, a.toJson.same b.toJson = true ↔ a = b) :=
  ⟨fun _ _ => Document.same_toJson_iff, fun _ _ => SchemaRecords.same_toJson_iff,
    fun _ _ => Operation.same_toJson_iff,
    fun a b => ⟨Selections.same_obj_members_iff a b, SelectionSet.sameIndexed_eq_beq a b⟩,
    TypeRef.same_toJson_iff⟩

/-- The query `query Q($n: Int = 1) { ...F }` with these directives on the spread, and with a flag
that denies its variable. -/
def spreadQuery [NumberReader] (directives : List String) : Document where
  fragments := []
  operations := [{
    name := some "Q"
    operationType := .query
    vars := [⟨"n", ⟨"Int", "Int", .scalar, false, false, false⟩, some (.num (.int 1))⟩]
    hasVars := false
    selections := .spread ⟨"F", .ofApplications (directives.map fun name => ⟨name, []⟩)⟩ .empty
    text := "query Q($n: Int = 1) \x7b ...F \x7d"
    directives := .ofApplications []
  }]
  hasFragments := false
  hasOperations := true

section

open NumberReader.Nearest

theorem same_form_spreadQuery :
    (spreadQuery ["a", "b"]).DefaultsNotNull ∧ (spreadQuery ["b", "a"]).DefaultsNotNull ∧
      (spreadQuery ["a", "b"]).toJson.same (spreadQuery ["b", "a"]).toJson = true := by
  have hdefaults (directives : List String) : (spreadQuery directives).DefaultsNotNull := by
    simp [Document.DefaultsNotNull, Operation.DefaultsNotNull, Variable.DefaultNotNull, spreadQuery]
  exact ⟨hdefaults _, hdefaults _,
    (same_form_iff_beq.1 _ _ (hdefaults ["a", "b"]) (hdefaults ["b", "a"])).2 rfl⟩

end

end GraphQLIR
