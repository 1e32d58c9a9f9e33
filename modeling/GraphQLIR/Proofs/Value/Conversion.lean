import GraphQLIR.Proofs.Entries
import GraphQLIR.Proofs.Traversal
import GraphQLIR.TypeSystem.Value
/-!
# Constant values in JSON form

The form of a value by a relation that says what it is at each level and does not insert anything.
Every value has one form in this sense, which is the one that is computed.
-/

namespace GraphQLIR

namespace Value

/-- Induction over a value through the items of lists and the fields of objects. -/
@[elab_as_elim]
theorem inductionOn {motive : Value → Prop} (null : motive .null)
    (boolean : ∀ value, motive (.boolean value)) (enum : ∀ name, motive (.enum name))
    (var : ∀ name, motive (.variable name)) (string : ∀ value, motive (.string value))
    (int : ∀ literal, motive (.int literal)) (float : ∀ literal, motive (.float literal))
    (list : ∀ items, (∀ item ∈ items, motive item) → motive (.list items))
    (object : ∀ fields, (∀ field ∈ fields, motive field.2) → motive (.object fields))
    (value : Value) : motive value :=
  @Value.rec motive (fun items => ∀ item ∈ items, motive item)
    (fun fields => ∀ field ∈ fields, motive field.2) (fun field => motive field.2)
    null boolean enum var string int float list object
    (List.forall_mem_nil _) (fun _ _ hitem hrest => List.forall_mem_cons.2 ⟨hitem, hrest⟩)
    (List.forall_mem_nil _) (fun _ _ hfield hrest => List.forall_mem_cons.2 ⟨hfield, hrest⟩)
    (fun _ _ hvalue => hvalue) value

theorem intToJson_num_or_str (literal : String) :
    (∃ value, intToJson literal = .num (.int value)) ∨ intToJson literal = .str literal := by
  rw [intToJson]
  split
  · exact .inl ⟨_, rfl⟩
  · split
    · exact .inl ⟨_, rfl⟩
    · exact .inr rfl

section

variable [NumberReader]

theorem floatToJson_num_or_str (literal : String) :
    (∃ number, floatToJson literal = .num number) ∨ floatToJson literal = .str literal := by
  rw [floatToJson]
  split
  · exact .inr rfl
  · split
    · exact .inl ⟨_, rfl⟩
    · exact .inr rfl

theorem itemsToJson_eq_map (items : List Value) : itemsToJson items = items.map toJson := by
  induction items with
  | nil => rfl
  | cons item rest ih => rw [itemsToJson, List.map_cons, ih]

theorem fieldsToJson_eq_map (fields : List (String × Value)) :
    fieldsToJson fields = fields.map fun field => (field.1, field.2.toJson) := by
  induction fields with
  | nil => rfl
  | cons field rest ih => rw [fieldsToJson, List.map_cons, ih]

/-- A list keeps all its items in order. An object has every key once, where it comes first and with
the form of its last value. -/
inductive ConvertsTo : Value → Json → Prop
  | null : ConvertsTo .null .null
  | boolean (value : Bool) : ConvertsTo (.boolean value) (.bool value)
  | enum (name : String) : ConvertsTo (.enum name) (.str name)
  | variable (name : String) : ConvertsTo (.variable name) (.str ("$" ++ name))
  | string (value : String) : ConvertsTo (.string value) (.str value)
  | int (literal : String) : ConvertsTo (.int literal) (intToJson literal)
  | float (literal : String) : ConvertsTo (.float literal) (floatToJson literal)
  | list {items : List Value} {forms : List Json} (hitems : List.Forall₂ ConvertsTo items forms) :
    ConvertsTo (.list items) (.arr forms)
  | object {fields : List (String × Value)} {members : Entries Json}
    (keys_eq : members.keys = (Entries.keys fields).eraseDups)
    (value : ∀ key value form, Entries.LastOf fields key value → members.get? key = some form →
      ConvertsTo value form) :
    ConvertsTo (.object fields) (.obj members)

theorem convertsTo_object_iff {fields : List (String × Value)} {form : Json} :
    ConvertsTo (.object fields) form ↔
      ∃ members, form = .obj members ∧ Entries.Indexes ConvertsTo fields members := by
  constructor
  · intro h
    cases h with
    | object hkeys hvalue => exact ⟨_, rfl, hkeys, hvalue⟩
  · rintro ⟨members, rfl, hkeys, hvalue⟩
    exact .object hkeys hvalue

theorem convertsTo_toJson (value : Value) : value.ConvertsTo value.toJson := by
  induction value using inductionOn with
  | null => exact .null
  | boolean value => exact .boolean value
  | enum name => exact .enum name
  | var name => exact .variable name
  | string value => exact .string value
  | int literal => exact .int literal
  | float literal => exact .float literal
  | list items ih =>
    rw [toJson, itemsToJson_eq_map]
    exact .list (List.forall₂_map_right_iff.2 (List.forall₂_same.2 ih))
  | object fields ih =>
    rw [toJson, fieldsToJson_eq_map]
    exact convertsTo_object_iff.2 ⟨_, rfl, Entries.indexes_ofList_map ih⟩

theorem ConvertsTo.unique {value : Value} {first second : Json} (hfirst : value.ConvertsTo first)
    (hsecond : value.ConvertsTo second) : first = second := by
  induction value using inductionOn generalizing first second with
  | null | boolean | enum | var | string | int | float =>
    cases hfirst
    cases hsecond
    rfl
  | list items ih =>
    cases hfirst with
    | list hforms =>
      cases hsecond with
      | list hothers =>
        rw [eq_of_forall₂_of_forall₂ (fun item hitem _ _ => ih item hitem) hforms hothers]
  | object fields ih =>
    obtain ⟨members, rfl, hmembers⟩ := convertsTo_object_iff.1 hfirst
    obtain ⟨others, rfl, hothers⟩ := convertsTo_object_iff.1 hsecond
    have hunique : ∀ key value, Entries.LastOf fields key value →
        ∀ x y, value.ConvertsTo x → value.ConvertsTo y → x = y :=
      fun key value hlast x y hx hy => ih (key, value) hlast.mem hx hy
    rw [hmembers.unique hunique hothers]

end

end Value

end GraphQLIR
