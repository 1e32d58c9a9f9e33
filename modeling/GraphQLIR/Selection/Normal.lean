import GraphQLIR.Catalog
import GraphQLIR.AppliedDirectives
import GraphQLIR.Selection.Written
/-!
# Normalized selections

Every field carries its classified type. A field of a leaf type has no selections, a field of any
other type has some. Spreads are kept by name and not followed.
-/

namespace GraphQLIR

structure FieldNode where
  name : String
  aliasName : Option String
  type : TypeRef
  directives : AppliedDirectives
deriving BEq

structure SpreadNode where
  fragmentName : String
  directives : AppliedDirectives
deriving BEq

structure InlineNode where
  /-- The type condition, or the enclosing type if there is none. -/
  onType : String
  directives : AppliedDirectives
deriving BEq

abbrev Selections := SelectionSet FieldNode SpreadNode InlineNode

abbrev Selection := SelectionItem FieldNode SpreadNode InlineNode

namespace FieldNode

/-- The key of the field in a response. -/
def responseKey (node : FieldNode) : String :=
  node.aliasName.getD node.name

def isLeaf (node : FieldNode) : Bool :=
  node.type.isLeaf

end FieldNode

namespace Selection

/-- Only fields are leaves. -/
def isLeaf : Selection → Bool
  | .field node _ => node.isLeaf
  | .spread _ | .inline _ _ => false

def directives : Selection → AppliedDirectives
  | .field node _ => node.directives
  | .spread node => node.directives
  | .inline node _ => node.directives

end Selection

/-! ## Normalization -/

namespace WrittenField

/-- Classifies the type of a field and compares it with whether the field has selections.
`parent` is the type that the field is selected from. -/
def check (catalog : Catalog) (parent : String) (hasSelections : Bool) (field : WrittenField) :
    Except Fault TypeRef := do
  let type ← catalog.classify field.type
  if type.isLeaf && hasSelections then
    throw (.selection parent field.name type.raw .unexpected)
  else if !type.isLeaf && !hasSelections then
    throw (.selection parent field.name type.raw .missing)
  else
    return type

end WrittenField

/-- Normalizes the selections from the type `parent`. A field is checked before its selections,
and these before the items after it. -/
def WrittenSelections.normalize [NumberReader] (catalog : Catalog) (parent : String) :
    WrittenSelections → Except Fault Selections
  | .empty => return .empty
  | .field field selections rest => do
    let type ← field.check catalog parent (!selections.isEmpty)
    let selections ← normalize catalog field.selectsFrom selections
    let rest ← normalize catalog parent rest
    let node : FieldNode :=
      ⟨field.name, field.aliasName, type, .ofApplications field.directives⟩
    return .field node selections rest
  | .spread spread rest => do
    let rest ← normalize catalog parent rest
    return .spread ⟨spread.fragmentName, .ofApplications spread.directives⟩ rest
  | .inline inline selections rest => do
    let selections ← normalize catalog inline.selectsFrom selections
    let rest ← normalize catalog parent rest
    return .inline ⟨inline.selectsFrom, .ofApplications inline.directives⟩ selections rest

/-! ## JSON form -/

/-- The items of each kind by themselves, and whether there are any. -/
def kindMembers (fields spreads inlines : Json) (hasFields hasSpreads hasInlines : Bool) :
    Entries Json :=
  [("fields", fields), ("fragmentsSpread", spreads), ("inlineFragments", inlines),
    ("hasFields", .bool hasFields), ("hasFragmentsSpread", .bool hasSpreads),
    ("hasInlineFragments", .bool hasInlines)]

def kindKeys : List String :=
  ["fields", "fragmentsSpread", "inlineFragments", "hasFields", "hasFragmentsSpread",
    "hasInlineFragments"]

namespace Selections

/-- The flags that tell the kinds of items apart. -/
def tagMembers (kind : ItemKind) (isLeaf : Bool) : Entries Json :=
  [("isField", .bool (kind == .field)), ("isFragmentSpread", .bool (kind == .spread)),
    ("isInlineFragment", .bool (kind == .inline)), ("isLeaf", .bool isLeaf)]

def tagKeys : List String :=
  ["isField", "isFragmentSpread", "isInlineFragment", "isLeaf"]

/-- All items, then the items of each kind once more by themselves. -/
def itemMembers (items : List (ItemKind × Json)) : Entries Json :=
  let indexed := Indexed.ofItems Prod.fst items
  ("selectionSet", .ofList Prod.snd indexed.items) ::
    kindMembers (.ofList Prod.snd indexed.fields) (.ofList Prod.snd indexed.spreads)
      (.ofList Prod.snd indexed.inlines) indexed.hasFields indexed.hasSpreads indexed.hasInlines

def keys : List String :=
  "selectionSet" :: kindKeys

end Selections

namespace FieldNode

/-- The members of a field, whose selections have the members `below`. -/
def members (node : FieldNode) (below : Entries Json) : Entries Json :=
  Selections.tagMembers .field node.isLeaf ++
    [("name", .str node.name), ("alias", .ofOption .str node.aliasName)] ++ node.type.members ++
    below ++ node.directives.members

def keys : List String :=
  Selections.tagKeys ++ ["name", "alias"] ++ TypeRef.keys ++ Selections.keys ++
    AppliedDirectives.keys

end FieldNode

namespace SpreadNode

def members (node : SpreadNode) : Entries Json :=
  ("fragmentName", .str node.fragmentName) :: node.directives.members

def keys : List String :=
  "fragmentName" :: AppliedDirectives.keys

end SpreadNode

namespace InlineNode

/-- The members of an inline fragment, whose selections have the members `below`. -/
def members (node : InlineNode) (below : Entries Json) : Entries Json :=
  Selections.tagMembers .inline false ++ [("onType", .str node.onType)] ++ below ++
    node.directives.members

def keys : List String :=
  Selections.tagKeys ++ ["onType"] ++ Selections.keys ++ AppliedDirectives.keys

end InlineNode

namespace Selections

/-- The items with their kinds, each in its JSON form. -/
def encodedItems : Selections → List (ItemKind × Json)
  | .empty => []
  | .field node selections rest =>
    (.field, .obj (node.members (itemMembers (encodedItems selections)))) :: encodedItems rest
  | .spread node rest =>
    (.spread, .obj (tagMembers .spread false ++ node.members)) :: encodedItems rest
  | .inline node selections rest =>
    (.inline, .obj (node.members (itemMembers (encodedItems selections)))) :: encodedItems rest

def members (selections : Selections) : Entries Json :=
  itemMembers selections.encodedItems

end Selections

end GraphQLIR
