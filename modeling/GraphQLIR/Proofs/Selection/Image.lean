import GraphQLIR.Proofs.Selection.Normalization
/-!
# Normalized selections as images of written ones

Normalization learns the types of the fields and indexes the directives, and leaves the tree as it
is: in the place of every written item stands one normalized item of its kind. So the names,
aliases, type texts, spreads and fragment types that were written can be read back.
-/

namespace GraphQLIR

/-! ## Trees of one shape -/

namespace SelectionSet

variable {φ σ ι φ' σ' ι' α β γ : Type}

/-- The trees have the same shape, and `F`, `S` and `I` relate the nodes in the same places. -/
inductive Corresponds (F : φ → φ' → Prop) (S : σ → σ' → Prop) (I : ι → ι' → Prop) :
    SelectionSet φ σ ι → SelectionSet φ' σ' ι' → Prop
  | empty : Corresponds F S I .empty .empty
  | field {node node' below below' rest rest'} (hnode : F node node')
    (hbelow : Corresponds F S I below below') (hrest : Corresponds F S I rest rest') :
    Corresponds F S I (.field node below rest) (.field node' below' rest')
  | spread {node node' rest rest'} (hnode : S node node') (hrest : Corresponds F S I rest rest') :
    Corresponds F S I (.spread node rest) (.spread node' rest')
  | inline {node node' below below' rest rest'} (hnode : I node node')
    (hbelow : Corresponds F S I below below') (hrest : Corresponds F S I rest rest') :
    Corresponds F S I (.inline node below rest) (.inline node' below' rest')

end SelectionSet

/-- The items are of one kind, with related nodes and trees of the same shape below them. -/
inductive SelectionItem.Corresponds {φ σ ι φ' σ' ι' : Type} (F : φ → φ' → Prop) (S : σ → σ' → Prop)
    (I : ι → ι' → Prop) : SelectionItem φ σ ι → SelectionItem φ' σ' ι' → Prop
  | field {node node' below below'} (hnode : F node node')
    (hbelow : SelectionSet.Corresponds F S I below below') :
    Corresponds F S I (.field node below) (.field node' below')
  | spread {node node'} (hnode : S node node') : Corresponds F S I (.spread node) (.spread node')
  | inline {node node' below below'} (hnode : I node node')
    (hbelow : SelectionSet.Corresponds F S I below below') :
    Corresponds F S I (.inline node below) (.inline node' below')

namespace SelectionSet

variable {φ σ ι φ' σ' ι' α β γ : Type}

/-- The tree with changed nodes. -/
def mapNodes (f : φ → α) (g : σ → β) (h : ι → γ) : SelectionSet φ σ ι → SelectionSet α β γ
  | .empty => .empty
  | .field node selections rest =>
    .field (f node) (mapNodes f g h selections) (mapNodes f g h rest)
  | .spread node rest => .spread (g node) (mapNodes f g h rest)
  | .inline node selections rest =>
    .inline (h node) (mapNodes f g h selections) (mapNodes f g h rest)

namespace Corresponds

variable {F : φ → φ' → Prop} {S : σ → σ' → Prop} {I : ι → ι' → Prop}
  {set : SelectionSet φ σ ι} {set' : SelectionSet φ' σ' ι'}

theorem items (h : Corresponds F S I set set') :
    List.Forall₂ (SelectionItem.Corresponds F S I) set.items set'.items := by
  induction h with
  | empty => exact .nil
  | field hnode hbelow _ _ ihrest => exact .cons (.field hnode hbelow) ihrest
  | spread hnode _ ihrest => exact .cons (.spread hnode) ihrest
  | inline hnode hbelow _ _ ihrest => exact .cons (.inline hnode hbelow) ihrest

/-- The items at every depth correspond one for one, in pre-order. -/
theorem preorder (h : Corresponds F S I set set') :
    List.Forall₂ (SelectionItem.Corresponds F S I) set.preorder set'.preorder := by
  induction h with
  | empty => exact .nil
  | field hnode hbelow _ ihbelow ihrest =>
    exact .cons (.field hnode hbelow) (List.rel_append ihbelow ihrest)
  | spread hnode _ ihrest => exact .cons (.spread hnode) ihrest
  | inline hnode hbelow _ ihbelow ihrest =>
    exact .cons (.inline hnode hbelow) (List.rel_append ihbelow ihrest)

/-- What related nodes have in common, the trees have in common. -/
theorem mapNodes_eq {f : φ → α} {g : σ → β} {k : ι → γ} {f' : φ' → α} {g' : σ' → β} {k' : ι' → γ}
    (h : Corresponds F S I set set') (hF : ∀ node node', F node node' → f node = f' node')
    (hS : ∀ node node', S node node' → g node = g' node')
    (hI : ∀ node node', I node node' → k node = k' node') :
    set.mapNodes f g k = set'.mapNodes f' g' k' := by
  induction h with
  | empty => rfl
  | field hnode _ _ ihbelow ihrest => simp only [mapNodes, hF _ _ hnode, ihbelow, ihrest]
  | spread hnode _ ihrest => simp only [mapNodes, hS _ _ hnode, ihrest]
  | inline hnode _ _ ihbelow ihrest => simp only [mapNodes, hI _ _ hnode, ihbelow, ihrest]

/-- Nodes that determine the nodes related to them make a tree that determines the other one. -/
theorem unique {other : SelectionSet φ' σ' ι'} (h : Corresponds F S I set set')
    (hother : Corresponds F S I set other) (hF : ∀ node a b, F node a → F node b → a = b)
    (hS : ∀ node a b, S node a → S node b → a = b)
    (hI : ∀ node a b, I node a → I node b → a = b) : other = set' := by
  induction h generalizing other with
  | empty =>
    cases hother
    rfl
  | field hnode _ _ ihbelow ihrest =>
    cases hother with
    | field hnode' hbelow' hrest' =>
      rw [hF _ _ _ hnode' hnode, ihbelow hbelow', ihrest hrest']
  | spread hnode _ ihrest =>
    cases hother with
    | spread hnode' hrest' => rw [hS _ _ _ hnode' hnode, ihrest hrest']
  | inline hnode _ _ ihbelow ihrest =>
    cases hother with
    | inline hnode' hbelow' hrest' =>
      rw [hI _ _ _ hnode' hnode, ihbelow hbelow', ihrest hrest']

end Corresponds

end SelectionSet

/-! ## Images -/

section

variable [NumberReader]

/-- The node keeps the name and alias of the field, and has the classification of its type and its
directives. -/
structure WrittenField.HasImage (catalog : Catalog) (field : WrittenField) (node : FieldNode) :
    Prop where
  name : node.name = field.name
  aliasName : node.aliasName = field.aliasName
  type : catalog.classify field.type = .ok node.type
  directives : node.directives = .ofApplications field.directives

/-- The node keeps the name of the fragment, whatever that fragment is. -/
structure WrittenSpread.HasImage (spread : WrittenSpread) (node : SpreadNode) : Prop where
  fragmentName : node.fragmentName = spread.fragmentName
  directives : node.directives = .ofApplications spread.directives

/-- The node keeps the type that the selections select from, with or without a type condition. -/
structure WrittenInline.HasImage (inline : WrittenInline) (node : InlineNode) : Prop where
  onType : node.onType = inline.selectsFrom
  directives : node.directives = .ofApplications inline.directives

theorem WrittenField.HasImage.eq_normalNode {catalog : Catalog} {field : WrittenField}
    {node : FieldNode} (h : field.HasImage catalog node) : node = field.normalNode node.type := by
  obtain ⟨name, aliasName, type, directives⟩ := node
  obtain ⟨rfl, rfl, -, rfl⟩ := h
  rfl

theorem WrittenField.HasImage.unique {catalog : Catalog} {field : WrittenField}
    {node other : FieldNode} (h : field.HasImage catalog node)
    (hother : field.HasImage catalog other) : node = other := by
  have htype : node.type = other.type := Except.ok.inj (h.type.symm.trans hother.type)
  calc node = field.normalNode node.type := h.eq_normalNode
    _ = field.normalNode other.type := by rw [htype]
    _ = other := hother.eq_normalNode.symm

theorem WrittenSpread.HasImage.eq_normalNode {spread : WrittenSpread} {node : SpreadNode}
    (h : spread.HasImage node) : node = spread.normalNode := by
  obtain ⟨fragmentName, directives⟩ := node
  obtain ⟨rfl, rfl⟩ := h
  rfl

theorem WrittenInline.HasImage.eq_normalNode {inline : WrittenInline} {node : InlineNode}
    (h : inline.HasImage node) : node = inline.normalNode := by
  obtain ⟨onType, directives⟩ := node
  obtain ⟨rfl, rfl⟩ := h
  rfl

namespace WrittenSelections

variable {catalog : Catalog} {parent : String} {written : WrittenSelections} {normal : Selections}

/-- Every node of the normalized tree is the image of the written node in its place. -/
abbrev HasImage (catalog : Catalog) (written : WrittenSelections) (normal : Selections) : Prop :=
  written.Corresponds (WrittenField.HasImage catalog) WrittenSpread.HasImage
    WrittenInline.HasImage normal

theorem hasImage_of_normalize_eq_ok (h : written.normalize catalog parent = .ok normal) :
    written.HasImage catalog normal := by
  induction written generalizing parent normal with
  | empty =>
    cases h
    exact .empty
  | field field selections rest ihbelow ihrest =>
    obtain ⟨type, below, later, htype, -, hbelow, hlater, rfl⟩ := normalize_field_eq_ok h
    exact .field ⟨rfl, rfl, htype, rfl⟩ (ihbelow hbelow) (ihrest hlater)
  | spread spread rest ihrest =>
    obtain ⟨later, hlater, rfl⟩ := normalize_spread_eq_ok h
    exact .spread ⟨rfl, rfl⟩ (ihrest hlater)
  | inline inline selections rest ihbelow ihrest =>
    obtain ⟨below, later, hbelow, hlater, rfl⟩ := normalize_inline_eq_ok h
    exact .inline ⟨rfl, rfl⟩ (ihbelow hbelow) (ihrest hlater)

theorem HasImage.unique {other : Selections} (h : written.HasImage catalog normal)
    (hother : written.HasImage catalog other) : other = normal := by
  apply SelectionSet.Corresponds.unique h hother
  · intro field a b ha hb
    exact ha.unique hb
  · intro spread a b ha hb
    exact ha.eq_normalNode.trans hb.eq_normalNode.symm
  · intro inline a b ha hb
    exact ha.eq_normalNode.trans hb.eq_normalNode.symm

end WrittenSelections

end

/-! ## Reading back what was written -/

/-- A field without its directives and with the text of its type. -/
structure FieldOutline where
  name : String
  aliasName : Option String
  typeText : String
deriving DecidableEq, Repr

/-- The names, aliases, type texts, spreads and fragment types of selections. -/
abbrev SelectionOutline := SelectionSet FieldOutline String String

def WrittenSelections.outline (written : WrittenSelections) : SelectionOutline :=
  written.mapNodes (fun field => ⟨field.name, field.aliasName, field.type.text⟩)
    WrittenSpread.fragmentName WrittenInline.selectsFrom

def Selections.outline (selections : Selections) : SelectionOutline :=
  selections.mapNodes (fun node => ⟨node.name, node.aliasName, node.type.raw⟩)
    SpreadNode.fragmentName InlineNode.onType

namespace WrittenSelections

section

variable [NumberReader] {catalog : Catalog} {parent : String} {written : WrittenSelections}
  {normal : Selections}

theorem HasImage.outline_eq (h : written.HasImage catalog normal) :
    normal.outline = written.outline := by
  symm
  apply SelectionSet.Corresponds.mapNodes_eq h
  · intro field node hnode
    have hraw : node.type.raw = field.type.text := (Catalog.classify_eq_ok hnode.type).2
    simp only [hnode.name, hnode.aliasName, hraw]
  · intro spread node hnode
    exact hnode.fragmentName.symm
  · intro inline node hnode
    exact hnode.onType.symm

/-- One item of a normalized tree and the written item in its place. -/
abbrev ItemHasImage (catalog : Catalog) :
    SelectionItem WrittenField WrittenSpread WrittenInline → Selection → Prop :=
  SelectionItem.Corresponds (WrittenField.HasImage catalog) WrittenSpread.HasImage
    WrittenInline.HasImage

/-- The tree is the image of the written one, item by item on each level and so at every depth, and
nothing else is. What was written can be read back from it. -/
structure KeptIn (catalog : Catalog) (written : WrittenSelections) (normal : Selections) :
    Prop where
  hasImage_iff : ∀ other, written.HasImage catalog other ↔ other = normal
  items : List.Forall₂ (ItemHasImage catalog) written.items normal.items
  preorder : List.Forall₂ (ItemHasImage catalog) written.preorder normal.preorder
  outline : normal.outline = written.outline

/-- Accepted selections are kept, whatever type they select from. -/
theorem normalize_keptIn (h : written.normalize catalog parent = .ok normal) :
    written.KeptIn catalog normal := by
  have himage : written.HasImage catalog normal := hasImage_of_normalize_eq_ok h
  constructor
  case hasImage_iff =>
    intro other
    constructor
    · intro hother
      exact himage.unique hother
    · rintro rfl
      exact himage
  case items => exact himage.items
  case preorder => exact himage.preorder
  case outline => exact himage.outline_eq

end

/-- The selections `{ me: user @include(if: $a) { id ... @skip(if: $b) { ...F id } } }`. -/
def nestedSelections : WrittenSelections :=
  let id : WrittenField := ⟨"id", none, .nonNullNamed "ID", "ID", []⟩
  .field ⟨"user", some "me", .named "User", "User", [⟨"include", [("if", .variable "a")]⟩]⟩
    (.field id .empty
      (.inline ⟨"User", false, [⟨"skip", [("if", .variable "b")]⟩]⟩
        (.spread ⟨"F", []⟩ (.field id .empty .empty)) .empty))
    .empty

section

open NumberReader.Nearest

theorem normalize_nestedSelections :
    ∃ normal,
      nestedSelections.normalize (.ofList [("User", .object), ("ID", .scalar)]) "Query" =
        .ok normal ∧
      normal.outline = .field ⟨"user", some "me", "User"⟩
        (.field ⟨"id", none, "ID!"⟩ .empty
          (.inline "User" (.spread "F" (.field ⟨"id", none, "ID!"⟩ .empty .empty)) .empty))
        .empty ∧
      nestedSelections.KeptIn (.ofList [("User", .object), ("ID", .scalar)]) normal :=
  ⟨_, rfl, rfl, @normalize_keptIn _ _ "Query" _ _ rfl⟩

end

end WrittenSelections

end GraphQLIR
