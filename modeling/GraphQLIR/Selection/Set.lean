/-!
# Selection sets

A selection set is a sequence of fields, fragment spreads and inline fragments, of which fields and
inline fragments have a selection set of their own. It is given by its first item and the rest.
What is known of a node besides its selections is a parameter, so that selections as written and
normalized ones have the same shape.
-/

namespace GraphQLIR

/-- Selections with nodes `φ` for fields, `σ` for spreads and `ι` for inline fragments. -/
inductive SelectionSet (φ σ ι : Type)
  | empty
  | field (node : φ) (selections rest : SelectionSet φ σ ι)
  | spread (node : σ) (rest : SelectionSet φ σ ι)
  | inline (node : ι) (selections rest : SelectionSet φ σ ι)
deriving DecidableEq, Repr

inductive ItemKind
  | field
  | spread
  | inline
deriving DecidableEq, Repr

/-- One item of a selection set, with its own selections. -/
inductive SelectionItem (φ σ ι : Type)
  | field (node : φ) (selections : SelectionSet φ σ ι)
  | spread (node : σ)
  | inline (node : ι) (selections : SelectionSet φ σ ι)
deriving DecidableEq, Repr

namespace SelectionItem

variable {φ σ ι : Type}

def kind : SelectionItem φ σ ι → ItemKind
  | .field _ _ => .field
  | .spread _ => .spread
  | .inline _ _ => .inline

def field? : SelectionItem φ σ ι → Option (φ × SelectionSet φ σ ι)
  | .field node selections => some (node, selections)
  | _ => none

def spread? : SelectionItem φ σ ι → Option σ
  | .spread node => some node
  | _ => none

def inline? : SelectionItem φ σ ι → Option (ι × SelectionSet φ σ ι)
  | .inline node selections => some (node, selections)
  | _ => none

end SelectionItem

/-- A sequence of items of three kinds, with the positions of the items of each kind. -/
structure Indexed (α : Type) where
  items : List α
  fieldPositions : List Nat
  spreadPositions : List Nat
  inlinePositions : List Nat
deriving DecidableEq, Repr

namespace Indexed

variable {α : Type}

/-- The positions, counted from `start`, of the items of a kind. -/
def positionsFrom (kindOf : α → ItemKind) (kind : ItemKind) (start : Nat) : List α → List Nat
  | [] => []
  | item :: rest =>
    let later := positionsFrom kindOf kind (start + 1) rest
    if kindOf item = kind then start :: later else later

def ofItems (kindOf : α → ItemKind) (items : List α) : Indexed α where
  items := items
  fieldPositions := positionsFrom kindOf .field 0 items
  spreadPositions := positionsFrom kindOf .spread 0 items
  inlinePositions := positionsFrom kindOf .inline 0 items

/-- The items at these positions. -/
def pick (indexed : Indexed α) (positions : List Nat) : List α :=
  positions.filterMap fun position => indexed.items[position]?

def fields (indexed : Indexed α) : List α := indexed.pick indexed.fieldPositions

def spreads (indexed : Indexed α) : List α := indexed.pick indexed.spreadPositions

def inlines (indexed : Indexed α) : List α := indexed.pick indexed.inlinePositions

def hasFields (indexed : Indexed α) : Bool := !indexed.fieldPositions.isEmpty

def hasSpreads (indexed : Indexed α) : Bool := !indexed.spreadPositions.isEmpty

def hasInlines (indexed : Indexed α) : Bool := !indexed.inlinePositions.isEmpty

end Indexed

namespace SelectionSet

variable {φ σ ι : Type}

def items : SelectionSet φ σ ι → List (SelectionItem φ σ ι)
  | .empty => []
  | .field node selections rest => .field node selections :: rest.items
  | .spread node rest => .spread node :: rest.items
  | .inline node selections rest => .inline node selections :: rest.items

def cons : SelectionItem φ σ ι → SelectionSet φ σ ι → SelectionSet φ σ ι
  | .field node selections, rest => .field node selections rest
  | .spread node, rest => .spread node rest
  | .inline node selections, rest => .inline node selections rest

def ofItems (items : List (SelectionItem φ σ ι)) : SelectionSet φ σ ι :=
  items.foldr cons .empty

def isEmpty : SelectionSet φ σ ι → Bool
  | .empty => true
  | _ => false

/-- The items with their positions by kind. -/
def indexed (set : SelectionSet φ σ ι) : Indexed (SelectionItem φ σ ι) :=
  .ofItems SelectionItem.kind set.items

/-- The items of the first set, then those of the second. -/
def append : SelectionSet φ σ ι → SelectionSet φ σ ι → SelectionSet φ σ ι
  | .empty, tail => tail
  | .field node selections rest, tail => .field node selections (rest.append tail)
  | .spread node rest, tail => .spread node (rest.append tail)
  | .inline node selections rest, tail => .inline node selections (rest.append tail)

instance : Append (SelectionSet φ σ ι) := ⟨append⟩

/-- Equality of all nodes, in order and at every depth. -/
def same [BEq φ] [BEq σ] [BEq ι] : SelectionSet φ σ ι → SelectionSet φ σ ι → Bool
  | .empty, .empty => true
  | .field a as restA, .field b bs restB => a == b && as.same bs && restA.same restB
  | .spread a restA, .spread b restB => a == b && restA.same restB
  | .inline a as restA, .inline b bs restB => a == b && as.same bs && restA.same restB
  | _, _ => false

instance [BEq φ] [BEq σ] [BEq ι] : BEq (SelectionSet φ σ ι) := ⟨same⟩

@[simp] theorem items_cons (item : SelectionItem φ σ ι) (rest : SelectionSet φ σ ι) :
    (cons item rest).items = item :: rest.items := by
  cases item <;> rfl

@[simp] theorem items_ofItems (items : List (SelectionItem φ σ ι)) : (ofItems items).items = items := by
  induction items with
  | nil => rfl
  | cons item rest ih =>
    change (cons item (ofItems rest)).items = item :: rest
    rw [items_cons, ih]

end SelectionSet

end GraphQLIR
