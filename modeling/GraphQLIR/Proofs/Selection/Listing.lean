import GraphQLIR.Selection.Set
/-!
# Listings of selections

The items of a selection set by kind, and the items at every depth with each item ahead of those
below it.
-/

namespace GraphQLIR.SelectionSet

variable {φ σ ι : Type}

/-! ## One level by kind -/

/-- The items of a kind, in order. -/
def itemsOf (kind : ItemKind) (set : SelectionSet φ σ ι) : List (SelectionItem φ σ ι) :=
  set.items.filter fun item => item.kind = kind

/-- Fields come first, then spreads, then inline fragments. Items of one kind stay in order. -/
def grouped (set : SelectionSet φ σ ι) : SelectionSet φ σ ι :=
  .ofItems (set.itemsOf .field ++ set.itemsOf .spread ++ set.itemsOf .inline)

def fieldNodes (set : SelectionSet φ σ ι) : List φ :=
  set.items.filterMap fun item => item.field?.map Prod.fst

def spreadNodes (set : SelectionSet φ σ ι) : List σ :=
  set.items.filterMap SelectionItem.spread?

def inlineNodes (set : SelectionSet φ σ ι) : List ι :=
  set.items.filterMap fun item => item.inline?.map Prod.fst

theorem isEmpty_eq_true_iff {set : SelectionSet φ σ ι} : set.isEmpty = true ↔ set = .empty := by
  cases set <;> simp [isEmpty]

theorem isEmpty_eq_isEmpty_items (set : SelectionSet φ σ ι) : set.isEmpty = set.items.isEmpty := by
  cases set <;> rfl

/-- Every item is of one of the three kinds. -/
theorem nodes_ne_nil {set : SelectionSet φ σ ι} (h : set ≠ .empty) :
    set.fieldNodes ≠ [] ∨ set.spreadNodes ≠ [] ∨ set.inlineNodes ≠ [] := by
  cases set with
  | empty => exact absurd rfl h
  | field node selections rest => exact Or.inl (List.cons_ne_nil _ _)
  | spread node rest => exact Or.inr (Or.inl (List.cons_ne_nil _ _))
  | inline node selections rest => exact Or.inr (Or.inr (List.cons_ne_nil _ _))

/-! ## All depths -/

/-- The items at every depth, each followed by those below it. -/
def preorder : SelectionSet φ σ ι → List (SelectionItem φ σ ι)
  | .empty => []
  | .field node selections rest =>
    .field node selections :: (selections.preorder ++ rest.preorder)
  | .spread node rest => .spread node :: rest.preorder
  | .inline node selections rest =>
    .inline node selections :: (selections.preorder ++ rest.preorder)

end GraphQLIR.SelectionSet
