import GraphQLIR.Selection.Normal
import GraphQLIR.Proofs.Json.Parts
/-!
# Equality of selections

The JSON form of a selection set lists its items twice, all together and by kind. Both lists agree
with those of another set just if the sets are equal. The positions by kind follow from the items,
so that a comparison of them as well finds no further difference.
-/

namespace GraphQLIR

open Json

/-! ## Lists by kind -/

namespace Indexed

variable {α β : Type}

/-- Positions follow from the kinds alone. -/
theorem positionsFrom_eq_map (kindOf : α → ItemKind) (kind : ItemKind) (start : Nat)
    (items : List α) :
    positionsFrom kindOf kind start items = positionsFrom id kind start (items.map kindOf) := by
  induction items generalizing start with
  | nil => rfl
  | cons item rest ih => rw [List.map_cons, positionsFrom, positionsFrom, ih, id_eq]

theorem forall₂_pick {R : α → β → Prop} {a : Indexed α} {b : Indexed β}
    (h : List.Forall₂ R a.items b.items) (positions : List Nat) :
    List.Forall₂ R (a.pick positions) (b.pick positions) := by
  have hat (position : Nat) : Option.Rel R a.items[position]? b.items[position]? := by
    generalize a.items = xs, b.items = ys at h
    induction h generalizing position with
    | nil => exact .none
    | cons hitem _ ih =>
      cases position with
      | zero => exact .some hitem
      | succ position => exact ih position
  refine List.rel_filterMap (R := (· = ·)) ?_ (List.forall₂_refl positions)
  rintro position _ rfl
  exact hat position

end Indexed

namespace Selections

/-! ## The block of members -/

/-- Items of the same kind with equal forms. -/
def SameItem (x y : ItemKind × Json) : Prop :=
  x.1 = y.1 ∧ x.2.same y.2 = true

/-- The form of an item starts with the flags of its kind. -/
def Tagged (item : ItemKind × Json) : Prop :=
  ∃ isLeaf rest, item.2 = .obj (tagMembers item.1 isLeaf ++ rest)

theorem tagged_of_mem_encodedItems (selections : Selections) :
    ∀ item ∈ selections.encodedItems, Tagged item := by
  induction selections with
  | empty => simp [encodedItems]
  | field node selections rest _ ih => exact List.forall_mem_cons.2 ⟨⟨node.isLeaf, _, rfl⟩, ih⟩
  | spread node rest ih => exact List.forall_mem_cons.2 ⟨⟨false, _, rfl⟩, ih⟩
  | inline node selections rest _ ih => exact List.forall_mem_cons.2 ⟨⟨false, _, rfl⟩, ih⟩

theorem kind_eq_of_same {x y : ItemKind × Json} (hx : Tagged x) (hy : Tagged y)
    (h : x.2.same y.2 = true) : x.1 = y.1 := by
  obtain ⟨_, _, hx⟩ := hx
  obtain ⟨_, _, hy⟩ := hy
  rw [hx, hy] at h
  have hfield := same_of_get? "isField" h rfl rfl
  have hspread := same_of_get? "isFragmentSpread" h rfl rfl
  rw [same_bool_iff] at hfield hspread
  revert hfield hspread
  cases x.1 <;> cases y.1 <;> decide

theorem forall₂_sameItem_iff {xs ys : List (ItemKind × Json)} (hxs : ∀ x ∈ xs, Tagged x)
    (hys : ∀ y ∈ ys, Tagged y) :
    List.Forall₂ SameItem xs ys ↔ List.Forall₂ (fun x y => x.2.same y.2 = true) xs ys :=
  forall₂_congr_of_mem fun x hx y hy =>
    ⟨And.right, fun h => ⟨kind_eq_of_same (hxs x hx) (hys y hy) h, h⟩⟩

section

variable {xs ys : List (ItemKind × Json)}

theorem positionsFrom_eq_of_forall₂ (h : List.Forall₂ SameItem xs ys) (kind : ItemKind) :
    Indexed.positionsFrom Prod.fst kind 0 xs = Indexed.positionsFrom Prod.fst kind 0 ys := by
  rw [Indexed.positionsFrom_eq_map, map_eq_map_of_forall₂ (h.imp fun _ _ => And.left),
    ← Indexed.positionsFrom_eq_map]

theorem same_pick_of_forall₂ (h : List.Forall₂ SameItem xs ys) (kind : ItemKind) :
    (ofList Prod.snd ((Indexed.ofItems Prod.fst xs).pick
        (Indexed.positionsFrom Prod.fst kind 0 xs))).same
      (ofList Prod.snd ((Indexed.ofItems Prod.fst ys).pick
        (Indexed.positionsFrom Prod.fst kind 0 ys))) = true := by
  rw [positionsFrom_eq_of_forall₂ h kind, same_ofList_iff_forall₂]
  exact Indexed.forall₂_pick (h.imp fun _ _ => And.right) _

@[simp] theorem length_itemMembers (items : List (ItemKind × Json)) :
    (itemMembers items).length = 7 := by
  simp [itemMembers, kindMembers]

/-- The lists by kind and the flags follow from the list of all items. -/
theorem agree_itemMembers_iff (hxs : ∀ x ∈ xs, Tagged x) (hys : ∀ y ∈ ys, Tagged y) :
    Agree (itemMembers xs) (itemMembers ys) ↔ List.Forall₂ SameItem xs ys := by
  constructor
  · intro h
    rw [itemMembers, itemMembers, agree_cons_iff, same_ofList_iff_forall₂] at h
    exact (forall₂_sameItem_iff hxs hys).2 h.1
  · intro h
    have hitems : (ofList Prod.snd xs).same (ofList Prod.snd ys) = true :=
      same_ofList_iff_forall₂.2 ((forall₂_sameItem_iff hxs hys).1 h)
    have hflag (kind : ItemKind) :
        (Json.bool (!(Indexed.positionsFrom Prod.fst kind 0 xs).isEmpty)).same
          (.bool (!(Indexed.positionsFrom Prod.fst kind 0 ys).isEmpty)) = true := by
      rw [positionsFrom_eq_of_forall₂ h kind, same_bool_iff]
    have hpick := same_pick_of_forall₂ h
    exact .cons ⟨rfl, hitems⟩ <| .cons ⟨rfl, hpick .field⟩ <| .cons ⟨rfl, hpick .spread⟩ <|
      .cons ⟨rfl, hpick .inline⟩ <| .cons ⟨rfl, hflag .field⟩ <| .cons ⟨rfl, hflag .spread⟩ <|
      .cons ⟨rfl, hflag .inline⟩ .nil

end

/-! ## Selection sets -/

@[simp] theorem length_tagMembers (kind : ItemKind) (isLeaf : Bool) :
    (tagMembers kind isLeaf).length = 4 := by
  simp [tagMembers]

@[simp] theorem agree_tagMembers_iff (kind : ItemKind) (a b : Bool) :
    Agree (tagMembers kind a) (tagMembers kind b) ↔ a = b := by
  simp [tagMembers]

/-- Sets that start with a field: the form of the field tells its node and what is below it. -/
theorem forall₂_field_iff (a b : FieldNode) (below below' rest rest' : Selections) :
    List.Forall₂ SameItem (encodedItems (.field a below rest))
        (encodedItems (.field b below' rest')) ↔
      ((a == b) = true ∧ List.Forall₂ SameItem (encodedItems below) (encodedItems below')) ∧
        List.Forall₂ SameItem (encodedItems rest) (encodedItems rest') := by
  have hnodup : FieldNode.keys.Nodup := by decide
  have hbeq : (a == b) = (a.name == b.name && (a.aliasName == b.aliasName &&
      (a.type == b.type && a.directives == b.directives))) := rfl
  have hbelow := agree_itemMembers_iff below.tagged_of_mem_encodedItems
    below'.tagged_of_mem_encodedItems
  rw [encodedItems, encodedItems, List.forall₂_cons, SameItem,
    same_obj_iff_agree hnodup rfl rfl, ← hbelow, hbeq]
  refine and_congr_left' ?_
  simp only [FieldNode.members, List.append_assoc, List.cons_append, List.nil_append,
    length_tagMembers,
    length_itemMembers, TypeRef.length_members, agree_append_iff, agree_cons_iff,
    agree_tagMembers_iff, TypeRef.agree_members_iff, AppliedDirectives.agree_members_iff,
    same_str_iff, same_ofOption_str_iff, true_and, Bool.and_eq_true, beq_iff_eq]
  constructor
  · rintro ⟨-, hname, halias, htype, hbelow, hdirectives⟩
    exact ⟨⟨hname, halias, htype, hdirectives⟩, hbelow⟩
  · rintro ⟨⟨hname, halias, htype, hdirectives⟩, hbelow⟩
    exact ⟨congrArg TypeRef.isLeaf htype, hname, halias, htype, hbelow, hdirectives⟩

theorem forall₂_spread_iff (a b : SpreadNode) (rest rest' : Selections) :
    List.Forall₂ SameItem (encodedItems (.spread a rest)) (encodedItems (.spread b rest')) ↔
      (a == b) = true ∧ List.Forall₂ SameItem (encodedItems rest) (encodedItems rest') := by
  have hnodup : (tagKeys ++ SpreadNode.keys).Nodup := by decide
  have hbeq : (a == b) = (a.fragmentName == b.fragmentName && a.directives == b.directives) := rfl
  rw [encodedItems, encodedItems, List.forall₂_cons, SameItem,
    same_obj_iff_agree hnodup rfl rfl, hbeq]
  simp [SpreadNode.members]

theorem forall₂_inline_iff (a b : InlineNode) (below below' rest rest' : Selections) :
    List.Forall₂ SameItem (encodedItems (.inline a below rest))
        (encodedItems (.inline b below' rest')) ↔
      ((a == b) = true ∧ List.Forall₂ SameItem (encodedItems below) (encodedItems below')) ∧
        List.Forall₂ SameItem (encodedItems rest) (encodedItems rest') := by
  have hnodup : InlineNode.keys.Nodup := by decide
  have hbeq : (a == b) = (a.onType == b.onType && a.directives == b.directives) := rfl
  have hbelow := agree_itemMembers_iff below.tagged_of_mem_encodedItems
    below'.tagged_of_mem_encodedItems
  rw [encodedItems, encodedItems, List.forall₂_cons, SameItem,
    same_obj_iff_agree hnodup rfl rfl, ← hbelow, hbeq]
  simp [InlineNode.members, and_assoc, and_comm]

theorem forall₂_encodedItems_iff (a b : Selections) :
    List.Forall₂ SameItem (encodedItems a) (encodedItems b) ↔ SelectionSet.same a b = true := by
  induction a generalizing b with
  | empty => cases b <;> simp [encodedItems, SelectionSet.same]
  | field node below rest ihBelow ih =>
    cases b with
    | field node' below' rest' =>
      rw [forall₂_field_iff, ihBelow, ih, SelectionSet.same, Bool.and_eq_true, Bool.and_eq_true]
    | _ => simp [encodedItems, SameItem, SelectionSet.same]
  | spread node rest ih =>
    cases b with
    | spread node' rest' => rw [forall₂_spread_iff, ih, SelectionSet.same, Bool.and_eq_true]
    | _ => simp [encodedItems, SameItem, SelectionSet.same]
  | inline node below rest ihBelow ih =>
    cases b with
    | inline node' below' rest' =>
      rw [forall₂_inline_iff, ihBelow, ih, SelectionSet.same, Bool.and_eq_true, Bool.and_eq_true]
    | _ => simp [encodedItems, SameItem, SelectionSet.same]

@[simp] theorem length_members (selections : Selections) : selections.members.length = 7 :=
  length_itemMembers _

@[simp] theorem agree_members_iff (a b : Selections) :
    Agree a.members b.members ↔ (a == b) = true :=
  (agree_itemMembers_iff a.tagged_of_mem_encodedItems b.tagged_of_mem_encodedItems).trans
    (forall₂_encodedItems_iff a b)

theorem same_obj_members_iff (a b : Selections) :
    (Json.obj a.members).same (.obj b.members) = true ↔ (a == b) = true := by
  have hnodup : keys.Nodup := by decide
  rw [same_obj_iff_agree hnodup rfl rfl, agree_members_iff]

end Selections

/-! ## Positions compared as well -/

namespace SelectionSet

variable {φ σ ι : Type} [BEq φ] [BEq σ] [BEq ι]

def samePositions (a b : SelectionSet φ σ ι) : Bool :=
  a.indexed.fieldPositions == b.indexed.fieldPositions &&
    (a.indexed.spreadPositions == b.indexed.spreadPositions &&
      a.indexed.inlinePositions == b.indexed.inlinePositions)

/-- Equality of all nodes, and below them of all positions by kind. -/
def sameNodes : SelectionSet φ σ ι → SelectionSet φ σ ι → Bool
  | .empty, .empty => true
  | .field a as restA, .field b bs restB =>
    a == b && (as.sameNodes bs && as.samePositions bs) && restA.sameNodes restB
  | .spread a restA, .spread b restB => a == b && restA.sameNodes restB
  | .inline a as restA, .inline b bs restB =>
    a == b && (as.sameNodes bs && as.samePositions bs) && restA.sameNodes restB
  | _, _ => false

/-- Equality that compares the positions by kind at every depth. -/
def sameIndexed (a b : SelectionSet φ σ ι) : Bool :=
  a.sameNodes b && a.samePositions b

theorem kinds_eq_of_same {a b : SelectionSet φ σ ι} (h : a.same b = true) :
    a.items.map SelectionItem.kind = b.items.map SelectionItem.kind := by
  induction a generalizing b with
  | empty => cases b <;> first | rfl | cases h
  | field node below rest _ ih =>
    cases b with
    | field node' below' rest' => exact congrArg (ItemKind.field :: ·) (ih (Bool.and_eq_true_iff.1 h).2)
    | _ => cases h
  | spread node rest ih =>
    cases b with
    | spread node' rest' => exact congrArg (ItemKind.spread :: ·) (ih (Bool.and_eq_true_iff.1 h).2)
    | _ => cases h
  | inline node below rest _ ih =>
    cases b with
    | inline node' below' rest' => exact congrArg (ItemKind.inline :: ·) (ih (Bool.and_eq_true_iff.1 h).2)
    | _ => cases h

theorem same_and_samePositions (a b : SelectionSet φ σ ι) :
    (a.same b && a.samePositions b) = a.same b := by
  rw [Bool.and_eq_left_iff_imp]
  intro h
  have hpositions (kind : ItemKind) :
      Indexed.positionsFrom SelectionItem.kind kind 0 a.items =
        Indexed.positionsFrom SelectionItem.kind kind 0 b.items := by
    rw [Indexed.positionsFrom_eq_map, kinds_eq_of_same h, ← Indexed.positionsFrom_eq_map]
  simp [samePositions, indexed, Indexed.ofItems, hpositions]

theorem sameNodes_eq_same (a b : SelectionSet φ σ ι) : a.sameNodes b = a.same b := by
  induction a generalizing b with
  | empty => cases b <;> rfl
  | field node below rest ihBelow ih =>
    cases b with
    | field => rw [sameNodes, same, ihBelow, ih, same_and_samePositions]
    | _ => rfl
  | spread node rest ih =>
    cases b with
    | spread => rw [sameNodes, same, ih]
    | _ => rfl
  | inline node below rest ihBelow ih =>
    cases b with
    | inline => rw [sameNodes, same, ihBelow, ih, same_and_samePositions]
    | _ => rfl

/-- Positions add nothing to the items. -/
theorem sameIndexed_eq_beq (a b : SelectionSet φ σ ι) : a.sameIndexed b = (a == b) := by
  rw [sameIndexed, sameNodes_eq_same, same_and_samePositions]
  rfl

end SelectionSet

end GraphQLIR
