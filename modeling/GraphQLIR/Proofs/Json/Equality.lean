import GraphQLIR.Json.Basic
import GraphQLIR.Proofs.Traversal
import Mathlib.Data.List.Nodup
/-!
# Equality of JSON values

Objects with the same distinct keys are equal just if their members are, key by key. With this, the
equality of JSON forms goes down to the equality of what they are made from.
-/

namespace GraphQLIR

theorem beq_iff_forall₂ {α : Type} [BEq α] {xs ys : List α} :
    (xs == ys) = true ↔ List.Forall₂ (fun x y => (x == y) = true) xs ys := by
  induction xs generalizing ys with
  | nil => cases ys <;> simp
  | cons x xs ih => cases ys <;> simp [ih]

namespace Json

/-! ## Values without members -/

theorem same_null_iff (value : Json) : null.same value = true ↔ value = null := by
  cases value with
  | null => exact iff_of_true rfl rfl
  | _ => constructor <;> rintro ⟨⟩

theorem same_null_right_iff (value : Json) : value.same null = true ↔ value = null := by
  cases value with
  | null => exact iff_of_true rfl rfl
  | _ => constructor <;> rintro ⟨⟩

@[simp] theorem same_bool_iff (a b : Bool) : (Json.bool a).same (.bool b) = true ↔ a = b := by
  change (a == b) = true ↔ a = b
  exact beq_iff_eq

@[simp] theorem same_str_iff (a b : String) : (Json.str a).same (.str b) = true ↔ a = b := by
  change (a == b) = true ↔ a = b
  exact beq_iff_eq

@[simp] theorem same_ofOption_str_iff (a b : Option String) :
    (ofOption .str a).same (ofOption .str b) = true ↔ a = b := by
  cases a <;> cases b <;> simp [ofOption, same_null_iff, same_null_right_iff]

/-- An absent value and an explicit null are told apart nowhere else. -/
theorem same_ofOption_id_iff {a b : Option Json} (ha : a ≠ some .null) (hb : b ≠ some .null) :
    (ofOption id a).same (ofOption id b) = true ↔ (a == b) = true := by
  cases a with
  | none =>
    cases b with
    | none => simp [ofOption, same_null_iff]
    | some value => simp_all [ofOption, same_null_iff]
  | some value =>
    cases b with
    | none => simp_all [ofOption, same_null_right_iff]
    | some other => exact Iff.rfl

/-! ## Arrays -/

theorem same_arr (xs ys : List Json) : (arr xs).same (.arr ys) = sameItems xs ys := rfl

theorem sameItems_iff_forall₂ {xs ys : List Json} :
    sameItems xs ys = true ↔ List.Forall₂ (fun x y => x.same y = true) xs ys := by
  induction xs generalizing ys with
  | nil => cases ys <;> simp [sameItems]
  | cons x xs ih => cases ys <;> simp [sameItems, ih]

theorem same_ofList_iff_forall₂ {α β : Type} {encode : α → Json} {encode' : β → Json}
    {xs : List α} {ys : List β} :
    (ofList encode xs).same (ofList encode' ys) = true ↔
      List.Forall₂ (fun x y => (encode x).same (encode' y) = true) xs ys := by
  rw [ofList, ofList, same_arr, sameItems_iff_forall₂, List.forall₂_map_left_iff,
    List.forall₂_map_right_iff]

/-- Lists are told apart by their forms if their items are. -/
theorem same_ofList_iff {α : Type} [BEq α] {encode : α → Json} {xs ys : List α}
    (h : ∀ x ∈ xs, ∀ y ∈ ys, (encode x).same (encode y) = true ↔ (x == y) = true) :
    (ofList encode xs).same (ofList encode ys) = true ↔ (xs == ys) = true := by
  rw [same_ofList_iff_forall₂, beq_iff_forall₂]
  exact forall₂_congr_of_mem h

@[simp] theorem same_ofStrings_iff (xs ys : List String) :
    (ofStrings xs).same (ofStrings ys) = true ↔ xs = ys := by
  have hstr : ∀ x ∈ xs, ∀ y ∈ ys, (Json.str x).same (.str y) = true ↔ (x == y) = true :=
    fun x _ y _ => (same_str_iff x y).trans beq_iff_eq.symm
  exact (same_ofList_iff hstr).trans beq_iff_eq

/-! ## Objects -/

theorem same_obj_eq_and (xs ys : Entries Json) :
    (obj xs).same (.obj ys) = (xs.length == ys.length && sameMembers xs ys) := rfl

/-- The same keys in the same order, with equal values. -/
def Agree (xs ys : Entries Json) : Prop :=
  List.Forall₂ (fun x y => x.1 = y.1 ∧ x.2.same y.2 = true) xs ys

@[simp] theorem agree_nil : Agree [] [] := .nil

@[simp] theorem agree_cons_iff {key : String} {x y : Json} {xs ys : Entries Json} :
    Agree ((key, x) :: xs) ((key, y) :: ys) ↔ x.same y = true ∧ Agree xs ys := by
  simp [Agree]

@[simp] theorem agree_append_iff {xs ys xs' ys' : Entries Json} (h : xs.length = ys.length) :
    Agree (xs ++ xs') (ys ++ ys') ↔ Agree xs ys ∧ Agree xs' ys' := by
  induction xs generalizing ys with
  | nil =>
    rw [List.eq_nil_of_length_eq_zero h.symm]
    simp
  | cons x xs ih =>
    cases ys with
    | nil => cases h
    | cons y ys =>
      unfold Agree at ih ⊢
      rw [List.cons_append, List.cons_append, List.forall₂_cons, List.forall₂_cons,
        ih (Nat.succ.inj h), ← and_assoc]

theorem sameMembers_cons_of_notMem {key : String} {y : Json} {xs ys : Entries Json}
    (h : key ∉ Entries.keys xs) : sameMembers xs ((key, y) :: ys) = sameMembers xs ys := by
  induction xs with
  | nil => rfl
  | cons x xs ih =>
    rw [Entries.keys_cons, List.mem_cons, not_or] at h
    rw [sameMembers, sameMembers, ih h.2, Entries.get?, if_neg h.1]

/-- Equal objects need not list their members in one order, but where they do, they agree. -/
theorem same_obj_iff_agree {names : List String} (hnodup : names.Nodup) {xs ys : Entries Json}
    (hxs : Entries.keys xs = names) (hys : Entries.keys ys = names) :
    (Json.obj xs).same (.obj ys) = true ↔ Agree xs ys := by
  have hlength : xs.length = ys.length := by
    have hkeys := congrArg List.length (hxs.trans hys.symm)
    simpa [Entries.keys] using hkeys
  rw [same_obj_eq_and, hlength, beq_self_eq_true, Bool.true_and]
  clear hlength
  induction names generalizing xs ys with
  | nil =>
    rw [List.map_eq_nil_iff.1 hxs, List.map_eq_nil_iff.1 hys]
    simp [sameMembers]
  | cons name names ih =>
    obtain ⟨⟨key, x⟩, restX, rfl, hkeyX, hrestX⟩ := List.map_eq_cons_iff.1 hxs
    obtain ⟨⟨other, y⟩, restY, rfl, hkeyY, hrestY⟩ := List.map_eq_cons_iff.1 hys
    have hsame : other = key := hkeyY.trans hkeyX.symm
    rw [← hkeyX, List.nodup_cons] at hnodup
    have hnot : key ∉ Entries.keys restX := fun hmem => hnodup.1 (hrestX ▸ hmem)
    rw [hsame, sameMembers, Entries.get?, if_pos rfl, sameMembers_cons_of_notMem hnot,
      Bool.and_eq_true, agree_cons_iff]
    exact and_congr_right fun _ => ih hnodup.2 hrestX hrestY

theorem sameMembers_eq_all (xs ys : Entries Json) :
    sameMembers xs ys = xs.all fun (key, x) =>
      match Entries.get? ys key with
      | some y => x.same y
      | none => false := by
  induction xs with
  | nil => rfl
  | cons x xs ih =>
    rw [sameMembers, List.all_cons]
    exact congrArg (_ && ·) ih

theorem same_of_get? (key : String) {x y : Json} {xs ys : Entries Json}
    (h : (Json.obj xs).same (.obj ys) = true) (hx : Entries.get? xs key = some x)
    (hy : Entries.get? ys key = some y) : x.same y = true := by
  rw [same_obj_eq_and, sameMembers_eq_all, Bool.and_eq_true, List.all_eq_true] at h
  have hfound := h.2 (key, x) (Entries.mem_of_get?_eq_some hx)
  simpa [hy] using hfound

/-- Objects with encoded values are equal as the entries are, in any order. -/
theorem same_obj_map {α : Type} (encode : α → Json) (xs ys : Entries α) :
    (Json.obj (xs.map fun (key, x) => (key, encode x))).same
        (.obj (ys.map fun (key, y) => (key, encode y))) =
      Entries.same (fun x y => (encode x).same (encode y)) xs ys := by
  rw [same_obj_eq_and, sameMembers_eq_all, List.length_map, List.length_map, List.all_map, Entries.same]
  congr 2
  funext ⟨key, x⟩
  simp only [Function.comp_apply, Entries.get?_map]
  cases Entries.get? ys key <;> rfl

theorem same_obj (xs ys : Entries Json) :
    (Json.obj xs).same (.obj ys) = Entries.same same xs ys := by
  have hid (entries : Entries Json) : (entries.map fun (key, x) => (key, id x)) = entries :=
    List.map_id entries
  have hmap := same_obj_map id xs ys
  rw [hid, hid] at hmap
  exact hmap

end Json

end GraphQLIR
