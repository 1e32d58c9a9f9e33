import GraphQLIR.Proofs.Entries
import GraphQLIR.Proofs.Json.Equality
/-!
# Equality without member order

Values are equal without order if objects have the same keys and equal values under each, at every
depth. This is an equivalence. Where no object has a key twice, it is what the comparison of values
decides by counting members and looking up those of one side.
-/

namespace GraphQLIR

/-! ## Numbers -/

namespace Binary64

theorem beq_iff {x y : Binary64} :
    (x == y) = true ↔ x.ordinal = y.ordinal ∧ (x.negative = y.negative ∨ x.ordinal.val = 0) := by
  change (x.ordinal == y.ordinal && (x.negative == y.negative || x.ordinal.val == 0)) = true ↔ _
  simp only [Bool.and_eq_true, Bool.or_eq_true, beq_iff_eq]

instance : EquivBEq Binary64 where
  rfl := beq_iff.2 ⟨rfl, Or.inl rfl⟩
  symm h := by
    obtain ⟨hordinal, hsign⟩ := beq_iff.1 h
    exact beq_iff.2 ⟨hordinal.symm, hsign.imp Eq.symm fun hzero => hordinal ▸ hzero⟩
  trans hxy hyz := by
    obtain ⟨hxy, hsign⟩ := beq_iff.1 hxy
    obtain ⟨hyz, hsign'⟩ := beq_iff.1 hyz
    refine beq_iff.2 ⟨hxy.trans hyz, ?_⟩
    rcases hsign with hsign | hzero
    · exact hsign'.imp hsign.trans fun hzero => hxy ▸ hzero
    · exact Or.inr hzero

end Binary64

namespace Number

theorem beq_iff {x y : Number} :
    (x == y) = true ↔ (∃ value, x = .int value ∧ y = .int value) ∨
      ∃ a b, x = .double a ∧ y = .double b ∧ (a == b) = true := by
  cases x with
  | int a =>
    cases y with
    | int b =>
      change (a == b) = true ↔ _
      simp [@eq_comm _ b]
    | double b => exact ⟨nofun, by simp⟩
  | double a =>
    cases y with
    | int b => exact ⟨nofun, by simp⟩
    | double b =>
      change (a == b) = true ↔ _
      simp

instance : EquivBEq Number where
  rfl {x} := by
    cases x with
    | int value => exact beq_iff.2 (Or.inl ⟨value, rfl, rfl⟩)
    | double value => exact beq_iff.2 (Or.inr ⟨value, value, rfl, rfl, BEq.refl value⟩)
  symm h := by
    rcases beq_iff.1 h with ⟨value, rfl, rfl⟩ | ⟨a, b, rfl, rfl, hab⟩
    · exact h
    · exact beq_iff.2 (Or.inr ⟨b, a, rfl, rfl, BEq.symm hab⟩)
  trans hxy hyz := by
    rcases beq_iff.1 hxy with ⟨value, rfl, rfl⟩ | ⟨a, b, rfl, rfl, hab⟩
    · exact hyz
    · rcases beq_iff.1 hyz with ⟨value, hb, -⟩ | ⟨b', c, hb, rfl, hbc⟩
      · cases hb
      · cases hb
        exact beq_iff.2 (Or.inr ⟨a, c, rfl, rfl, BEq.trans hab hbc⟩)

end Number

namespace Json

/-- Induction over a value through items and members. -/
@[elab_as_elim]
theorem inductionOn {motive : Json → Prop} (null : motive .null)
    (bool : ∀ value, motive (.bool value)) (num : ∀ value, motive (.num value))
    (str : ∀ value, motive (.str value))
    (arr : ∀ items, (∀ item ∈ items, motive item) → motive (.arr items))
    (obj : ∀ members, (∀ member ∈ members, motive member.2) → motive (.obj members))
    (json : Json) : motive json :=
  @Json.rec motive (fun items => ∀ item ∈ items, motive item)
    (fun members => ∀ member ∈ members, motive member.2) (fun member => motive member.2)
    null bool num str arr obj
    (List.forall_mem_nil _) (fun _ _ hitem hrest => List.forall_mem_cons.2 ⟨hitem, hrest⟩)
    (List.forall_mem_nil _) (fun _ _ hmember hrest => List.forall_mem_cons.2 ⟨hmember, hrest⟩)
    (fun _ _ hvalue => hvalue) json

/-- Equal values, where an object is what is found under its keys. -/
inductive Equal : Json → Json → Prop
  | null : Equal .null .null
  | bool (value : Bool) : Equal (.bool value) (.bool value)
  | num {x y : Number} (hvalue : (x == y) = true) : Equal (.num x) (.num y)
  | str (value : String) : Equal (.str value) (.str value)
  | arr {xs ys : List Json} (hitems : List.Forall₂ Equal xs ys) : Equal (.arr xs) (.arr ys)
  | obj {xs ys : Entries Json}
    (hmembers : ∀ key, Option.Rel Equal (xs.get? key) (ys.get? key)) : Equal (.obj xs) (.obj ys)

section

variable {xs ys : List Json} {first second : Entries Json}

theorem equal_bool_iff {a b : Bool} : (bool a).Equal (.bool b) ↔ a = b :=
  ⟨fun h => by cases h; rfl, fun h => h ▸ .bool a⟩

theorem equal_num_iff {a b : Number} : (num a).Equal (.num b) ↔ (a == b) = true :=
  ⟨fun h => by cases h; assumption, .num⟩

theorem equal_str_iff {a b : String} : (str a).Equal (.str b) ↔ a = b :=
  ⟨fun h => by cases h; rfl, fun h => h ▸ .str a⟩

theorem equal_arr_iff : (arr xs).Equal (.arr ys) ↔ List.Forall₂ Equal xs ys :=
  ⟨fun h => by cases h; assumption, .arr⟩

theorem equal_obj_iff :
    (obj first).Equal (.obj second) ↔ ∀ key, Option.Rel Equal (first.get? key) (second.get? key) :=
  ⟨fun h => by cases h; assumption, .obj⟩

end

namespace Equal

theorem refl (x : Json) : x.Equal x := by
  induction x using inductionOn with
  | null => exact .null
  | bool value => exact .bool value
  | num value => exact .num (BEq.refl value)
  | str value => exact .str value
  | arr items ih => exact .arr (List.forall₂_same.2 ih)
  | obj members ih =>
    refine .obj fun key => ?_
    cases hget : Entries.get? members key with
    | none => exact .none
    | some value => exact .some (ih _ (Entries.mem_of_get?_eq_some hget))

theorem symm {x y : Json} (h : x.Equal y) : y.Equal x := by
  induction x using inductionOn generalizing y with
  | null | bool | str => cases h; exact refl _
  | num value =>
    cases h with
    | num hvalue => exact .num (BEq.symm hvalue)
  | arr items ih =>
    cases h with
    | arr hitems =>
      have hswap : List.Forall₂ (flip Equal) items _ :=
        forall₂_imp_of_mem (fun x hx y => ih x hx) hitems
      exact .arr hswap.flip
  | obj members ih =>
    cases h with
    | obj hmembers =>
      exact .obj fun key => rel_swap <| rel_imp
        (fun x hx y => ih (key, x) (Entries.mem_of_get?_eq_some hx)) (hmembers key)

theorem trans {x y z : Json} (hxy : x.Equal y) (hyz : y.Equal z) : x.Equal z := by
  induction x using inductionOn generalizing y z with
  | null | bool | str =>
    cases hxy
    exact hyz
  | num value =>
    cases hxy with
    | num hvalue =>
      cases hyz with
      | num hother => exact .num (BEq.trans hvalue hother)
  | arr items ih =>
    cases hxy with
    | arr hitems =>
      cases hyz with
      | arr hothers =>
        -- the hypothesis is known of items of the first list only, so it is put into the relation
        have hnext : List.Forall₂ (fun x y => ∀ z, Equal y z → Equal x z) items _ :=
          forall₂_imp_of_mem (fun x hx y hxy z hyz => ih x hx hxy hyz) hitems
        exact .arr (forall₂_trans (fun x y z h => h z) hnext hothers)
  | obj members ih =>
    cases hxy with
    | obj hmembers =>
      cases hyz with
      | obj hothers =>
        refine .obj fun key => ?_
        have hnext : Option.Rel (fun x y => ∀ z, Equal y z → Equal x z)
            (Entries.get? members key) _ :=
          rel_imp (fun x hx y hxy z hyz =>
            ih (key, x) (Entries.mem_of_get?_eq_some hx) hxy hyz) (hmembers key)
        exact rel_trans (fun x y z h => h z) hnext (hothers key)

end Equal

/-- No object at any depth has a key twice. -/
inductive KeysDistinct : Json → Prop
  | null : KeysDistinct .null
  | bool (value : Bool) : KeysDistinct (.bool value)
  | num (value : Number) : KeysDistinct (.num value)
  | str (value : String) : KeysDistinct (.str value)
  | arr {items : List Json} (hitems : ∀ item ∈ items, KeysDistinct item) : KeysDistinct (.arr items)
  | obj {members : Entries Json} (hnodup : members.keys.Nodup)
    (hmembers : ∀ member ∈ members, KeysDistinct member.2) : KeysDistinct (.obj members)

/-- Counting members and looking up those of one side decides equality without order. -/
theorem same_iff_equal {x y : Json} (hx : x.KeysDistinct) (hy : y.KeysDistinct) :
    x.same y = true ↔ x.Equal y := by
  -- the comparison follows the left side, and values of different kinds are equal in neither sense
  induction hx generalizing y with
  | null =>
    cases hy with
    | null => exact iff_of_true rfl .null
    | _ => constructor <;> rintro ⟨⟩
  | bool value =>
    cases hy with
    | bool other => rw [same_bool_iff, equal_bool_iff]
    | _ => constructor <;> rintro ⟨⟩
  | num value =>
    cases hy with
    | num other => exact equal_num_iff.symm
    | _ => constructor <;> rintro ⟨⟩
  | str value =>
    cases hy with
    | str other => rw [same_str_iff, equal_str_iff]
    | _ => constructor <;> rintro ⟨⟩
  | arr hitems ih =>
    cases hy with
    | arr hothers =>
      rw [same_arr, sameItems_iff_forall₂, equal_arr_iff]
      exact forall₂_congr_of_mem fun x hx y hy => ih x hx (hothers y hy)
    | _ => constructor <;> rintro ⟨⟩
  | obj hnodup hmembers ih =>
    cases hy with
    | obj hnodup' hothers =>
      rw [same_obj, Entries.same_iff_get? hnodup hnodup', equal_obj_iff]
      refine forall_congr' fun key => rel_congr fun x hx y hy => ?_
      exact ih (key, x) (Entries.mem_of_get?_eq_some hx)
        (hothers (key, y) (Entries.mem_of_get?_eq_some hy))
    | _ => constructor <;> rintro ⟨⟩

end Json

end GraphQLIR
