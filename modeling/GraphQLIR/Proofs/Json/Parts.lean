import GraphQLIR.AppliedDirectives
import GraphQLIR.Catalog
import GraphQLIR.Proofs.Json.Equality
/-!
# Equality of shared parts

Types and applied directives give their members to the objects of what has them. These members
tell types apart, and applied directives up to order.
-/

namespace GraphQLIR

open Json

/-! ## Types -/

-- Lengths are side conditions of `agree_append_iff`, which simp does not meet by equations that
-- hold by `rfl`.
@[simp] theorem TypeKind.length_flags (kind : TypeKind) : kind.flags.length = 6 := by
  simp [flags]

@[simp] theorem TypeKind.agree_flags_iff (a b : TypeKind) : Agree a.flags b.flags ↔ a = b := by
  simp only [flags, agree_cons_iff, same_bool_iff, agree_nil, and_true]
  cases a <;> cases b <;> decide

namespace TypeRef

@[simp] theorem length_members (type : TypeRef) : type.members.length = 11 := by
  simp [members]

@[simp] theorem agree_members_iff (a b : TypeRef) : Agree a.members b.members ↔ a = b := by
  cases a
  cases b
  simp [members]

theorem same_toJson_iff (a b : TypeRef) : a.toJson.same b.toJson = true ↔ a = b := by
  have hnodup : keys.Nodup := by decide
  rw [toJson, toJson, same_obj_iff_agree hnodup rfl rfl, agree_members_iff]

end TypeRef

/-! ## Directives -/

namespace AppliedDirectives

@[simp] theorem agree_members_iff (a b : AppliedDirectives) :
    Agree a.members b.members ↔ (a == b) = true := by
  have harguments : Entries.same
      (fun x y : OrderedMap Json => (Json.obj x.entries).same (.obj y.entries))
      a.arguments.entries b.arguments.entries = (a.arguments == b.arguments) := by
    simp only [same_obj]
    rfl
  have hbeq : (a == b) = (a.arguments == b.arguments && a.usesDirectives == b.usesDirectives) := rfl
  rw [members, members, agree_cons_iff, agree_cons_iff,
    same_obj_map fun arguments : OrderedMap Json => .obj arguments.entries, harguments, hbeq,
    same_bool_iff]
  simp

end AppliedDirectives

end GraphQLIR
