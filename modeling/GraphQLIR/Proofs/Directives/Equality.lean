import GraphQLIR.Proofs.Directives.Indexing
import GraphQLIR.Proofs.Json.Unordered
/-!
# Equality of applied directives

Applied directives are equal just if the last applications of each directive have equal arguments,
and these just if the last values of each argument have equal forms, whatever the order of members.
So the comparison is an equivalence and does not see how applications of different directives are
ordered.
-/

namespace GraphQLIR

section

variable [NumberReader]

namespace Value

theorem keysDistinct_toJson (value : Value) : value.toJson.KeysDistinct := by
  induction value using inductionOn with
  | null => exact .null
  | boolean value => exact .bool value
  | enum name => exact .str name
  | var name => exact .str ("$" ++ name)
  | string value => exact .str value
  | int literal =>
    rw [toJson]
    obtain ⟨value, h⟩ | h := intToJson_num_or_str literal <;> rw [h]
    · exact .num (.int value)
    · exact .str literal
  | float literal =>
    rw [toJson]
    obtain ⟨number, h⟩ | h := floatToJson_num_or_str literal <;> rw [h]
    · exact .num number
    · exact .str literal
  | list items ih =>
    rw [toJson, itemsToJson_eq_map]
    exact .arr (List.forall_mem_map.2 ih)
  | object fields ih =>
    rw [toJson, fieldsToJson_eq_map]
    refine .obj (Entries.nodup_keys_ofList _) fun member hmember => ?_
    obtain ⟨field, hfield, rfl⟩ := List.mem_map.1 (Entries.mem_of_mem_ofList hmember)
    exact ih field hfield

/-- The forms in JSON are equal, whatever the order of members. -/
def SameForm (first second : Value) : Prop :=
  first.toJson.Equal second.toJson

theorem sameForm_iff (first second : Value) :
    (first.toJson == second.toJson) = true ↔ first.SameForm second :=
  Json.same_iff_equal first.keysDistinct_toJson second.keysDistinct_toJson

end Value

namespace DirectiveApplication

/-- The same arguments are given, and the last values of each have the same form. -/
def SameArguments (first second : DirectiveApplication) : Prop :=
  Entries.SameLast Value.SameForm first.arguments second.arguments

theorem sameArguments_iff (first second : DirectiveApplication) :
    (AppliedDirectives.argumentsOf first == AppliedDirectives.argumentsOf second) = true ↔
      first.SameArguments second :=
  Entries.same_ofList_map_iff Value.sameForm_iff first.arguments second.arguments

namespace SameArguments

variable {first second third : DirectiveApplication}

theorem refl (application : DirectiveApplication) : application.SameArguments application :=
  Entries.SameLast.refl (fun value => Json.Equal.refl value.toJson) application.arguments

theorem symm (h : first.SameArguments second) : second.SameArguments first :=
  Entries.SameLast.symm (fun _ _ => Json.Equal.symm) h

theorem trans (hfirst : first.SameArguments second) (hsecond : second.SameArguments third) :
    first.SameArguments third :=
  Entries.SameLast.trans (fun _ _ _ => Json.Equal.trans) hfirst hsecond

end SameArguments

end DirectiveApplication

namespace AppliedDirectives

open DirectiveApplication (SameArguments)

/-- The same directives are applied, and the last applications of each have the same arguments. -/
def SameApplied (first second : List DirectiveApplication) : Prop :=
  Entries.SameLast SameArguments (byName first) (byName second)

/-- The applications of any one directive are the same ones in the same order. -/
def KeepsOrder (applications rearranged : List DirectiveApplication) : Prop :=
  ∀ name, (applications.filter fun application => application.name = name) =
    rearranged.filter fun application => application.name = name

theorem beq_ofApplications_iff (first second : List DirectiveApplication) :
    (ofApplications first == ofApplications second) = true ↔ SameApplied first second := by
  have hbeq : (ofApplications first == ofApplications second) =
      ((ofApplications first).arguments == (ofApplications second).arguments &&
        (!(ofApplications first).arguments.isEmpty) ==
          !(ofApplications second).arguments.isEmpty) := rfl
  rw [hbeq, Bool.and_eq_true, and_iff_left_of_imp]
  · change Entries.same (· == ·) (ofApplications first).arguments.entries
      (ofApplications second).arguments.entries = true ↔ _
    rw [entries_ofApplications, entries_ofApplications]
    exact Entries.same_ofList_map_iff DirectiveApplication.sameArguments_iff _ _
  · intro h
    rw [OrderedMap.isEmpty_eq_of_beq h, beq_self_eq_true]

theorem KeepsOrder.sameApplied {applications rearranged : List DirectiveApplication}
    (h : KeepsOrder applications rearranged) : SameApplied applications rearranged :=
  Entries.SameLast.of_filter_eq SameArguments.refl fun name => by
    rw [← byName_filter, h name, byName_filter]

namespace SameApplied

variable {first second third : List DirectiveApplication}

theorem refl (applications : List DirectiveApplication) : SameApplied applications applications :=
  Entries.SameLast.refl SameArguments.refl (byName applications)

theorem symm (h : SameApplied first second) : SameApplied second first :=
  Entries.SameLast.symm (fun _ _ => SameArguments.symm) h

theorem trans (hfirst : SameApplied first second) (hsecond : SameApplied second third) :
    SameApplied first third :=
  Entries.SameLast.trans (fun _ _ _ => SameArguments.trans) hfirst hsecond

end SameApplied

variable (first second : List DirectiveApplication)

theorem beq_ofApplications_comm :
    (ofApplications first == ofApplications second) =
      (ofApplications second == ofApplications first) := by
  rw [Bool.eq_iff_iff, beq_ofApplications_iff, beq_ofApplications_iff]
  exact ⟨SameApplied.symm, SameApplied.symm⟩

/-- Only the order within the applications of one directive is seen. -/
theorem beq_ofApplications_congr {first second first' second' : List DirectiveApplication}
    (hfirst : KeepsOrder first first') (hsecond : KeepsOrder second second') :
    (ofApplications first' == ofApplications second') =
      (ofApplications first == ofApplications second) := by
  rw [Bool.eq_iff_iff, beq_ofApplications_iff, beq_ofApplications_iff]
  constructor
  · intro h
    exact (hfirst.sameApplied.trans h).trans hsecond.sameApplied.symm
  · intro h
    exact (hfirst.sameApplied.symm.trans h).trans hsecond.sameApplied

/-- Two lists of applications are compared by the last values that they give, at every level. -/
structure ComparesLastValues : Prop where
  beq_iff : (ofApplications first == ofApplications second) = true ↔ SameApplied first second
  refl : (ofApplications first == ofApplications first) = true
  comm : (ofApplications first == ofApplications second) =
    (ofApplications second == ofApplications first)
  trans : ∀ third, (ofApplications first == ofApplications second) = true →
    (ofApplications second == ofApplications third) = true →
    (ofApplications first == ofApplications third) = true
  rearranged : ∀ first' second', KeepsOrder first first' → KeepsOrder second second' →
    (ofApplications first' == ofApplications second') =
      (ofApplications first == ofApplications second)

theorem comparesLastValues : ComparesLastValues first second where
  beq_iff := beq_ofApplications_iff first second
  refl := (beq_ofApplications_iff first first).2 (SameApplied.refl first)
  comm := beq_ofApplications_comm first second
  trans third hfirst hsecond := by
    rw [beq_ofApplications_iff] at hfirst hsecond ⊢
    exact hfirst.trans hsecond
  rearranged _ _ := beq_ofApplications_congr

/-- The places of directives and of the keys of an object do not matter, nor do earlier arguments. -/
example :
    (ofApplications [⟨"a", [("x", .object [("k", .null), ("l", .boolean true)])]⟩, ⟨"b", []⟩] ==
      ofApplications [⟨"b", [("y", .null)]⟩, ⟨"b", []⟩,
        ⟨"a", [("x", .object [("l", .boolean true), ("k", .null)])]⟩]) = true := by
  rfl

end AppliedDirectives

end

end GraphQLIR
