import GraphQLIR.Output.Reading
import GraphQLIR.Proofs.Json.Unordered
/-!
# Reading without member order

The order of members, at any depth of a value, has no part in what is read from it, except for the
order of the maps that are read. Each reader takes values that are equal without order to equal
results or refuses both, and a record is read field by field, each by its name.
-/

namespace GraphQLIR

namespace Json

/-- Values that are equal without order, in which no object has a key twice. -/
structure Alike (x y : Json) : Prop where
  left : x.KeysDistinct
  right : y.KeysDistinct
  equal : x.Equal y

namespace Alike

variable {x y : Json} {xs ys : List Json} {first second : Entries Json}

theorem symm (h : x.Alike y) : y.Alike x :=
  ⟨h.right, h.left, h.equal.symm⟩

theorem beq (h : x.Alike y) : (x == y) = true :=
  (same_iff_equal h.left h.right).2 h.equal

theorem items (h : (arr xs).Alike (.arr ys)) : List.Forall₂ Alike xs ys := by
  obtain ⟨hleft, hright, hequal⟩ := h
  cases hleft with
  | arr hxs =>
    cases hright with
    | arr hys =>
      refine (forall₂_congr_of_mem fun x hx y hy => ?_).1 (equal_arr_iff.1 hequal)
      exact ⟨fun hxy => ⟨hxs x hx, hys y hy, hxy⟩, fun hxy => hxy.equal⟩

theorem nodup (h : (obj first).Alike y) : first.keys.Nodup := by
  cases h.left with
  | obj hnodup _ => exact hnodup

theorem members (h : (obj first).Alike (.obj second)) (key : String) :
    Option.Rel Alike (first.get? key) (second.get? key) := by
  obtain ⟨hleft, hright, hequal⟩ := h
  cases hleft with
  | obj _ hmembers =>
    cases hright with
    | obj _ hothers =>
      refine (rel_congr fun x hx y hy => ?_).1 (equal_obj_iff.1 hequal key)
      have hxkeys := hmembers (key, x) (Entries.mem_of_get?_eq_some hx)
      have hykeys := hothers (key, y) (Entries.mem_of_get?_eq_some hy)
      exact ⟨fun hxy => ⟨hxkeys, hykeys, hxy⟩, fun hxy => hxy.equal⟩

theorem eq_null (h : null.Alike y) : y = null := by
  cases h.equal
  rfl

/-- A lone null member stays alone. -/
theorem eq_singleton {key : String} (h : (obj [(key, null)]).Alike (.obj second)) :
    second = [(key, null)] := by
  have hnull : second.get? key = some null := by
    have hkey := h.members key
    rw [Entries.get?, if_pos rfl] at hkey
    obtain ⟨value, hvalue, hnull⟩ := (rel_iff.1 hkey).1 null rfl
    rw [hvalue, hnull.eq_null]
  have hget (other : String) :
      Entries.get? [(key, null)] other = second.get? other := by
    by_cases hother : key = other
    · rw [← hother, hnull, Entries.get?, if_pos rfl]
    · have hnone := h.members other
      rw [Entries.get?, if_neg hother] at hnone ⊢
      exact ((rel_iff.1 hnone).2 rfl).symm
  have hkeys : second.keys = [key] := by
    refine List.perm_singleton.1 ((List.perm_ext_iff_of_nodup h.symm.nodup (by simp)).2 ?_)
    intro other
    rw [Entries.mem_keys_iff, ← hget, ← Entries.mem_keys_iff]
    rfl
  exact (Entries.ext_of_get? h.nodup hkeys.symm hget).symm

end Alike

/-- The reader takes alike values to related results, or refuses both. -/
def Respects {α : Type} (R : α → α → Prop) (read : Json → Option α) : Prop :=
  ∀ ⦃x y : Json⦄, x.Alike y → Option.Rel R (read x) (read y)

/-- Alike values stand on either side, so what is accepted on the left tells what is refused. -/
theorem Respects.of_accepted {α : Type} {R : α → α → Prop} {read : Json → Option α}
    (h : ∀ x y : Json, x.Alike y → ∀ a, read x = some a → ∃ b, read y = some b ∧ R a b) :
    Respects R read := by
  intro x y hxy
  refine rel_iff.2 ⟨h x y hxy, fun hnone => ?_⟩
  rw [Option.eq_none_iff_forall_ne_some] at hnone ⊢
  intro b hb
  obtain ⟨a, ha, -⟩ := h y x hxy.symm b hb
  exact hnone a ha

theorem Respects.beq {α : Type} [BEq α] [ReflBEq α] {read : Json → Option α}
    (h : Respects Eq read) : Respects (fun a b => (a == b) = true) read := by
  intro x y hxy
  exact rel_imp (fun _ _ _ heq => beq_of_eq heq) (h hxy)

theorem respects_bool? : Respects Eq bool? := by
  intro x y h
  cases h.equal with
  | bool value => exact .some rfl
  | _ => exact .none

theorem respects_string? : Respects Eq string? := by
  intro x y h
  cases h.equal with
  | str value => exact .some rfl
  | _ => exact .none

theorem respects_optionalString? : Respects Eq optionalString? := by
  intro x y h
  cases h.equal with
  | null => exact .some rfl
  | str value => exact .some rfl
  | _ => exact .none

theorem respects_strings? : Respects Eq strings? := by
  intro x y h
  cases h.equal with
  | arr hitems =>
    refine rel_imp (fun values _ others hsame => ?_)
      (rel_mapM h.items fun x y hxy => respects_string? hxy)
    exact List.forall₂_eq_eq_eq ▸ hsame
  | _ => exact .none

theorem respects_object? : Respects (fun a b => (a == b) = true) object? := by
  intro x y h
  cases h.equal with
  | @obj members others _ =>
    refine .some ?_
    change Entries.same (· == ·) (Entries.ofList members) (Entries.ofList others) = true
    rw [Entries.ofList_of_nodup h.nodup, Entries.ofList_of_nodup h.symm.nodup,
      Entries.same_iff_get? h.nodup h.symm.nodup]
    intro key
    exact rel_imp (fun x _ y hxy => hxy.beq) (h.members key)
  | _ => exact .none

end Json

/-! ## Fields -/

namespace Entries

/-- Under every key there are alike values. -/
def Alike (first second : Entries Json) : Prop :=
  ∀ key, Option.Rel Json.Alike (first.get? key) (second.get? key)

variable {α : Type} {R : α → α → Prop} {read : Json → Option α} {first second : Entries Json}

theorem Alike.required? (h : first.Alike second) (hread : Json.Respects R read) (key : String) :
    Option.Rel R (first.required? key read) (second.required? key read) := by
  unfold Entries.required?
  have hkey := h key
  generalize first.get? key = value, second.get? key = other at hkey ⊢
  cases hkey with
  | none => exact .none
  | some hvalue => exact hread hvalue

theorem Alike.withDefault? (h : first.Alike second) (hread : Json.Respects R read) (key : String)
    {default : α} (hdefault : R default default) :
    Option.Rel R (first.withDefault? key default read) (second.withDefault? key default read) := by
  unfold Entries.withDefault?
  have hkey := h key
  generalize first.get? key = value, second.get? key = other at hkey ⊢
  cases hkey with
  | none => exact .some hdefault
  | some hvalue => exact hread hvalue

end Entries

namespace Json

theorem alike_zip (names : List String) {xs ys : List Json} (h : List.Forall₂ Alike xs ys) :
    Entries.Alike (names.zip xs) (names.zip ys) := by
  refine Entries.rel_get?_of_forall₂ ?_
  induction h generalizing names with
  | nil =>
    rw [List.zip_nil_right]
    exact .nil
  | cons hitem _ ih =>
    cases names with
    | nil => exact .nil
    | cons name names => exact .cons ⟨rfl, hitem⟩ (ih names)

theorem Alike.recordFields? {x y : Json} (h : x.Alike y) (names : List String) :
    Option.Rel Entries.Alike (x.recordFields? names) (y.recordFields? names) := by
  cases h.equal with
  | obj _ => exact .some h.members
  | arr _ =>
    have hlength := h.items.length_eq
    simp only [Json.recordFields?, hlength]
    split
    · exact .some (alike_zip names h.items)
    · exact .none
  | _ => exact .none

end Json

/-! ## Records -/

namespace FileLayout

theorem ofJson?_eq_some_iff {json : Json} {layout : FileLayout} :
    ofJson? json = some layout ↔
      ∃ name, (json = .str name ∨ json = .obj [(name, .null)]) ∧ ofName? name = some layout := by
  constructor
  · intro h
    unfold ofJson? at h
    split at h
    · exact ⟨_, Or.inl rfl, h⟩
    · exact ⟨_, Or.inr rfl, h⟩
    · cases h
  · rintro ⟨name, rfl | rfl, h⟩
    · exact h
    · exact h

theorem respects_ofJson? : Json.Respects Eq ofJson? := by
  refine .of_accepted fun x y h layout hlayout => ⟨layout, ?_, rfl⟩
  obtain ⟨name, rfl | rfl, hname⟩ := ofJson?_eq_some_iff.1 hlayout
  · cases h.equal
    exact hname
  · cases h.equal with
    | obj _ => exact ofJson?_eq_some_iff.2 ⟨name, Or.inr (by rw [h.eq_singleton]), hname⟩

end FileLayout

theorem TemplateEntry.respects_ofJson? : Json.Respects Eq ofJson? := by
  intro x y h
  cases h.equal with
  | str template => exact .some rfl
  | arr _ => exact rel_map (Json.respects_strings? h) fun _ _ hsame => congrArg partials hsame
  | _ => exact .none

namespace TemplateSet

/-- The entry has the key of the member and is read from its value. -/
def ReadFrom (member : String × Json) (entry : String × TemplateEntry) : Prop :=
  member.1 = entry.1 ∧ TemplateEntry.ofJson? member.2 = some entry.2

theorem ofJson?_obj_eq_some_iff {members : Entries Json} {set : TemplateSet} :
    ofJson? (.obj members) = some set ↔
      ∃ entries, List.Forall₂ ReadFrom members entries ∧ set = .named (.ofList entries) := by
  have hstep (member : String × Json) (entry : String × TemplateEntry) :
      (TemplateEntry.ofJson? member.2 >>= fun value => some (member.1, value)) = some entry ↔
        ReadFrom member entry := by
    rw [Option.bind_eq_bind, Option.bind_eq_some_iff]
    constructor
    · rintro ⟨value, hvalue, hentry⟩
      cases hentry
      exact ⟨rfl, hvalue⟩
    · rintro ⟨hkey, hvalue⟩
      exact ⟨entry.2, hvalue, by rw [hkey]⟩
  rw [ofJson?, Option.bind_eq_bind, Option.bind_eq_some_iff]
  refine exists_congr fun entries => and_congr ?_ ?_
  · rw [mapM_eq_some_iff]
    exact forall₂_congr_of_mem fun member _ entry _ => hstep member entry
  · exact Option.some_inj.trans eq_comm

section

variable {first second members : Entries Json} {entries others : Entries TemplateEntry}

theorem keys_eq_of_readFrom (h : List.Forall₂ ReadFrom members entries) :
    members.keys = entries.keys :=
  Entries.keys_eq_of_forall₂ (R := fun value entry => TemplateEntry.ofJson? value = some entry) h

theorem get?_of_readFrom (h : List.Forall₂ ReadFrom members entries) (key : String) :
    entries.get? key = (members.get? key).bind TemplateEntry.ofJson? := by
  induction h with
  | nil => rfl
  | cons hmember _ ih =>
    rw [Entries.get?, Entries.get?, ← hmember.1]
    split
    · exact hmember.2.symm
    · exact ih

/-- Where the members on one side are read, so are those on the other. -/
theorem exists_readFrom (h : (Json.obj first).Alike (.obj second))
    (hentries : List.Forall₂ ReadFrom first entries) :
    ∃ others, List.Forall₂ ReadFrom second others := by
  refine exists_forall₂ fun member hmember => ?_
  obtain ⟨value, hvalue, halike⟩ := (rel_iff.1 (h.symm.members member.1)).1 member.2
    (Entries.get?_eq_some_of_mem h.symm.nodup hmember)
  obtain ⟨entry, -, hentry⟩ :=
    exists_mem_of_forall₂_left hentries (Entries.mem_of_get?_eq_some hvalue)
  obtain ⟨other, hother, -⟩ :=
    (rel_iff.1 (TemplateEntry.respects_ofJson? halike.symm)).1 entry.2 hentry.2
  exact ⟨(member.1, other), rfl, hother⟩

/-- Entries read from members under the same keys with alike values are equal without order. -/
theorem beq_of_readFrom (h : (Json.obj first).Alike (.obj second))
    (hentries : List.Forall₂ ReadFrom first entries)
    (hothers : List.Forall₂ ReadFrom second others) :
    (named (.ofList entries) == named (.ofList others)) = true := by
  have hnodup : entries.keys.Nodup := keys_eq_of_readFrom hentries ▸ h.nodup
  have hnodup' : others.keys.Nodup := keys_eq_of_readFrom hothers ▸ h.symm.nodup
  change Entries.same (· == ·) (Entries.ofList entries) (Entries.ofList others) = true
  rw [Entries.ofList_of_nodup hnodup, Entries.ofList_of_nodup hnodup',
    Entries.same_iff_get? hnodup hnodup']
  intro key
  rw [get?_of_readFrom hentries, get?_of_readFrom hothers]
  refine rel_bind (h.members key) fun x y hxy => ?_
  exact TemplateEntry.respects_ofJson?.beq hxy

end

theorem respects_ofJson? : Json.Respects (fun a b => (a == b) = true) ofJson? := by
  refine .of_accepted fun x y h set hset => ?_
  cases h.equal with
  | str path => exact ⟨set, hset, by cases hset; exact beq_self_eq_true path⟩
  | obj _ =>
    obtain ⟨entries, hentries, rfl⟩ := ofJson?_obj_eq_some_iff.1 hset
    obtain ⟨others, hothers⟩ := exists_readFrom h hentries
    exact ⟨.named (.ofList others), ofJson?_obj_eq_some_iff.2 ⟨others, hothers, rfl⟩,
      beq_of_readFrom h hentries hothers⟩
  | _ => cases hset

end TemplateSet

theorem ScalarNames.respects_ofJson? : Json.Respects Eq ofJson? := by
  intro x y h
  refine rel_bind (h.recordFields? _) fun first second hfields => ?_
  refine rel_bind (hfields.required? Json.respects_string? _) fun string _ hstring => ?_
  refine rel_bind (hfields.required? Json.respects_string? _) fun int _ hint => ?_
  refine rel_bind (hfields.required? Json.respects_string? _) fun float _ hfloat => ?_
  refine rel_bind (hfields.required? Json.respects_string? _) fun boolean _ hboolean => ?_
  refine rel_bind (hfields.required? Json.respects_string? _) fun id _ hid => ?_
  exact .some (by rw [hstring, hint, hfloat, hboolean, hid])

theorem RunOptions.respects_ofJson? : Json.Respects Eq ofJson? := by
  intro x y h
  refine rel_bind (h.recordFields? _) fun first second hfields => ?_
  refine rel_bind (hfields.withDefault? Json.respects_bool? _ rfl) fun schema _ hschema => ?_
  refine rel_bind (hfields.withDefault? Json.respects_bool? _ rfl) fun documents _ hdocuments => ?_
  refine rel_bind (hfields.withDefault? Json.respects_bool? _ rfl) fun verbose _ hverbose => ?_
  exact .some (by rw [hschema, hdocuments, hverbose])

theorem OutputFile.respects_ofJson? : Json.Respects Eq ofJson? := by
  intro x y h
  refine rel_bind (h.recordFields? _) fun first second hfields => ?_
  refine rel_bind (hfields.required? Json.respects_string? _) fun name _ hname => ?_
  refine rel_bind (hfields.required? Json.respects_string? _) fun content _ hcontent => ?_
  exact .some (by rw [hname, hcontent])

namespace Configuration

theorem beq_iff {a b : Configuration} :
    (a == b) = true ↔ a.layout = b.layout ∧ a.flattens = b.flattens ∧
      (a.extra == b.extra) = true ∧ (a.templates == b.templates) = true ∧
      a.scalarNames = b.scalarNames ∧ a.outFile = b.outFile ∧
      a.fileExtension = b.fileExtension := by
  have heq : (a == b) = (a.layout == b.layout && (a.flattens == b.flattens &&
      (a.extra == b.extra && (a.templates == b.templates &&
        (a.scalarNames == b.scalarNames && (a.outFile == b.outFile &&
          a.fileExtension == b.fileExtension)))))) := rfl
  rw [heq]
  simp only [Bool.and_eq_true, beq_iff_eq]

theorem respects_ofJson? : Json.Respects (fun a b => (a == b) = true) ofJson? := by
  intro x y h
  refine rel_bind (h.recordFields? _) fun first second hfields => ?_
  refine rel_bind (hfields.required? FileLayout.respects_ofJson? _) fun layout _ hlayout => ?_
  refine rel_bind (hfields.withDefault? Json.respects_bool? _ rfl) fun flattens _ hflattens => ?_
  refine rel_bind (hfields.withDefault? Json.respects_object? _ rfl) fun extra _ hextra => ?_
  refine rel_bind (hfields.required? TemplateSet.respects_ofJson? _) fun set _ hset => ?_
  refine rel_bind (hfields.withDefault? ScalarNames.respects_ofJson? _ rfl)
    fun scalarNames _ hscalarNames => ?_
  refine rel_bind (hfields.withDefault? Json.respects_optionalString? _ rfl)
    fun outFile _ houtFile => ?_
  refine rel_bind (hfields.withDefault? Json.respects_optionalString? _ rfl)
    fun fileExtension _ hfileExtension => ?_
  exact .some (beq_iff.2
    ⟨hlayout, hflattens, hextra, hset, hscalarNames, houtFile, hfileExtension⟩)

end Configuration

end GraphQLIR
