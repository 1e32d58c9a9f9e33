import GraphQLIR.AppliedDirectives
import GraphQLIR.Proofs.Value.Conversion
import Mathlib.Data.Finset.Card
/-!
# Indexing of applied directives

Three maps are built in the same way: that of directives, that of the arguments of one application,
and that of the fields of an object at any depth of an argument. In each a name stays where it comes
first and has what comes with it last.
-/

namespace GraphQLIR

namespace DirectiveApplication

variable [NumberReader]

/-- The arguments in JSON form: each name once, where it comes first and with its last value. -/
def Gives (application : DirectiveApplication) (arguments : OrderedMap Json) : Prop :=
  Entries.Indexes Value.ConvertsTo application.arguments arguments.entries

theorem gives_argumentsOf (application : DirectiveApplication) :
    application.Gives (AppliedDirectives.argumentsOf application) :=
  Entries.indexes_ofList_map fun argument _ => argument.2.convertsTo_toJson

theorem Gives.unique {application : DirectiveApplication} {first second : OrderedMap Json}
    (hfirst : application.Gives first) (hsecond : application.Gives second) : first = second :=
  OrderedMap.ext_entries <| Entries.Indexes.unique
    (fun _ _ _ _ _ hx hy => hx.unique hy) hfirst hsecond

end DirectiveApplication

namespace AppliedDirectives

/-- Applications under the names of their directives. -/
def byName (applications : List DirectiveApplication) : List (String × DirectiveApplication) :=
  applications.map fun application => (application.name, application)

@[simp] theorem keys_byName (applications : List DirectiveApplication) :
    Entries.keys (byName applications) = applications.map (·.name) := by
  simp [Entries.keys, byName]

theorem byName_filter (applications : List DirectiveApplication) (name : String) :
    byName (applications.filter fun application => application.name = name) =
      (byName applications).filter fun pair => pair.1 = name := by
  rw [byName, byName, List.filter_map]
  rfl

variable [NumberReader]

theorem entries_ofApplications (applications : List DirectiveApplication) :
    (ofApplications applications).arguments.entries =
      Entries.ofList ((byName applications).map fun pair => (pair.1, argumentsOf pair.2)) := by
  rw [byName, List.map_map]
  rfl

/-- The directives in the order of their first applications, each with the arguments that its last
application gives, and whether there are any. -/
structure Indexes (applications : List DirectiveApplication) (applied : AppliedDirectives) :
    Prop where
  arguments :
    Entries.Indexes DirectiveApplication.Gives (byName applications) applied.arguments.entries
  usesDirectives_eq : applied.usesDirectives = !applications.isEmpty

variable (applications : List DirectiveApplication)

theorem indexes_entries_ofApplications :
    Entries.Indexes DirectiveApplication.Gives (byName applications)
      (ofApplications applications).arguments.entries := by
  rw [entries_ofApplications]
  exact Entries.indexes_ofList_map fun pair _ => pair.2.gives_argumentsOf

theorem names_ofApplications :
    (ofApplications applications).names = (applications.map (·.name)).eraseDups := by
  have hkeys := (indexes_entries_ofApplications applications).keys_eq
  rwa [keys_byName] at hkeys

theorem isEmpty_ofApplications : (ofApplications applications).isEmpty = applications.isEmpty := by
  have hnames : (ofApplications applications).names = [] ↔ applications = [] := by
    rw [names_ofApplications]
    cases applications with
    | nil => simp
    | cons application rest => simp [List.eraseDups_cons]
  rw [Bool.eq_iff_iff, List.isEmpty_iff, ← hnames, names, OrderedMap.keys, Entries.keys,
    List.map_eq_nil_iff, isEmpty, OrderedMap.isEmpty, List.isEmpty_iff]

theorem indexes_ofApplications : Indexes applications (ofApplications applications) where
  arguments := indexes_entries_ofApplications applications
  usesDirectives_eq := by
    rw [← isEmpty_ofApplications]
    rfl

theorem ofApplications_eq_iff (applied : AppliedDirectives) :
    ofApplications applications = applied ↔ Indexes applications applied := by
  constructor
  · rintro rfl
    exact indexes_ofApplications applications
  · intro h
    have hentries := Entries.Indexes.unique (fun _ _ _ _ _ hx hy => hx.unique hy)
      (indexes_entries_ofApplications applications) h.arguments
    have hflag := (indexes_ofApplications applications).usesDirectives_eq
    cases applied
    exact AppliedDirectives.mk.injEq .. ▸
      ⟨OrderedMap.ext_entries hentries, hflag.trans h.usesDirectives_eq.symm⟩

theorem get?_ofApplications_eq_some_iff (name : String) (arguments : OrderedMap Json) :
    (ofApplications applications).get? name = some arguments ↔
      ∃ application, Entries.LastOf (byName applications) name application ∧
        application.Gives arguments := by
  have hindexes := indexes_entries_ofApplications applications
  constructor
  · intro hget
    have hname : name ∈ Entries.keys (byName applications) :=
      hindexes.exists_get?_iff.1 ⟨arguments, hget⟩
    obtain ⟨application, hlast⟩ := Entries.exists_lastOf_iff.2 hname
    exact ⟨application, hlast, hindexes.value name application arguments hlast hget⟩
  · rintro ⟨application, hlast, hgives⟩
    -- something is found, and only these arguments are given by the application
    obtain ⟨found, hfound⟩ := hindexes.exists_get?_iff.2 hlast.mem_keys
    have hsame : found = arguments :=
      (hindexes.value name application found hlast hfound).unique hgives
    exact hfound.trans (congrArg some hsame)

theorem get?_ofApplications_eq_none_iff (name : String) :
    (ofApplications applications).get? name = none ↔ name ∉ applications.map (·.name) := by
  have hnone := Entries.get?_eq_none_iff (ofApplications applications).arguments.entries name
  rwa [(indexes_entries_ofApplications applications).keys_eq, List.mem_eraseDups, keys_byName] at hnone

theorem has_ofApplications_iff (name : String) :
    (ofApplications applications).has name = true ↔ name ∈ applications.map (·.name) := by
  have hnone := get?_ofApplications_eq_none_iff applications name
  rw [has, OrderedMap.contains, Option.isSome_iff_ne_none]
  exact not_iff_comm.1 hnone.symm

theorem size_ofApplications :
    (ofApplications applications).size = (applications.map (·.name)).toFinset.card := by
  have hnodup : (ofApplications applications).names.Nodup :=
    (ofApplications applications).arguments.nodup
  calc
    _ = (ofApplications applications).names.length := (List.length_map Prod.fst).symm
    _ = (ofApplications applications).names.toFinset.card :=
      (List.toFinset_card_of_nodup hnodup).symm
    _ = _ := by
      rw [names_ofApplications]
      congr 1
      ext name
      simp

/-- Every level of the index keeps the first place and the last value of a name. -/
structure KeepsFirstPlaceAndLastValue : Prop where
  /-- Nothing else has the names in this order and these values at all levels. -/
  eq_iff : ∀ applied, ofApplications applications = applied ↔ Indexes applications applied
  names_eq : (ofApplications applications).names = (applications.map (·.name)).eraseDups
  /-- The arguments are those of one application, the last one of this directive. -/
  get?_eq_some_iff : ∀ name arguments,
    (ofApplications applications).get? name = some arguments ↔
      ∃ application, Entries.LastOf (byName applications) name application ∧
        application.Gives arguments
  get?_eq_none_iff : ∀ name,
    (ofApplications applications).get? name = none ↔ name ∉ applications.map (·.name)
  has_iff : ∀ name,
    (ofApplications applications).has name = true ↔ name ∈ applications.map (·.name)
  size_eq : (ofApplications applications).size = (applications.map (·.name)).toFinset.card

theorem keepsFirstPlaceAndLastValue : KeepsFirstPlaceAndLastValue applications where
  eq_iff := ofApplications_eq_iff applications
  names_eq := names_ofApplications applications
  get?_eq_some_iff := get?_ofApplications_eq_some_iff applications
  get?_eq_none_iff := get?_ofApplications_eq_none_iff applications
  has_iff := has_ofApplications_iff applications
  size_eq := size_ofApplications applications

/-- The directive, its argument and the key of the object are all given twice. -/
example :
    (ofApplications
      [⟨"a", [("z", .null)]⟩, ⟨"b", []⟩,
        ⟨"a", [("x", .null), ("y", .null),
          ("x", .list [.object [("k", .null), ("l", .null), ("k", .string "v")]])]⟩]).members =
      [("directives", .obj
          [("a", .obj [("x", .arr [.obj [("k", .str "v"), ("l", .null)]]), ("y", .null)]),
            ("b", .obj [])]),
        ("usesDirectives", .bool true)] := by
  rfl

end AppliedDirectives

end GraphQLIR
