import GraphQLIR.Proofs.Record.Normalization
/-!
# Type expressions and their texts

A type expression can be told from its text if its name has none of the characters that wrappers are
written with. The flags of a classified type are then what is seen at both ends of the text, and its
name is what is left without these characters.
-/

namespace GraphQLIR

namespace TypeExpr

/-- The characters that wrappers are written with. -/
def marks : List Char := ['[', ']', '!']

/-- A name without these characters. -/
def IsPlain (name : String) : Prop :=
  ∀ c ∈ name.toList, c ∉ marks

/-! ## Brackets and exclamation marks -/

def bracketed (text : String) : String :=
  "[" ++ text ++ "]"

/-- The text without the exclamation mark at its end, if it has one there. -/
def withoutBang (text : String) : String :=
  if text.endsWith '!' then String.ofList text.toList.dropLast else text

/-- What is left of a text without all brackets and exclamation marks. -/
def unmarked (text : String) : String :=
  String.ofList (text.toList.filter (· ∉ marks))

theorem bracketed_injective {first second : String} (h : bracketed first = bracketed second) :
    first = second := by
  simpa [bracketed, ← String.toList_inj] using h

theorem append_bang_injective {first second : String} (h : first ++ "!" = second ++ "!") :
    first = second := by
  simpa [← String.toList_inj] using h

theorem startsWith_bracketed (text : String) : (bracketed text).startsWith '[' = true := by
  simp [bracketed, String.startsWith_char_eq_head?]

theorem startsWith_append_bang (text : String) :
    (text ++ "!").startsWith '[' = text.startsWith '[' := by
  rw [String.startsWith_char_eq_head?, String.startsWith_char_eq_head?, String.toList_append]
  cases text.toList <;> rfl

theorem endsWith_bracketed (text : String) : (bracketed text).endsWith '!' = false := by
  rw [bracketed, String.endsWith_char_eq_getLast?, String.toList_append, List.getLast?_append]
  rfl

theorem endsWith_append_bang (text : String) : (text ++ "!").endsWith '!' = true := by
  rw [String.endsWith_char_eq_getLast?, String.toList_append, List.getLast?_append]
  rfl

theorem withoutBang_append_bang (text : String) : withoutBang (text ++ "!") = text := by
  rw [withoutBang, endsWith_append_bang, if_pos rfl]
  simp

theorem withoutBang_of_endsWith_eq_false {text : String} (h : text.endsWith '!' = false) :
    withoutBang text = text := by
  simp [withoutBang, h]

namespace IsPlain

variable {name : String}

theorem startsWith_eq_false (h : IsPlain name) {mark : Char} (hmark : mark ∈ marks) :
    name.startsWith mark = false := by
  rw [String.startsWith_char_eq_head?, beq_eq_false_iff_ne]
  intro hhead
  exact h mark (List.mem_of_head? hhead) hmark

theorem endsWith_eq_false (h : IsPlain name) {mark : Char} (hmark : mark ∈ marks) :
    name.endsWith mark = false := by
  rw [String.endsWith_char_eq_getLast?, beq_eq_false_iff_ne]
  intro hlast
  exact h mark (List.mem_of_getLast? hlast) hmark

theorem ne_bracketed (h : IsPlain name) (text : String) : name ≠ bracketed text := by
  rintro rfl
  have hstart : (bracketed text).startsWith '[' = false := h.startsWith_eq_false (by decide)
  rw [startsWith_bracketed] at hstart
  cases hstart

theorem unmarked_eq (h : IsPlain name) : unmarked name = name := by
  have hall : name.toList.filter (· ∉ marks) = name.toList :=
    List.filter_eq_self.2 fun c hc => decide_eq_true (h c hc)
  rw [unmarked, hall, String.ofList_toList]

end IsPlain

/-! ## Texts of type expressions -/

theorem text_nonNullNamed (name : String) : (nonNullNamed name).text = name ++ "!" := rfl

theorem text_list (item : TypeExpr) : (list item).text = bracketed item.text := rfl

theorem text_nonNullList (item : TypeExpr) :
    (nonNullList item).text = bracketed item.text ++ "!" := by
  simp [text, bracketed, String.append_assoc]

theorem unmarked_append (text more : String) :
    unmarked (text ++ more) = unmarked text ++ unmarked more := by
  simp [unmarked]

theorem unmarked_bracketed (text : String) : unmarked (bracketed text) = unmarked text := by
  rw [bracketed, unmarked_append, unmarked_append]
  simp [unmarked, marks]

theorem unmarked_append_bang (text : String) : unmarked (text ++ "!") = unmarked text := by
  rw [unmarked_append]
  simp [unmarked, marks]

section

variable {type : TypeExpr} (hplain : IsPlain type.innermost)

include hplain

theorem startsWith_text : type.text.startsWith '[' = type.isList := by
  cases type with
  | named name => exact hplain.startsWith_eq_false (by decide)
  | nonNullNamed name =>
    exact (startsWith_append_bang name).trans (hplain.startsWith_eq_false (by decide))
  | list item => exact startsWith_bracketed item.text
  | nonNullList item =>
    rw [text_nonNullList, startsWith_append_bang]
    exact startsWith_bracketed item.text

theorem endsWith_text : type.text.endsWith '!' = type.isNonNull := by
  cases type with
  | named name => exact hplain.endsWith_eq_false (by decide)
  | nonNullNamed name => exact endsWith_append_bang name
  | list item => exact endsWith_bracketed item.text
  | nonNullList item =>
    rw [text_nonNullList]
    exact endsWith_append_bang (bracketed item.text)

theorem unmarked_text : unmarked type.text = type.innermost := by
  induction type with
  | named name => exact hplain.unmarked_eq
  | nonNullNamed name => exact (unmarked_append_bang name).trans hplain.unmarked_eq
  | list item ih => rw [text_list, unmarked_bracketed, innermost, ih hplain]
  | nonNullList item ih =>
    rw [text_nonNullList, unmarked_append_bang, unmarked_bracketed, innermost, ih hplain]

/-- A text without its final exclamation mark is in brackets just if it is that of a list, and then
the text of the items is in the brackets. -/
theorem withoutBang_text_eq_bracketed_iff (item : String) :
    withoutBang type.text = bracketed item ↔
      ∃ inner, (type = list inner ∨ type = nonNullList inner) ∧ item = inner.text := by
  cases type with
  | named name =>
    have hname : IsPlain name := hplain
    have hbang : withoutBang name = name :=
      withoutBang_of_endsWith_eq_false (hname.endsWith_eq_false (by decide))
    simpa [text, hbang] using hname.ne_bracketed item
  | nonNullNamed name =>
    have hname : name ≠ bracketed item := hplain.ne_bracketed item
    simpa [text_nonNullNamed, withoutBang_append_bang] using hname
  | list inner =>
    rw [text_list, withoutBang_of_endsWith_eq_false (endsWith_bracketed inner.text)]
    simp only [list.injEq, reduceCtorEq, or_false, exists_eq_left']
    exact ⟨fun h => (bracketed_injective h).symm, fun h => h ▸ rfl⟩
  | nonNullList inner =>
    rw [text_nonNullList, withoutBang_append_bang]
    simp only [nonNullList.injEq, reduceCtorEq, false_or, exists_eq_left']
    exact ⟨fun h => (bracketed_injective h).symm, fun h => h ▸ rfl⟩

omit hplain in
theorem hasNullableItems_eq_true_iff :
    type.hasNullableItems = true ↔
      ∃ inner, (type = list inner ∨ type = nonNullList inner) ∧ inner.isNonNull = false := by
  cases type <;> simp [hasNullableItems]

theorem hasNullableItems_iff_text :
    type.hasNullableItems = true ↔
      ∃ item, withoutBang type.text = bracketed item ∧ item.endsWith '!' = false := by
  have hinner (inner : TypeExpr) (hlist : type = list inner ∨ type = nonNullList inner) :
      inner.text.endsWith '!' = inner.isNonNull := by
    have hname : inner.innermost = type.innermost := by
      rcases hlist with rfl | rfl <;> rfl
    exact endsWith_text (hname ▸ hplain)
  simp only [hasNullableItems_eq_true_iff, withoutBang_text_eq_bracketed_iff hplain]
  constructor
  · rintro ⟨inner, hlist, hnull⟩
    exact ⟨inner.text, ⟨inner, hlist, rfl⟩, (hinner inner hlist).trans hnull⟩
  · rintro ⟨_, ⟨inner, hlist, rfl⟩, hend⟩
    exact ⟨inner, hlist, (hinner inner hlist).symm.trans hend⟩

end

section

variable {first second : TypeExpr} (hfirst : IsPlain first.innermost)
  (hsecond : IsPlain second.innermost) (h : first.text = second.text)

include hfirst hsecond h

theorem wrapper_eq_of_text_eq :
    first.isList = second.isList ∧ first.isNonNull = second.isNonNull := by
  rw [← startsWith_text hfirst, ← endsWith_text hfirst, h, startsWith_text hsecond,
    endsWith_text hsecond]
  exact ⟨rfl, rfl⟩

/-- Each text is that of one type expression only. -/
theorem eq_of_text_eq : first = second := by
  -- the outermost wrapper is the same on both sides, and what is in it has the same text
  induction first generalizing second with
  | named name =>
    obtain ⟨hlist, hnonNull⟩ := wrapper_eq_of_text_eq hfirst hsecond h
    cases second with
    | named other => exact congrArg named h
    | nonNullNamed | list | nonNullList => contradiction
  | nonNullNamed name =>
    obtain ⟨hlist, hnonNull⟩ := wrapper_eq_of_text_eq hfirst hsecond h
    cases second with
    | nonNullNamed other => exact congrArg nonNullNamed (append_bang_injective h)
    | named | list | nonNullList => contradiction
  | list item ih =>
    obtain ⟨hlist, hnonNull⟩ := wrapper_eq_of_text_eq hfirst hsecond h
    cases second with
    | list other => exact congrArg list (ih hfirst hsecond (bracketed_injective h))
    | named | nonNullNamed | nonNullList => contradiction
  | nonNullList item ih =>
    obtain ⟨hlist, hnonNull⟩ := wrapper_eq_of_text_eq hfirst hsecond h
    cases second with
    | nonNullList other =>
      rw [text_nonNullList, text_nonNullList] at h
      have hitem : item.text = other.text := bracketed_injective (append_bang_injective h)
      exact congrArg nonNullList (ih hfirst hsecond hitem)
    | named | nonNullNamed | list => contradiction

end

end TypeExpr

/-! ## Classified types -/

open TypeExpr (IsPlain bracketed unmarked withoutBang)

/-- The flags and the name are what the text shows. -/
structure TypeRef.ShownByText (classified : TypeRef) : Prop where
  isRequired_eq : classified.isRequired = classified.raw.endsWith '!'
  isArray_eq : classified.isArray = classified.raw.startsWith '['
  isNullableArray_iff : classified.isNullableArray = true ↔
    ∃ item, withoutBang classified.raw = bracketed item ∧ item.endsWith '!' = false
  name_eq : classified.name = unmarked classified.raw

namespace Catalog

theorem shownByText_of_classify_eq_ok {catalog : Catalog} {type : TypeExpr} {classified : TypeRef}
    (hplain : IsPlain type.innermost) (h : catalog.classify type = .ok classified) :
    classified.ShownByText := by
  obtain ⟨kind, -, hclassified⟩ := bind_eq_ok_iff.1 h
  rw [← Except.ok.inj hclassified]
  exact ⟨(TypeExpr.endsWith_text hplain).symm, (TypeExpr.startsWith_text hplain).symm,
    TypeExpr.hasNullableItems_iff_text hplain, (TypeExpr.unmarked_text hplain).symm⟩

variable (catalog : Catalog) (type : TypeExpr)

/-- A type expression is accepted just if its innermost type is declared, and is then told from
all others by its text, which shows all of the flags. -/
structure ClassifiesByText : Prop where
  accepted_iff : (∃ classified, catalog.classify type = .ok classified) ↔
    type.innermost ∈ catalog.keys
  refused_iff : ∀ fault, catalog.classify type = .error fault ↔
    type.innermost ∉ catalog.keys ∧ fault = .undeclaredType type.innermost
  raw_eq : ∀ classified, catalog.classify type = .ok classified → classified.raw = type.text
  unique : ∀ other, IsPlain other.innermost → ∀ classified reclassified,
    catalog.classify type = .ok classified → catalog.classify other = .ok reclassified →
    classified.raw = reclassified.raw → type = other
  shown : ∀ classified, catalog.classify type = .ok classified → classified.ShownByText

theorem classifiesByText (hplain : IsPlain type.innermost) : ClassifiesByText catalog type where
  accepted_iff := exists_classify_eq_ok_iff catalog type
  refused_iff := classify_eq_error_iff catalog type
  raw_eq classified h := (classify_eq_ok h).2
  unique other hother classified reclassified h hre hraw := by
    rw [(classify_eq_ok h).2, (classify_eq_ok hre).2] at hraw
    exact TypeExpr.eq_of_text_eq hplain hother hraw
  shown classified h := shownByText_of_classify_eq_ok hplain h

/-- A list of lists whose inner items cannot be null, while the inner lists can. -/
theorem classifiesByText_nestedList :
    IsPlain "Int" ∧
      ∃ classified, Catalog.classify (.ofList [("Int", .scalar)])
          (.nonNullList (.list (.nonNullNamed "Int"))) = .ok classified ∧
        classified.raw = "[[Int!]]!" ∧ classified.isNullableArray = true ∧
        ∃ item, withoutBang classified.raw = bracketed item ∧ item.endsWith '!' = false := by
  have hplain : IsPlain "Int" := by simp [IsPlain, TypeExpr.marks]
  refine ⟨hplain, _, rfl, rfl, rfl, ?_⟩
  have hshown := (classifiesByText (.ofList [("Int", .scalar)])
    (.nonNullList (.list (.nonNullNamed "Int"))) hplain).shown _ rfl
  exact hshown.isNullableArray_iff.1 rfl

end Catalog

end GraphQLIR
