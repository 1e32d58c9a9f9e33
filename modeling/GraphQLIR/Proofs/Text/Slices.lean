import GraphQLIR.Text.Slice
/-!
# Slices and characters

A slice by byte offsets exists just where the text falls into three parts of these lengths, so that
neither offset is inside a character or past the end. The parts are then determined by the offsets.
-/

namespace GraphQLIR.Text

theorem utf8ByteSize_ofList_cons (c : Char) (chars : List Char) :
    (String.ofList (c :: chars)).utf8ByteSize =
      c.utf8Size + (String.ofList chars).utf8ByteSize := by
  rw [String.ofList_cons, String.utf8ByteSize_append, String.utf8ByteSize_singleton]

theorem utf8ByteSize_ofList_eq_zero_iff (chars : List Char) :
    (String.ofList chars).utf8ByteSize = 0 ↔ chars = [] := by
  rw [String.utf8ByteSize_eq_zero_iff, ← String.toList_eq_nil_iff, String.toList_ofList]

/-- A split leaves nothing out, and its first part has the given length. -/
theorem splitBytes?_eq_some_iff {bytes : Nat} {chars front back : List Char} :
    splitBytes? bytes chars = some (front, back) ↔
      chars = front ++ back ∧ (String.ofList front).utf8ByteSize = bytes := by
  fun_induction splitBytes? bytes chars generalizing front with
  | case1 chars =>
    rw [utf8ByteSize_ofList_eq_zero_iff, Option.some.injEq, Prod.mk.injEq]
    constructor
    · rintro ⟨rfl, rfl⟩
      exact ⟨rfl, rfl⟩
    · rintro ⟨rfl, rfl⟩
      exact ⟨rfl, rfl⟩
  | case2 bytes =>
    constructor
    · rintro ⟨⟩
    rintro ⟨hparts, hsize⟩
    rw [(List.append_eq_nil_iff.1 hparts.symm).1] at hsize
    cases hsize
  | case3 bytes c rest hfits ih =>
    rw [Option.map_eq_some_iff]
    constructor
    · rintro ⟨⟨start, later⟩, hrest, hparts⟩
      cases hparts
      obtain ⟨rfl, hsize⟩ := ih.1 hrest
      rw [utf8ByteSize_ofList_cons]
      exact ⟨rfl, by omega⟩
    · rintro ⟨hparts, hsize⟩
      cases front with
      | nil => cases hsize
      | cons first start =>
        rw [utf8ByteSize_ofList_cons] at hsize
        cases hparts
        exact ⟨(start, back), ih.2 ⟨rfl, by omega⟩, rfl⟩
  | case4 bytes c rest hlong =>
    constructor
    · rintro ⟨⟩
    rintro ⟨hparts, hsize⟩
    -- the first character alone is longer than the part that it would begin
    cases front with
    | nil => cases hsize
    | cons first start =>
      rw [utf8ByteSize_ofList_cons] at hsize
      cases hparts
      omega

/-- The text falls into these parts, of which the middle one starts and ends at the offsets. -/
structure CutsAt (text : String) (start stop : Nat) (before inside after : String) : Prop where
  text_eq : text = before ++ inside ++ after
  start_eq : start = before.utf8ByteSize
  stop_eq : stop = (before ++ inside).utf8ByteSize

theorem cutsAt_iff_splitBytes? {text before inside after : String} {start stop : Nat} :
    CutsAt text start stop before inside after ↔
      start ≤ stop ∧
        splitBytes? start text.toList = some (before.toList, inside.toList ++ after.toList) ∧
        splitBytes? (stop - start) (inside.toList ++ after.toList) =
          some (inside.toList, after.toList) := by
  simp only [splitBytes?_eq_some_iff, String.ofList_toList, true_and]
  constructor
  · rintro ⟨htext, hstart, hstop⟩
    rw [String.utf8ByteSize_append] at hstop
    refine ⟨by omega, ⟨?_, hstart.symm⟩, by omega⟩
    rw [htext, String.toList_append, String.toList_append, List.append_assoc]
  · rintro ⟨hle, ⟨htext, hstart⟩, hstop⟩
    refine ⟨?_, hstart.symm, ?_⟩
    · rw [← String.toList_inj, htext, String.toList_append, String.toList_append, List.append_assoc]
    · rw [String.utf8ByteSize_append]
      omega

/-- The offsets determine all parts. -/
theorem CutsAt.unique {text before inside after before' inside' after' : String} {start stop : Nat}
    (h : CutsAt text start stop before inside after)
    (h' : CutsAt text start stop before' inside' after') :
    before = before' ∧ inside = inside' ∧ after = after' := by
  obtain ⟨-, hfront, hback⟩ := cutsAt_iff_splitBytes?.1 h
  obtain ⟨-, hfront', hback'⟩ := cutsAt_iff_splitBytes?.1 h'
  rw [hfront, Option.some.injEq, Prod.mk.injEq] at hfront'
  rw [← hfront'.2, hback, Option.some.injEq, Prod.mk.injEq] at hback'
  exact ⟨String.toList_inj.1 hfront'.1, String.toList_inj.1 hback'.1, String.toList_inj.1 hback'.2⟩

/-- There are such parts just if both offsets are in the text and none is inside a character. -/
theorem exists_cutsAt_iff {text : String} {start stop : Nat} :
    (∃ before inside after, CutsAt text start stop before inside after) ↔
      start ≤ stop ∧ String.Pos.Raw.IsValid text ⟨start⟩ ∧ String.Pos.Raw.IsValid text ⟨stop⟩ := by
  simp only [String.Pos.Raw.isValid_iff_exists_append]
  constructor
  · rintro ⟨before, inside, after, rfl, rfl, rfl⟩
    refine ⟨?_, ⟨before, inside ++ after, String.append_assoc, rfl⟩,
      before ++ inside, after, rfl, rfl⟩
    rw [String.utf8ByteSize_append]
    omega
  · rintro ⟨hle, ⟨before, rest, hstart, hbefore⟩, front, after, hstop, hfront⟩
    have hstartSize : start = before.utf8ByteSize := congrArg String.Pos.Raw.byteIdx hbefore
    have hstopSize : stop = front.utf8ByteSize := congrArg String.Pos.Raw.byteIdx hfront
    have hparts : before.toList ++ rest.toList = front.toList ++ after.toList := by
      rw [← String.toList_append, ← hstart, hstop, String.toList_append]
    rcases List.append_eq_append_iff.1 hparts with ⟨inside, hinside, -⟩ | ⟨excess, hexcess, -⟩
    · have hsplit : front = before ++ String.ofList inside := by
        rw [← String.toList_inj, hinside, String.toList_append, String.toList_ofList]
      exact ⟨before, String.ofList inside, after, hsplit ▸ hstop, hstartSize, hsplit ▸ hstopSize⟩
    · -- the part that ends at the later offset cannot be the shorter one
      have hsplit : before = front ++ String.ofList excess := by
        rw [← String.toList_inj, hexcess, String.toList_append, String.toList_ofList]
      have hempty : String.ofList excess = "" := by
        rw [← String.utf8ByteSize_eq_zero_iff]
        rw [hsplit, String.utf8ByteSize_append] at hstartSize
        omega
      rw [hempty, String.append_empty] at hsplit
      exact ⟨front, "", after, by simpa using hstop, hsplit ▸ hstartSize, by simpa using hstopSize⟩

theorem slice?_eq_some_iff {text inside : String} {start stop : Nat} :
    slice? text start stop = some inside ↔
      ∃ before after, CutsAt text start stop before inside after := by
  rw [slice?, Option.ite_none_right_eq_some]
  simp only [Option.bind_eq_bind, Option.bind_eq_some_iff, Prod.exists]
  constructor
  · rintro ⟨hle, front, rest, hfront, middle, back, hmiddle, hinside⟩
    cases hinside
    obtain ⟨rfl, -⟩ := splitBytes?_eq_some_iff.1 hmiddle
    refine ⟨String.ofList front, String.ofList back, cutsAt_iff_splitBytes?.2 ⟨hle, ?_⟩⟩
    simpa using ⟨hfront, hmiddle⟩
  · rintro ⟨before, after, hcut⟩
    obtain ⟨hle, hfront, hback⟩ := cutsAt_iff_splitBytes?.1 hcut
    exact ⟨hle, _, _, hfront, _, _, hback, by simp⟩

/-- The second character takes the bytes 1 and 2. -/
example : slice? "aéb" 1 3 = some "é" ∧ slice? "aéb" 1 2 = none ∧ slice? "aéb" 3 5 = none := by
  decide

end GraphQLIR.Text
