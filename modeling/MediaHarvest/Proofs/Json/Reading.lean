import MediaHarvest.Proofs.Json.Scalars

/-!
# Reading back values

The compact text of a value is read as the tree of that value, with every list and object closed
and none too deep, whatever may follow.  `Value.Fits` holds the two bounds that this needs: on the
nesting and on the numbers.  The count of steps that `read` computes is twice the length of the
text, and every level and every item uses up at least one byte for two steps.
-/

namespace MediaHarvest.Json

open MediaHarvest.Text

mutual

/-- The tree of a value. -/
def Value.tree : Value → Tree
  | .null => .null
  | .bool value => .bool value
  | .number value => .number (some (.integer value))
  | .text value => .text (some value)
  | .list items => .list false (itemTrees items) .closed
  | .record members => .record false (memberTrees members) .closed

/-- The trees of items. -/
def itemTrees : List Value → List Tree
  | [] => []
  | item :: rest => item.tree :: itemTrees rest

/-- The trees of members. -/
def memberTrees : List (String × Value) → List (Option String × Tree)
  | [] => []
  | (name, value) :: rest => (some name, value.tree) :: memberTrees rest

end

theorem memberTrees_eq_map (members : List (String × Value)) :
    memberTrees members = members.map fun member => (some member.1, member.2.tree) := by
  induction members with
  | nil => rfl
  | cons member members ih =>
      obtain ⟨name, value⟩ := member
      rw [memberTrees, ih, List.map_cons]

mutual

/-- There is room for as many lists and objects as are nested, and numbers are within 64 bits. -/
def Value.Fits : Nat → Value → Prop
  | _, .number value => -2 ^ 63 ≤ value ∧ value < 2 ^ 64
  | room, .list items => room ≠ 0 ∧ ItemsFit (room - 1) items
  | room, .record members => room ≠ 0 ∧ MembersFit (room - 1) members
  | _, _ => True

/-- Every item fits. -/
def ItemsFit : Nat → List Value → Prop
  | _, [] => True
  | room, item :: rest => item.Fits room ∧ ItemsFit room rest

/-- The value of every member fits. -/
def MembersFit : Nat → List (String × Value) → Prop
  | _, [] => True
  | room, (_, value) :: rest => value.Fits room ∧ MembersFit room rest

end

theorem itemsFit_iff {room : Nat} {items : List Value} :
    ItemsFit room items ↔ ∀ item ∈ items, item.Fits room := by
  induction items with
  | nil => simp [ItemsFit]
  | cons item items ih => simp [ItemsFit, ih]

theorem membersFit_iff {room : Nat} {members : List (String × Value)} :
    MembersFit room members ↔ ∀ member ∈ members, member.2.Fits room := by
  induction members with
  | nil => simp [MembersFit]
  | cons member members ih =>
      obtain ⟨name, value⟩ := member
      simp [MembersFit, ih]

/-- The first byte of a value is neither a blank nor a closing bracket. -/
theorem encode_chars_eq_cons (value : Value) :
    ∃ first more, encode value.chars = first :: more ∧ isSpace first = false ∧
      first ≠ byte ']' := by
  cases value with
  | null => exact ⟨byte 'n', _, rfl, by decide, by decide⟩
  | bool value =>
      cases value
      · exact ⟨byte 'f', _, rfl, by decide, by decide⟩
      · exact ⟨byte 't', _, rfl, by decide, by decide⟩
  | number value =>
      obtain ⟨first, more, found, digit | minus⟩ := encode_toString_eq_cons value
      · refine ⟨first, more, found, not_isSpace_of_isDigit digit, ?_⟩
        rintro rfl
        cases digit
      · subst minus
        exact ⟨byte '-', more, found, by decide, by decide⟩
  | text value =>
      exact ⟨byte '"', _, by rw [Value.chars, quote, encode_cons_of_lt (by decide)]; rfl,
        by decide, by decide⟩
  | list items =>
      cases items with
      | nil => exact ⟨byte '[', _, rfl, by decide, by decide⟩
      | cons item items =>
          exact ⟨byte '[', _, by rw [Value.chars, encode_cons_of_lt (by decide)]; rfl,
            by decide, by decide⟩
  | record members =>
      cases members with
      | nil => exact ⟨byte '\x7b', _, rfl, by decide, by decide⟩
      | cons member members =>
          obtain ⟨name, value⟩ := member
          exact ⟨byte '\x7b', _, by rw [Value.chars, encode_cons_of_lt (by decide)]; rfl,
            by decide, by decide⟩

theorem skipSpace_cons {b : UInt8} (solid : isSpace b = false) (rest : Bytes) :
    skipSpace (b :: rest) = b :: rest := by
  rw [skipSpace, List.dropWhile_cons_of_neg (by simp [solid])]

/-- A value that is neither a list nor an object is read as such. -/
theorem readValue_scalar {value : Value} {fuel depth : Nat} {rest : Bytes}
    (start : ∀ b ∈ (encode value.chars).head?, b ≠ byte '[' ∧ b ≠ byte '\x7b')
    (scalar : readScalar (encode value.chars ++ rest) = (value.tree, some rest)) :
    readValue (fuel + 1) depth (encode value.chars ++ rest) = (value.tree, some rest) := by
  obtain ⟨first, more, found, solid, _⟩ := encode_chars_eq_cons value
  rw [found] at start scalar ⊢
  obtain ⟨noList, noRecord⟩ := start first rfl
  rw [readValue.eq_def]
  dsimp only [List.cons_append]
  rw [skipSpace_cons solid]
  dsimp only
  rw [if_neg noList, if_neg noRecord]
  exact scalar

/-- A list that is not too deep is read as its items. -/
theorem readValue_list {fuel depth : Nat} (shallow : depth + 1 < depthLimit) {bytes rest : Bytes}
    {items : List Tree}
    (read : readItems fuel (depth + 1) true bytes = (items, .closed, some rest)) :
    readValue (fuel + 1) depth (byte '[' :: bytes) = (.list false items .closed, some rest) := by
  have deep : decide (depthLimit ≤ depth + 1) = false := decide_eq_false (Nat.not_le.2 shallow)
  rw [readValue.eq_def]
  dsimp only
  rw [skipSpace_cons (by decide)]
  dsimp only
  rw [if_pos rfl, read, deep]

/-- An object that is not too deep is read as its members. -/
theorem readValue_record {fuel depth : Nat} (shallow : depth + 1 < depthLimit) {bytes rest : Bytes}
    {members : List (Option String × Tree)}
    (read : readMembers fuel (depth + 1) true bytes = (members, .closed, some rest)) :
    readValue (fuel + 1) depth (byte '\x7b' :: bytes) =
      (.record false members .closed, some rest) := by
  have deep : decide (depthLimit ≤ depth + 1) = false := decide_eq_false (Nat.not_le.2 shallow)
  have bracket : byte '\x7b' ≠ byte '[' := by decide
  rw [readValue.eq_def]
  dsimp only
  rw [skipSpace_cons (by decide)]
  dsimp only
  rw [if_neg bracket, if_pos rfl, read, deep]

/-- Nothing but the closing bracket. -/
theorem readItems_closed {fuel depth : Nat} {first : Bool} (rest : Bytes) :
    readItems (fuel + 1) depth first (byte ']' :: rest) = ([], .closed, some rest) := by
  rw [readItems.eq_def]
  dsimp only
  rw [skipSpace_cons (by decide)]
  dsimp only
  rw [if_pos rfl]

/-- Nothing but the closing brace. -/
theorem readMembers_closed {fuel depth : Nat} {first : Bool} (rest : Bytes) :
    readMembers (fuel + 1) depth first (byte '\x7d' :: rest) = ([], .closed, some rest) := by
  rw [readMembers.eq_def]
  dsimp only
  rw [skipSpace_cons (by decide)]
  dsimp only
  rw [if_pos rfl]

/-- An item is read in front of those that follow it. -/
theorem readItems_first {fuel depth : Nat} {value : Value} {following rest : Bytes}
    {items : List Tree}
    (item : readValue fuel depth (encode value.chars ++ following) = (value.tree, some following))
    (others : readItems fuel depth false following = (items, .closed, some rest)) :
    readItems (fuel + 1) depth true (encode value.chars ++ following) =
      (value.tree :: items, .closed, some rest) := by
  obtain ⟨first, more, found, solid, bracket⟩ := encode_chars_eq_cons value
  rw [found, List.cons_append] at item ⊢
  rw [readItems.eq_def]
  dsimp only
  rw [skipSpace_cons solid]
  dsimp only
  rw [if_neg bracket, if_pos rfl, item]
  dsimp only
  rw [others]

/-- An item behind a comma is read in front of those that follow it. -/
theorem readItems_comma {fuel depth : Nat} {value : Value} {following rest : Bytes}
    {items : List Tree}
    (item : readValue fuel depth (encode value.chars ++ following) = (value.tree, some following))
    (others : readItems fuel depth false following = (items, .closed, some rest)) :
    readItems (fuel + 1) depth false (byte ',' :: (encode value.chars ++ following)) =
      (value.tree :: items, .closed, some rest) := by
  obtain ⟨first, more, found, solid, bracket⟩ := encode_chars_eq_cons value
  rw [found, List.cons_append] at item ⊢
  have comma : byte ',' ≠ byte ']' := by decide
  rw [readItems.eq_def]
  dsimp only
  rw [skipSpace_cons (by decide)]
  dsimp only
  rw [if_neg comma, if_neg Bool.false_ne_true, if_pos rfl, skipSpace_cons solid]
  dsimp only
  rw [if_neg bracket, item]
  dsimp only
  rw [others]

/-- A member is read in front of those that follow it. -/
theorem readMembers_first {fuel depth : Nat} {name : String} {value : Value}
    {following rest : Bytes} {members : List (Option String × Tree)}
    (item : readValue fuel depth (encode value.chars ++ following) = (value.tree, some following))
    (others : readMembers fuel depth false following = (members, .closed, some rest)) :
    readMembers (fuel + 1) depth true
        (encode (quote name) ++ byte ':' :: (encode value.chars ++ following)) =
      ((some name, value.tree) :: members, .closed, some rest) := by
  have brace : byte '"' ≠ byte '\x7d' := by decide
  have colon : ¬ byte ':' ≠ byte ':' := fun differ => differ rfl
  rw [encode_quote, readMembers.eq_def]
  dsimp only
  rw [skipSpace_cons (by decide)]
  dsimp only
  rw [if_neg brace, if_pos rfl, if_pos rfl, skipQuoted_quote, quotedText?_quote]
  dsimp only
  rw [skipSpace_cons (by decide)]
  dsimp only
  rw [if_neg colon, item]
  dsimp only
  rw [others]

/-- A member behind a comma is read in front of those that follow it. -/
theorem readMembers_comma {fuel depth : Nat} {name : String} {value : Value}
    {following rest : Bytes} {members : List (Option String × Tree)}
    (item : readValue fuel depth (encode value.chars ++ following) = (value.tree, some following))
    (others : readMembers fuel depth false following = (members, .closed, some rest)) :
    readMembers (fuel + 1) depth false
        (byte ',' :: (encode (quote name) ++ byte ':' :: (encode value.chars ++ following))) =
      ((some name, value.tree) :: members, .closed, some rest) := by
  have brace : byte ',' ≠ byte '\x7d' := by decide
  have colon : ¬ byte ':' ≠ byte ':' := fun differ => differ rfl
  rw [encode_quote, readMembers.eq_def]
  dsimp only
  rw [skipSpace_cons (by decide)]
  dsimp only
  rw [if_neg brace, if_neg Bool.false_ne_true, if_pos rfl, skipSpace_cons (by decide)]
  dsimp only
  rw [if_pos rfl, skipQuoted_quote, quotedText?_quote]
  dsimp only
  rw [skipSpace_cons (by decide)]
  dsimp only
  rw [if_neg colon, item]
  dsimp only
  rw [others]

/-! ## Whole values -/

/-- The items after the first end with a comma or the bracket. -/
theorem follows_itemChars (items : List Value) (rest : Bytes) :
    Follows (encode (itemChars items) ++ rest) := by
  cases items with
  | nil => exact follows_cons (.inr (.inl rfl)) rest
  | cons item items =>
      rw [itemChars, encode_cons_of_lt (by decide)]
      exact follows_cons (.inl rfl) _

theorem follows_memberChars (members : List (String × Value)) (rest : Bytes) :
    Follows (encode (memberChars members) ++ rest) := by
  cases members with
  | nil => exact follows_cons (.inr (.inr rfl)) rest
  | cons member members =>
      obtain ⟨name, value⟩ := member
      rw [memberChars, encode_cons_of_lt (by decide)]
      exact follows_cons (.inl rfl) _

mutual

/-- The text of a value is read as its tree. -/
theorem readValue_chars (value : Value) {fuel depth room : Nat} (fits : value.Fits room)
    (shallow : depth + room < depthLimit) {rest : Bytes} (follows : Follows rest)
    (enough : 2 * (encode value.chars).length ≤ fuel) :
    readValue fuel depth (encode value.chars ++ rest) = (value.tree, some rest) := by
  obtain ⟨fuel, rfl⟩ : ∃ fewer, fuel = fewer + 1 := by
    obtain ⟨first, more, found, _⟩ := encode_chars_eq_cons value
    rw [found, List.length_cons] at enough
    exact ⟨fuel - 1, by omega⟩
  match value with
  | .null =>
      refine readValue_scalar ?_ (readScalar_null rest)
      rintro _ ⟨⟩
      decide
  | .bool value =>
      refine readValue_scalar ?_ (readScalar_bool value rest)
      cases value <;> rintro _ ⟨⟩ <;> decide
  | .number value =>
      refine readValue_scalar ?_ (readScalar_number fits.1 fits.2 follows)
      obtain ⟨first, more, found, digit | minus⟩ := encode_toString_eq_cons value
      · rw [Value.chars, found]
        rintro _ ⟨⟩
        constructor <;> rintro rfl <;> cases digit
      · rw [Value.chars, found, minus]
        rintro _ ⟨⟩
        decide
  | .text value =>
      refine readValue_scalar ?_ (readScalar_quote value rest)
      rw [Value.chars, quote, encode_cons_of_lt (by decide)]
      rintro _ ⟨⟩
      decide
  | .list [] =>
      obtain ⟨room_ne, _⟩ := fits
      obtain ⟨fuel, rfl⟩ : ∃ fewer, fuel = fewer + 1 := by
        have two : 2 * 2 ≤ fuel + 1 := enough
        exact ⟨fuel - 1, by omega⟩
      exact readValue_list (by omega) (readItems_closed rest)
  | .list (first :: others) =>
      obtain ⟨room_ne, first_fits, others_fit⟩ := fits
      rw [Value.chars, encode_cons_of_lt (by decide), encode_append] at enough ⊢
      simp only [List.length_cons, List.length_append] at enough
      obtain ⟨fuel, rfl⟩ : ∃ fewer, fuel = fewer + 1 := ⟨fuel - 1, by omega⟩
      rw [List.cons_append, List.append_assoc]
      refine readValue_list (by omega) (readItems_first ?_ ?_)
      · exact readValue_chars first first_fits (by omega) (follows_itemChars others rest) (by omega)
      · exact readItems_itemChars others others_fit (by omega) rest (by omega)
  | .record [] =>
      obtain ⟨room_ne, _⟩ := fits
      obtain ⟨fuel, rfl⟩ : ∃ fewer, fuel = fewer + 1 := by
        have two : 2 * 2 ≤ fuel + 1 := enough
        exact ⟨fuel - 1, by omega⟩
      exact readValue_record (by omega) (readMembers_closed rest)
  | .record ((name, first) :: others) =>
      obtain ⟨room_ne, first_fits, others_fit⟩ := fits
      rw [Value.chars, encode_cons_of_lt (by decide), encode_append,
        encode_cons_of_lt (by decide), encode_append] at enough ⊢
      simp only [List.length_cons, List.length_append] at enough
      obtain ⟨fuel, rfl⟩ : ∃ fewer, fuel = fewer + 1 := ⟨fuel - 1, by omega⟩
      rw [List.cons_append, List.append_assoc, List.cons_append, List.append_assoc]
      refine readValue_record (by omega) (readMembers_first ?_ ?_)
      · exact readValue_chars first first_fits (by omega) (follows_memberChars others rest)
          (by omega)
      · exact readMembers_memberChars others others_fit (by omega) rest (by omega)

/-- The items after the first are read as their trees. -/
theorem readItems_itemChars (items : List Value) {fuel depth room : Nat}
    (fits : ItemsFit room items) (shallow : depth + room < depthLimit) (rest : Bytes)
    (enough : 2 * (encode (itemChars items)).length ≤ fuel) :
    readItems fuel depth false (encode (itemChars items) ++ rest) =
      (itemTrees items, .closed, some rest) := by
  match items with
  | [] =>
      obtain ⟨fuel, rfl⟩ : ∃ fewer, fuel = fewer + 1 := by
        have one : 2 * 1 ≤ fuel := enough
        exact ⟨fuel - 1, by omega⟩
      exact readItems_closed rest
  | item :: others =>
      obtain ⟨item_fits, others_fit⟩ := fits
      rw [itemChars, encode_cons_of_lt (by decide), encode_append] at enough ⊢
      simp only [List.length_cons, List.length_append] at enough
      obtain ⟨fuel, rfl⟩ : ∃ fewer, fuel = fewer + 1 := ⟨fuel - 1, by omega⟩
      rw [List.cons_append, List.append_assoc]
      refine readItems_comma ?_ ?_
      · exact readValue_chars item item_fits shallow (follows_itemChars others rest) (by omega)
      · exact readItems_itemChars others others_fit shallow rest (by omega)

/-- The members after the first are read as their trees. -/
theorem readMembers_memberChars (members : List (String × Value)) {fuel depth room : Nat}
    (fits : MembersFit room members) (shallow : depth + room < depthLimit) (rest : Bytes)
    (enough : 2 * (encode (memberChars members)).length ≤ fuel) :
    readMembers fuel depth false (encode (memberChars members) ++ rest) =
      (memberTrees members, .closed, some rest) := by
  match members with
  | [] =>
      obtain ⟨fuel, rfl⟩ : ∃ fewer, fuel = fewer + 1 := by
        have one : 2 * 1 ≤ fuel := enough
        exact ⟨fuel - 1, by omega⟩
      exact readMembers_closed rest
  | (name, value) :: others =>
      obtain ⟨value_fits, others_fit⟩ := fits
      rw [memberChars, encode_cons_of_lt (by decide), encode_append,
        encode_cons_of_lt (by decide), encode_append] at enough ⊢
      simp only [List.length_cons, List.length_append] at enough
      obtain ⟨fuel, rfl⟩ : ∃ fewer, fuel = fewer + 1 := ⟨fuel - 1, by omega⟩
      rw [List.cons_append, List.append_assoc, List.cons_append, List.append_assoc]
      refine readMembers_comma ?_ ?_
      · exact readValue_chars value value_fits shallow (follows_memberChars others rest) (by omega)
      · exact readMembers_memberChars others others_fit shallow rest (by omega)

end

/-- The text of a value is read as its tree, and nothing follows. -/
theorem read_bytes {value : Value} (fits : value.Fits 127) :
    read value.bytes = ⟨value.tree, true⟩ := by
  have whole := readValue_chars value fits (show 0 + 127 < depthLimit by decide) follows_nil
    (show 2 * (encode value.chars).length ≤ 2 * (encode value.chars).length + 2 by omega)
  rw [List.append_nil] at whole
  rw [Value.bytes, Value.print, utf8_ofList, read, whole]
  rfl

end MediaHarvest.Json
