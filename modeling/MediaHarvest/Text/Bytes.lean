/-!
# Byte strings

Everything that is stored or sent is a list of bytes.  Text becomes bytes through UTF-8; the way
back need not exist, and `ofUtf8?_utf8` says that it undoes the way there.
-/

namespace MediaHarvest

/-- A byte string. -/
abbrev Bytes := List UInt8

namespace Text

/-- The UTF-8 bytes of a text. -/
def utf8 (text : String) : Bytes :=
  text.toByteArray.data.toList

/-- The text that a byte string encodes, if it is UTF-8. -/
def ofUtf8? (bytes : Bytes) : Option String :=
  String.fromUTF8? ⟨bytes.toArray⟩

@[simp]
theorem ofUtf8?_utf8 (text : String) : ofUtf8? (utf8 text) = some text := by
  simp [ofUtf8?, utf8, String.fromUTF8?, String.fromUTF8, text.isValidUTF8]

/-- Different texts have different bytes. -/
theorem utf8_injective {first second : String} (same : utf8 first = utf8 second) :
    first = second := by
  have := congrArg ofUtf8? same
  simpa using this

end Text

end MediaHarvest
