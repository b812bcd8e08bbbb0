/-!
# Texts as bytes

`utf8 s` lists the bytes of a text, and `ofUtf8?` reads a text back: it refuses a list of bytes
that is not valid UTF-8, and `ofUtf8?_utf8` says that it gives back what `utf8` wrote.
-/

namespace MetricRegistry.Text

/-- The bytes of a text. -/
def utf8 (s : String) : List UInt8 :=
  s.toList.flatMap String.utf8EncodeChar

/-- The text that some bytes spell, where they are valid UTF-8. -/
def ofUtf8? (bytes : List UInt8) : Option String :=
  String.fromUTF8? bytes.toByteArray

/-- A text is read back from its bytes. -/
@[simp]
theorem ofUtf8?_utf8 (s : String) : ofUtf8? (utf8 s) = some s := by
  have h : (utf8 s).toByteArray = s.toByteArray := by
    rw [← String.utf8Encode_toList]; rfl
  have valid := s.isValidUTF8
  unfold ofUtf8? String.fromUTF8?
  rw [h]
  simp [valid]
  rfl

end MetricRegistry.Text
