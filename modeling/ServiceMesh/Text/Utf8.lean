/-!
Texts as bytes. A text and its UTF-8 form determine each other: `text?_bytes` reads a text back
from its bytes, and `bytes_of_text?` says that nothing else reads as that text.
-/

namespace ServiceMesh.Utf8

def bytes (s : String) : List UInt8 := s.toByteArray.data.toList

/-- The text with the given UTF-8 form, if there is one. -/
def text? (bs : List UInt8) : Option String := String.fromUTF8? ⟨bs.toArray⟩

@[simp] theorem bytes_append (s t : String) : bytes (s ++ t) = bytes s ++ bytes t := by
  simp [bytes]

@[simp] theorem bytes_empty : bytes "" = [] := by simp [bytes]

@[simp] theorem text?_bytes (s : String) : text? (bytes s) = some s := by
  have h : (⟨(bytes s).toArray⟩ : ByteArray) = s.toByteArray := by simp [bytes]
  rw [text?, h, String.fromUTF8?, dif_pos s.isValidUTF8]
  rfl

theorem bytes_of_text? {bs : List UInt8} {s : String} (h : text? bs = some s) : bytes s = bs := by
  rw [text?, String.fromUTF8?] at h
  split at h
  · cases h
    simp [bytes, String.fromUTF8]
  · cases h

theorem bytes_injective {s t : String} (h : bytes s = bytes t) : s = t := by
  have := text?_bytes s
  rw [h, text?_bytes] at this
  exact (Option.some.inj this).symm

end ServiceMesh.Utf8
