import ServiceMesh.Gateway.Envelope
import ServiceMesh.Proofs.Http.Header
import ServiceMesh.Proofs.Json.Record

/-! An envelope of a failure is read back from the answer that carries it. -/

namespace ServiceMesh.Envelope

open Json

/-- The members from the data on and the closing brace. -/
def writeData (e : Envelope) : List UInt8 :=
  Text.write "data" (Ascii.colon :: writeValue e.data [Ascii.braceClose])

def writeMembers (e : Envelope) : List UInt8 :=
  Text.write "code" (Ascii.colon :: writeValue (ofInt e.code.toInt)
    (Ascii.comma :: Text.write "msg" (Ascii.colon :: Text.write e.msg
      (Ascii.comma :: e.writeData))))

theorem encode_eq (e : Envelope) : e.encode = Ascii.braceOpen :: e.writeMembers := by
  simp only [encode, writeRecord, Json.writeMembers, writeValue, writeMembers, writeData]

theorem le_length_writeMembers (e : Envelope) : 2 ≤ e.writeMembers.length := by
  have hcode := Text.length_lt_write "code" (Ascii.colon :: writeValue (ofInt e.code.toInt)
    (Ascii.comma :: Text.write "msg" (Ascii.colon :: Text.write e.msg
      (Ascii.comma :: e.writeData))))
  rw [List.length_cons] at hcode
  rw [writeMembers]
  omega

theorem readInt_code (c : Int32) (rest : List UInt8) :
    readInt (-2147483648) 2147483647 (writeValue (ofInt c.toInt) (Ascii.comma :: rest)) =
      some (c.toInt, Ascii.comma :: rest) := by
  have hlow : -2147483648 ≤ c.toInt := c.minValue_le_toInt
  have hhigh : c.toInt ≤ 2147483647 := c.toInt_le
  exact readInt_ofInt hlow hhigh (by omega) (by omega) rfl

/-- The members are read one after the other, if the data are read. -/
theorem readMembers_writeMembers {e : Envelope}
    (hdata : valueReader (nestingLimit - 1) (writeValue e.data [Ascii.braceClose]) =
      some (e.data, [Ascii.braceClose])) (fuel : Nat) :
    Record.readMembers fields (fuel + 3) {} e.writeMembers =
      some (⟨some e.code, some e.msg, some e.data⟩, []) := by
  have hcode : Int32.ofInt e.code.toInt = e.code := Int32.ofInt_toInt e.code
  rw [writeMembers,
    Record.readMembers_comma rfl rfl (congrArg (Option.map _) (readInt_code _ _)),
    Record.readMembers_comma rfl rfl (congrArg (Option.map _) (readText_write _ _)),
    writeData, Record.readMembers_close rfl rfl (congrArg (Option.map _) hdata), hcode]

theorem decode?_encode {e : Envelope}
    (hdata : valueReader (nestingLimit - 1) (writeValue e.data [Ascii.braceClose]) =
      some (e.data, [Ascii.braceClose])) : decode? e.encode = some e := by
  obtain ⟨fuel, hfuel⟩ := Nat.exists_eq_add_of_le' (Nat.succ_le_succ e.le_length_writeMembers)
  have hread : Record.read fields {} e.encode =
      some (⟨some e.code, some e.msg, some e.data⟩, []) := by
    rw [← readMembers_writeMembers hdata fuel, ← hfuel, encode_eq, Record.read, skipBlanks_cons rfl]
    rfl
  rw [decode?, readAll, hread]
  rfl

theorem decode?_failed (code : Int32) (msg : String) :
    decode? (failed code msg).encode = some (failed code msg) :=
  decode?_encode rfl

/-- The code of an envelope of a failure says so. -/
theorem isSuccess_failed_iff {code : Int32} {msg : String} :
    (failed code msg).isSuccess = true ↔ code = 0 := decide_eq_true_iff

end ServiceMesh.Envelope
