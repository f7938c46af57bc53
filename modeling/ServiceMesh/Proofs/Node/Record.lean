import ServiceMesh.Node
import ServiceMesh.Proofs.Json.Record

/-!
The stored record of a node is read back as the node, in whatever order the entries of its info
are listed.
-/

namespace ServiceMesh.Node

open Json

/-- The record of a node with the entries of its info in a given order. -/
def encodeWith (n : Node) (info : List (String × String)) : List UInt8 :=
  writeRecord [
    ("id", .str n.id),
    ("serviceName", .str n.service),
    ("path", .str n.path),
    ("ip", .str n.ip),
    ("port", Json.ofNat n.port.toNat),
    ("info", .obj (texts info))]

def IsRecord (n : Node) (value : List UInt8) : Prop :=
  ∃ info : List (String × String), info.Perm n.info.entries ∧ value = n.encodeWith info

def writeText (key s : String) (rest : List UInt8) : List UInt8 :=
  Text.write key (Ascii.colon :: Text.write s (Ascii.comma :: rest))

def writeRest (n : Node) (info : List (String × String)) : List UInt8 :=
  Text.write "port" (Ascii.colon :: (Number.decimal n.port.toNat ++ Ascii.comma ::
    Text.write "info" (Ascii.colon ::
      writeValue (.obj (texts info)) [Ascii.braceClose])))

def writeMembers (n : Node) (info : List (String × String)) : List UInt8 :=
  writeText "id" n.id <| writeText "serviceName" n.service <|
    writeText "path" n.path <| writeText "ip" n.ip <| n.writeRest info

theorem encodeWith_eq (n : Node) (info : List (String × String)) :
    n.encodeWith info = Ascii.braceOpen :: n.writeMembers info := by
  have hport : n.port.toNat.toUInt64.toNat = n.port.toNat :=
    Nat.mod_eq_of_lt (Nat.lt_trans n.port.toNat_lt (by decide))
  rw [encodeWith, writeRecord]
  simp only [Json.writeMembers, writeValue, Json.ofNat, Number.write, hport]
  rfl

theorem isRecord_encode (n : Node) : n.IsRecord n.encode := ⟨n.info.entries, .refl _, rfl⟩

theorem length_lt_writeText (key s : String) (rest : List UInt8) :
    rest.length < (writeText key s rest).length := by
  have hkey := Text.length_lt_write key (Ascii.colon :: Text.write s (Ascii.comma :: rest))
  have hvalue := Text.length_lt_write s (Ascii.comma :: rest)
  rw [writeText]
  simp only [List.length_cons] at hkey hvalue
  omega

theorem le_length_writeMembers (n : Node) (info : List (String × String)) :
    5 ≤ (n.writeMembers info).length := by
  have hrest : 0 < (n.writeRest info).length := Nat.zero_lt_succ _
  have hip := length_lt_writeText "ip" n.ip (n.writeRest info)
  have hpath := length_lt_writeText "path" n.path (writeText "ip" n.ip (n.writeRest info))
  have hservice := length_lt_writeText "serviceName" n.service
    (writeText "path" n.path <| writeText "ip" n.ip (n.writeRest info))
  have hid := length_lt_writeText "id" n.id (writeText "serviceName" n.service <|
    writeText "path" n.path <| writeText "ip" n.ip (n.writeRest info))
  rw [writeMembers]
  omega

theorem readInt_port (p : UInt16) (rest : List UInt8) :
    readInt 0 65535 (Number.decimal p.toNat ++ Ascii.comma :: rest) =
      some ((p.toNat : Int), Ascii.comma :: rest) := by
  have hlt := p.toNat_lt
  exact readInt_decimal (by omega) (by omega) (Nat.lt_trans hlt (by decide)) rfl

/-- The members are read one after the other. -/
theorem readMembers_writeMembers (n : Node) (info : List (String × String)) (fuel : Nat) :
    Record.readMembers fields (fuel + 6) {} (n.writeMembers info) =
      some (⟨some n.id, some n.service, some n.path, some n.ip, some n.port,
        some (KeyMap.ofList info)⟩, []) := by
  have hport : (n.port.toNat : Int).toNat.toUInt16 = n.port := UInt16.ofNat_toNat
  rw [writeMembers,
    writeText, Record.readMembers_comma rfl rfl (congrArg (Option.map _) (readText_write _ _)),
    writeText, Record.readMembers_comma rfl rfl (congrArg (Option.map _) (readText_write _ _)),
    writeText, Record.readMembers_comma rfl rfl (congrArg (Option.map _) (readText_write _ _)),
    writeText, Record.readMembers_comma rfl rfl (congrArg (Option.map _) (readText_write _ _)),
    writeRest, Record.readMembers_comma rfl rfl (congrArg (Option.map _) (readInt_port _ _)),
    Record.readMembers_close rfl rfl (congrArg (Option.map _) (readTextMap_writeValue _ _)), hport]

theorem decode?_encodeWith (n : Node) (info : List (String × String)) :
    decode? (n.encodeWith info) = some { n with info := KeyMap.ofList info } := by
  obtain ⟨fuel, hfuel⟩ := Nat.exists_eq_add_of_le' (Nat.succ_le_succ (n.le_length_writeMembers info))
  have hread : Record.read fields {} (n.encodeWith info) =
      some (⟨some n.id, some n.service, some n.path, some n.ip, some n.port,
        some (KeyMap.ofList info)⟩, []) := by
    rw [← readMembers_writeMembers n info fuel, ← hfuel, encodeWith_eq, Record.read,
      skipBlanks_cons rfl]
    rfl
  rw [decode?, readAll, hread]
  rfl

/-- A record is read back as the node it was written for. -/
theorem IsRecord.decode?_eq {n : Node} {value : List UInt8} (h : n.IsRecord value) :
    decode? value = some n := by
  obtain ⟨info, hperm, rfl⟩ := h
  rw [decode?_encodeWith, KeyMap.ofList_eq_of_perm hperm]

theorem decode?_encode (n : Node) : decode? n.encode = some n := n.isRecord_encode.decode?_eq

end ServiceMesh.Node
