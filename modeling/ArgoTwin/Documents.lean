import ArgoTwin.JsonText
import ArgoTwin.Library.Bytes
/-!
# Documents as bytes

Dictionaries are written in UTF-8, and documents are read off bytes that
may be anything.
-/

namespace ArgoTwin

open Library

/-- How documents are read: off a text, and off bytes that are no plain
UTF-8 or hold what `Json` has no value for. -/
class JsonDecoder where
  reader : Json.Reader
  foreign : Bytes → Except PyError Json

/-- `canonical_json(value).encode("utf-8")`. -/
def written (value : Payload) : Bytes := utf8 (canonicalJson (.ofPayload value))

/-- `json.loads(data)`: bytes that start with no mark and no zero are
UTF-8. -/
def readJson [D : JsonDecoder] (data : Bytes) : Except PyError Json :=
  if (data.take 2).all fun byte => 0 < byte ∧ byte < 128 then
    match ofUtf8 data with
    | none => D.foreign data
    | some text =>
      match Json.loads D.reader text with
      | .ok value => .ok value
      | .error .invalid => .error (.valueError "not a JSON document")
      | .error .foreign => D.foreign data
  else D.foreign data

/-- A dictionary is written in plain ASCII as far as its first field's
name. -/
theorem plain_written (value : Payload) :
    ((written value).take 2).all (fun byte => 0 < byte ∧ byte < 128) = true := by
  have hopen : String.utf8EncodeChar '\x7b' = [123] := by decide
  have hclose : String.utf8EncodeChar '\x7d' = [125] := by decide
  have hquote : String.utf8EncodeChar '"' = [34] := by decide
  rw [written, utf8_eq, canonicalJson, Json.reread_ofPayload, Json.ofPayload]
  cases value.reread.toList with
  | nil => simp [Json.dumps, Json.dumpsFields, hopen, hclose]
  | cons field rest =>
    obtain ⟨key, found⟩ := field
    simp [Json.dumps, Json.toList_dumpsFields, Json.toList_quoteStr, hopen, hquote]

/-- No dictionary is written in less than its two braces. -/
theorem two_le_length_written (value : Payload) : 2 ≤ (written value).length := by
  have hopen : (List.flatMap String.utf8EncodeChar "\x7b".toList).length = 1 := by decide
  have hclose : (List.flatMap String.utf8EncodeChar "\x7d".toList).length = 1 := by decide
  rw [written, utf8_eq, canonicalJson, Json.reread_ofPayload, Json.ofPayload]
  simp only [Json.dumps, String.toList_append, List.flatMap_append, List.length_append]
  omega

/-- **A proper dictionary is read back.** -/
theorem readJson_written [D : JsonDecoder] {value : Payload}
    (h : Json.Proper D.reader.nearest (.ofPayload value)) :
    readJson (written value) = .ok (.ofPayload value) := by
  rw [readJson, if_pos (plain_written value), written, ofUtf8_utf8,
    Json.canonicalJson_of_proper h]
  simp only [Json.loads_dumps D.reader h]

end ArgoTwin
