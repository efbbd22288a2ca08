import ModelKeeper.Chat.Error
import ModelKeeper.Json.Codec

/-!
# Answers in their envelope

The answer of a provider is kept as the text of an `Envelope`: a code, the answer itself, a remark
and whether the request succeeded.
-/

namespace ModelKeeper

/-- An answer as it is kept. -/
structure Envelope where
  code : UInt16 := 0
  data : String := ""
  msg : String := ""
  success : Bool := false
  deriving DecidableEq, Repr

namespace Envelope

/-- The envelope of a successful answer. -/
def ok (data msg : String) : Envelope := ⟨200, data, msg, true⟩

def codec : Codec Envelope :=
  .record "struct Response"
    (.cons (.required "code" .word16) <|
      .cons (.required "data" .string) <|
      .cons (.required "msg" .string) <|
      .cons (.required "success" .bool) .nil)
    (fun e => (e.code, e.data, e.msg, e.success, ()))
    (fun (code, data, msg, success, ()) => ⟨code, data, msg, success⟩)

/-- The envelope as text. -/
def text (e : Envelope) : String := (codec.write e).text

/-- The envelope as bytes. -/
def marshal (e : Envelope) : List UInt8 := Utf8.ofString e.text

/-- The envelope that some bytes spell. -/
def unmarshal (bytes : List UInt8) : Except ReadError Envelope := codec.readText bytes

/-- Fills an envelope with what some bytes spell.  The second part is the envelope afterwards. -/
def fill (e : Envelope) (bytes : List UInt8) : Except ChatError Unit × Envelope :=
  match unmarshal bytes with
  | .ok filled => (.ok (), filled)
  | .error reason => (.error (.invalidResponse reason), e)

end Envelope

end ModelKeeper
