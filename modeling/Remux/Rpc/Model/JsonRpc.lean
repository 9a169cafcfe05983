import Remux.Json.Model.Text

/-!
# JSON-RPC errors

The error codes and the error record of `rpc/jsonrpc.rs`, and the part
of `serde_json` and `sha2` that is not under the repository (`Serde`).
-/

namespace Remux

/-- `INVALID_REQUEST`. -/
def invalidRequest : Int64 := -32600

/-- `EXTENSION_ERROR`. -/
def extensionError : Int64 := -32000

/-- `JsonRpcError`. -/
structure JsonRpcError where
  code : Int64
  message : String
  data : Option Value

/-- `Value::from(i64)`: a nonnegative integer is stored unsigned. -/
def Value.ofInt64 (n : Int64) : Value :=
  .number (if h : n < 0 then .negInt ⟨n, h⟩ else .posInt n.toUInt64)

namespace JsonRpcError

/-- `JsonRpcError::new`. -/
def new (code : Int64) (message : String) : JsonRpcError := ⟨code, message, none⟩

/-- `JsonRpcError::with_data`. -/
def withData (code : Int64) (message : String) (data : Value) : JsonRpcError :=
  ⟨code, message, some data⟩

/-- `JsonRpcError::payload`. -/
def payload (error : JsonRpcError) : Value :=
  .object ([("code", .ofInt64 error.code), ("message", .string error.message)] ++
    match error.data with
    | some data => [("data", data)]
    | none => [])

end JsonRpcError

/-- The two functions of third-party crates the registry's fingerprints
and sizes rest on: how `serde_json` prints a double, and SHA-256. -/
structure Serde where
  floatText : Double → List Char
  sha256 : List UInt8 → List UInt8

/-- `serde_json::to_vec`. -/
def Serde.toVec (serde : Serde) (value : Value) : List UInt8 := Remux.toVec serde.floatText value

/-- `hex_lower`. -/
def hexLower (bytes : List UInt8) : String := String.ofList (bytes.flatMap hexByte)

end Remux
