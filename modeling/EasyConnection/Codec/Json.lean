import Mathlib.Data.List.Basic

/-! # JSON values

The values that the JSON library reads. A number that is not a natural number of 64 bits is kept
as its text, which nothing here looks at.
-/
namespace EasyConnection.Codec

inductive Json where
  | null
  | bool (b : Bool)
  | unsigned (n : UInt64)
  | number (text : String)
  | string (s : String)
  | array (items : List Json)
  | object (members : List (String × Json))

namespace Json

def asObject : Json → Option (List (String × Json))
  | .object members => some members
  | _ => none

/-- The member of an object with the given name. -/
def get (name : String) (v : Json) : Option Json := v.asObject.bind (List.lookup name)

def asStr : Json → Option String
  | .string s => some s
  | _ => none

def asArray : Json → Option (List Json)
  | .array items => some items
  | _ => none

def asU64 : Json → Option UInt64
  | .unsigned n => some n
  | _ => none

def asBool : Json → Option Bool
  | .bool b => some b
  | _ => none

/-- The value that is reached by the names, one below the other. -/
def at? (names : List String) (v : Json) : Option Json := names.foldlM (fun v name => v.get name) v

end Json

/-- The functions of the JSON library. The error of a text that is not JSON is its message. -/
structure JsonLibrary where
  fromSlice : List UInt8 → Except String Json
  toText : Json → String

end EasyConnection.Codec

namespace EasyConnection.Sample
open Codec

mutual

/-- The text of a value, without blanks. The strings of the samples need no escapes. -/
def jsonText : Json → String
  | .null => "null"
  | .bool b => toString b
  | .unsigned n => toString n.toNat
  | .number text => text
  | .string s => "\"" ++ s ++ "\""
  | .array items => "[" ++ ",".intercalate (itemTexts items) ++ "]"
  | .object members => "\x7b" ++ ",".intercalate (memberTexts members) ++ "\x7d"

def itemTexts : List Json → List String
  | [] => []
  | v :: rest => jsonText v :: itemTexts rest

def memberText : String × Json → String
  | (name, v) => "\"" ++ name ++ "\":" ++ jsonText v

def memberTexts : List (String × Json) → List String
  | [] => []
  | m :: rest => memberText m :: memberTexts rest

end

def jsonBytes (v : Json) : List UInt8 := (jsonText v).toUTF8.data.toList

/-- A JSON library that knows the texts of some values. -/
def jsonLibrary (known : List Json) : JsonLibrary where
  fromSlice body :=
    match known.find? fun v => jsonBytes v = body with
    | some v => .ok v
    | none => .error "expected value at line 1 column 1"
  toText := jsonText

end EasyConnection.Sample
