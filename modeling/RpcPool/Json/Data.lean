import RpcPool.Data
import RpcPool.Json

/-!
# JSON as structured data
-/

namespace RpcPool

namespace Json

mutual

/-- What a JSON value says. -/
def toData : Json → Data
  | null => .null
  | bool b => .bool b
  | natural n => .integer n.toNat
  | negative n => .integer (Int.negSucc n)
  | float x => .float x.compactText
  | string s => .text s
  | array elements => .list (toDataList elements)
  | object members => .table (toDataTable members)

def toDataList : List Json → List Data
  | [] => []
  | v :: rest => toData v :: toDataList rest

def toDataTable : List (String × Json) → List (String × Data)
  | [] => []
  | (name, v) :: rest => (name, toData v) :: toDataTable rest

end

mutual

/-- The JSON value that says what some data say. -/
def ofData : Data → Json
  | .null => null
  | .bool b => bool b
  | .integer (.ofNat n) => natural (UInt64.ofNat n)
  | .integer (.negSucc n) => negative n
  | .float s => string s
  | .text s => string s
  | .list elements => array (ofDataList elements)
  | .table entries => object (ofDataTable entries)
  | .outOfRange => null

def ofDataList : List Data → List Json
  | [] => []
  | d :: rest => ofData d :: ofDataList rest

def ofDataTable : List (String × Data) → List (String × Json)
  | [] => []
  | (name, d) :: rest => (name, ofData d) :: ofDataTable rest

end

/-- JSON writes a choice as its name, or as an object with the name and null. -/
def dialect : Data.Dialect where
  variant
    | .text s => .ok (s, none)
    | .table [(name, value)] => .ok (name, some value)
    | .table _ => .error (.wrongValue "map" "map with a single key")
    | d => Data.wrongType "string or map" d
  nothing
    | .null => .ok ()
    | d => Data.wrongType "unit" d
  strictLength := true

end Json

end RpcPool
