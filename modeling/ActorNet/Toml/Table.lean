set_option autoImplicit false

/-!
# TOML tables

A document is a table. Tables come to be in four ways, which decide who may still add to them: by their own
header, implied by the header of a table below them, by a dotted key, or inline. A header may define an
implied table once; a dotted key may only go through tables that no header has defined; nobody adds to an
inline table. `tables` is an array of tables, the newest first.
-/
namespace ActorNet.Toml

inductive Scalar where
  | string (text : String)
  | integer (value : Int)
  | float (text : String)
  | boolean (value : Bool)
  | time (text : String)
deriving DecidableEq, Repr, Inhabited

inductive Style where
  | header
  | implied
  | dotted
  | inline
deriving DecidableEq, Repr, Inhabited

inductive Item where
  | scalar (value : Scalar)
  | array (items : List Item)
  | table (style : Style) (fields : List (String × Item))
  | tables (elements : List (List (String × Item)))
deriving Inhabited, Repr

abbrev Fields := List (String × Item)

namespace Fields

def get? (fields : Fields) (key : String) : Option Item := (fields.find? (·.1 == key)).map (·.2)

def set (key : String) (item : Item) : Fields → Fields
  | [] => [(key, item)]
  | (k, old) :: rest => if k = key then (k, item) :: rest else (k, old) :: set key item rest

end Fields

abbrev Change := Style → Fields → Option Fields

/-- Change the table at a path. Tables that are missing on the way are made, as dotted or implied ones. -/
def changeAt (dotted : Bool) (change : Change) : List String → Change
  | [], style, fields => change style fields
  | key :: path, _, fields =>
    match fields.get? key with
    | none => do
      let style := if dotted then .dotted else .implied
      let below ← changeAt dotted change path style []
      return fields.set key (.table style below)
    | some (.table style below) => do
      guard (style ≠ .inline && !(dotted && style = .header))
      let below ← changeAt dotted change path style below
      return fields.set key (.table style below)
    | some (.tables (last :: earlier)) => do
      let last ← changeAt dotted change path .header last
      return fields.set key (.tables (last :: earlier))
    | some _ => none

/-- Give a new key its item. A dotted key ends in a table that dotted keys have made. -/
def assign (path : List String) (key : String) (item : Item) : Change :=
  changeAt (!path.isEmpty) (fun style fields => do
    guard (path.isEmpty || style = .dotted)
    guard (fields.get? key).isNone
    return fields.set key item) path

def openTable (path : List String) (key : String) : Change :=
  changeAt false (fun _ fields =>
    match fields.get? key with
    | none => some (fields.set key (.table .header []))
    | some (.table .implied below) => some (fields.set key (.table .header below))
    | some _ => none) path

def openElement (path : List String) (key : String) : Change :=
  changeAt false (fun _ fields =>
    match fields.get? key with
    | none => some (fields.set key (.tables [[]]))
    | some (.tables elements) => some (fields.set key (.tables ([] :: elements)))
    | some _ => none) path

end ActorNet.Toml
