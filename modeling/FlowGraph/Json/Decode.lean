import FlowGraph.Json.Draft
import FlowGraph.Text.Visible

/-!
# Taking typed data from drafts

A decoder takes a draft and gives a value of its type, or the first fault in the order of the
draft: a fault of the text, or data that does not fit. A record may be written as an object or as
the list of its fields in order; `Record` describes its fields one by one. A `Dialect` holds what
differs between sources of drafts.
-/

namespace FlowGraph

/-- Data that stands where something else was expected. -/
inductive Found where
  | null
  | bool (value : Bool)
  | int (value : Int)
  | float (value : Double)
  | text (value : String)
  | list
  | object
deriving DecidableEq, Repr

/-- Why data does not fit its type. -/
inductive DataFault where
  | missingField (name : String)
  | duplicateField (name : String)
  | unknownVariant (name : String) (known : List String)
  | invalidType (found : Found) (expected : String)
  | invalidValue (found : Found) (expected : String)
  | invalidLength (length : Nat) (expected : String)
  /-- A text that has a form of its own, with what is wrong with it. -/
  | malformed (reason : String)
deriving DecidableEq, Repr

/-- Why no value could be taken from a draft. -/
inductive DecodeFault where
  | text (fault : TextFault)
  | data (fault : DataFault)
deriving DecidableEq, Repr

namespace Found

/-- What was found, in words; `floatText` writes a float. -/
def describe (floatText : Double → String) : Found → String
  | null => "null"
  | bool true => "boolean \x60true\x60"
  | bool false => "boolean \x60false\x60"
  | int i => "integer \x60" ++ toString i ++ "\x60"
  | float x => "floating point \x60" ++ floatText x ++ "\x60"
  | text s => "string " ++ Text.debugQuote s
  | list => "sequence"
  | object => "map"

end Found

namespace DataFault

/-- Names in backquotes, as alternatives. -/
def alternatives : List String → String
  | [] => "there are no variants"
  | [a] => "expected \x60" ++ a ++ "\x60"
  | [a, b] => "expected \x60" ++ a ++ "\x60 or \x60" ++ b ++ "\x60"
  | names => "expected one of " ++
    String.intercalate ", " (names.map fun name => "\x60" ++ name ++ "\x60")

/-- The fault in words; `floatText` writes a float. -/
def messageWith (floatText : Double → String) : DataFault → String
  | missingField name => "missing field \x60" ++ name ++ "\x60"
  | duplicateField name => "duplicate field \x60" ++ name ++ "\x60"
  | unknownVariant name known =>
    "unknown variant \x60" ++ name ++ "\x60, " ++ alternatives known
  | invalidType found expected =>
    "invalid type: " ++ found.describe floatText ++ ", expected " ++ expected
  | invalidValue found expected =>
    "invalid value: " ++ found.describe floatText ++ ", expected " ++ expected
  | invalidLength length expected =>
    "invalid length " ++ toString length ++ ", expected " ++ expected
  | malformed reason => reason

/-- The fault in words, floats as in JSON. -/
def message (fault : DataFault) : String := fault.messageWith Double.text

end DataFault

namespace DecodeFault

/-- The fault in words. -/
def message : DecodeFault → String
  | text fault => fault.message
  | data fault => fault.message

end DecodeFault

/-- What becomes of the items of a list beyond the fields of the record it stands for. -/
inductive ExcessRule where
  /-- They are counted and reported. -/
  | counted
  /-- They are text where the list should have ended. -/
  | refused
  | ignored
deriving DecidableEq, Repr

/-- What differs between the sources of drafts. -/
structure Dialect where
  excess : ExcessRule
  /-- Whether anything but a text or an object in place of a variant is a fault of the text. -/
  strictVariants : Bool := false
  /-- Whether an empty object counts as nothing. -/
  emptyIsNothing : Bool := false
deriving DecidableEq, Repr

namespace Dialect

/-- Drafts of values that are already in memory. -/
def value : Dialect := { excess := .counted }

/-- Drafts of a text. -/
def text : Dialect := { excess := .refused, strictVariants := true }

/-- Drafts of the parts of a tagged value. -/
def tagged : Dialect := { excess := .counted, emptyIsNothing := true }

/-- Drafts of a settings file. -/
def table : Dialect := { excess := .ignored }

end Dialect

/-- A result of taking data from a draft. -/
abbrev Decoded (α : Type) := Except DecodeFault α

namespace Draft

/-- What an unbroken draft holds, for messages. -/
def found : Draft → Except TextFault Found
  | null => .ok .null
  | bool b => .ok (.bool b)
  | num (.int i) => .ok (.int i)
  | num (.float x) => .ok (.float x)
  | str s => .ok (.text s)
  | list .. => .ok .list
  | object .. => .ok .object
  | broken wanted _ => .error wanted

/-- The fault of a draft that is not of the expected type. -/
def mismatch {α : Type} (x : Draft) (expected : String) : Decoded α :=
  match x.found with
  | .ok found => .error (.data (.invalidType found expected))
  | .error fault => .error (.text fault)

/-- A plain value. -/
def toJson (x : Draft) : Decoded Json :=
  match x.value with
  | .ok v => .ok v
  | .error fault => .error (.text fault)

/-- A text. -/
def toText : Draft → Decoded String
  | str s => .ok s
  | x => x.mismatch "a string"

/-- A truth value. -/
def toBool : Draft → Decoded Bool
  | bool b => .ok b
  | x => x.mismatch "a boolean"

/-- A whole number that is not negative; `name` is what the type is called. -/
def toNat (name : String) : Draft → Decoded Nat
  | num (.int i) =>
    if 0 ≤ i then .ok i.toNat else .error (.data (.invalidValue (.int i) name))
  | x => x.mismatch name

/-- A number as a double. -/
def toDouble : Draft → Decoded Double
  | num n => .ok n.toDouble
  | x => x.mismatch "f64"

/-- A number as a single. -/
def toSingle : Draft → Decoded Single
  | num (.int i) => .ok (Single.ofInt i)
  | num (.float x) => .ok (Single.ofDouble x)
  | x => x.mismatch "f32"

/-- Something or `null`. -/
def toOption {α : Type} (decode : Draft → Decoded α) : Draft → Decoded (Option α)
  | null => .ok none
  | x => (decode x).map some

/-- The fields of an object as plain values. -/
def toFields : Draft → Decoded Fields
  | object fields ending =>
    match (object fields ending).toJson with
    | .ok (.obj entries) => .ok entries
    | .ok _ => .ok []
    | .error fault => .error fault
  | x => x.mismatch "a map"

/-- Decode items in order. -/
def decodeItems {α : Type} (decode : Draft → Decoded α) : List Draft → Decoded (List α)
  | [] => .ok []
  | x :: xs => do
    let head ← decode x
    let tail ← decodeItems decode xs
    .ok (head :: tail)

/-- A list. -/
def toList {α : Type} (decode : Draft → Decoded α) : Draft → Decoded (List α)
  | list items ending => do
    let values ← decodeItems decode items
    match ending.fault? with
    | some fault => .error (.text fault)
    | none => .ok values
  | x => x.mismatch "a sequence"

/-- Nothing, written as `null`. -/
def toNothing (dialect : Dialect) : Draft → Decoded Unit
  | null => .ok ()
  | object [] .closed =>
    if dialect.emptyIsNothing then .ok ()
    else (object [] .closed).mismatch "unit"
  | x => x.mismatch "unit"

/-- One of several named variants. -/
def toNamed {α : Type} (variants : List (String × α)) (name : String) : Decoded α :=
  match Keyed.get? variants name with
  | some v => .ok v
  | none => .error (.data (.unknownVariant name (variants.map Prod.fst)))

/-- The fault of an object that should hold the name of one variant and nothing else. -/
def notOneKey {α : Type} (dialect : Dialect) (ending : ObjectEnd) : Decoded α :=
  if dialect.strictVariants then
    .error (.text (match ending with
      | .ended => .endInValue
      | .keyNotText => .keyNotText
      | _ => .expectedValue))
  else .error (.data (.invalidValue .object "map with a single key"))

/-- A variant, written as its name or as an object from its name to nothing. -/
def toVariant {α : Type} (dialect : Dialect) (variants : List (String × α)) :
    Draft → Decoded α
  | str name => toNamed variants name
  | object [] ending => notOneKey dialect ending
  | object ((key, x) :: rest) ending => do
    let single := rest.isEmpty
    if !single && !dialect.strictVariants then notOneKey dialect ending
    else
      let name ← match key with
        | .ok name => .ok name
        | .error fault => .error (.text fault)
      let v ← toNamed variants name
      x.toNothing dialect
      if !single then .error (.text .expectedValue)
      else match ending with
        | .closed | .cut => .ok v
        | .ended => .error (.text .endInObject)
        | _ => .error (.text .expectedValue)
  | broken wanted _ => .error (.text wanted)
  | x =>
    if dialect.strictVariants then .error (.text .expectedValue)
    else x.mismatch "string or map"

end Draft

/-- What stands for a field of a record that is not written. -/
inductive Absent (α : Type) where
  /-- Nothing does. -/
  | required
  /-- A value, in an object only. -/
  | inObject (value : α)
  /-- A value, wherever the field is missing. -/
  | anywhere (value : α)

/-- The fields of a record of type `α`, taken one by one into a partial record of type `π`. -/
structure Record (π α : Type) where
  /-- The partial record without any field. -/
  start : π
  /-- Take a field by its name, if it is one of the record's. -/
  take : Dialect → String → Draft → π → Option (Decoded π)
  /-- The record, once every field of an object has been taken. -/
  finish : π → Except DataFault α
  /-- How many fields there are. -/
  count : Nat
  /-- Take the fields in order from a list; `place` is the number of fields taken before. -/
  fromList : Dialect → String → Nat → List Draft → ListEnd → Decoded (α × List Draft)

namespace Record

/-- A record of one field. -/
def field {α : Type} (name : String) (decode : Dialect → Draft → Decoded α)
    (absent : Absent α) : Record (Option α) α where
  start := none
  take dialect key x taken :=
    if key = name then
      some (match taken with
        | some _ => .error (.data (.duplicateField name))
        | none => (decode dialect x).map some)
    else none
  finish
    | some v => .ok v
    | none => match absent with
      | .required => .error (.missingField name)
      | .inObject v | .anywhere v => .ok v
  count := 1
  fromList dialect expected place items ending :=
    match items with
    | x :: rest => (decode dialect x).map fun v => (v, rest)
    | [] => match ending.fault? with
      | some fault => .error (.text fault)
      | none => match absent with
        | .anywhere v => .ok (v, [])
        | _ => .error (.data (.invalidLength place expected))

/-- The fields of two records, one after the other. -/
def and {π ρ α β : Type} (a : Record π α) (b : Record ρ β) : Record (π × ρ) (α × β) where
  start := (a.start, b.start)
  take dialect key x taken :=
    match a.take dialect key x taken.1 with
    | some result => some (result.map fun p => (p, taken.2))
    | none => (b.take dialect key x taken.2).map fun result =>
      result.map fun p => (taken.1, p)
  finish taken := do
    let x ← a.finish taken.1
    let y ← b.finish taken.2
    .ok (x, y)
  count := a.count + b.count
  fromList dialect expected place items ending := do
    let (x, rest) ← a.fromList dialect expected place items ending
    let (y, rest) ← b.fromList dialect expected (place + a.count) rest ending
    .ok ((x, y), rest)

/-- The same fields, made into another type. -/
def map {π α β : Type} (f : α → β) (a : Record π α) : Record π β where
  start := a.start
  take := a.take
  finish taken := (a.finish taken).map f
  count := a.count
  fromList dialect expected place items ending :=
    (a.fromList dialect expected place items ending).map fun r => (f r.1, r.2)

/-- Take the fields of an object in the order written. Fields of other names are skipped. -/
def takeAll {π α : Type} (record : Record π α) (dialect : Dialect) :
    List (Except TextFault String × Draft) → π → Decoded π
  | [], taken => .ok taken
  | (.error fault, _) :: _, _ => .error (.text fault)
  | (.ok key, x) :: rest, taken =>
    match record.take dialect key x taken with
    | some (.ok taken) => takeAll record dialect rest taken
    | some (.error fault) => .error fault
    | none => match x.skipFault? with
      | some fault => .error (.text fault)
      | none => takeAll record dialect rest taken

/-- The fields of an object. -/
def ofObject {π α : Type} (record : Record π α) (dialect : Dialect)
    (fields : List (Except TextFault String × Draft)) (ending : ObjectEnd) : Decoded α := do
  let taken ← record.takeAll dialect fields record.start
  match ending.fault? with
  | some fault => .error (.text fault)
  | none => match record.finish taken with
    | .ok v => .ok v
    | .error fault => .error (.data fault)

/-- The fields of a list; `expected` names the record. -/
def ofList {π α : Type} (record : Record π α) (dialect : Dialect) (expected : String)
    (items : List Draft) (ending : ListEnd) : Decoded α := do
  let elements := if record.count = 1 then " element" else " elements"
  let (v, rest) ← record.fromList dialect
    (expected ++ " with " ++ toString record.count ++ elements) 0 items ending
  match dialect.excess with
  | .ignored => .ok v
  | .counted =>
    if rest.isEmpty then .ok v
    else .error (.data (.invalidLength items.length "fewer elements in array"))
  | .refused =>
    if !rest.isEmpty then .error (.text .trailingCharacters)
    else match ending.closingFault? with
      | some fault => .error (.text fault)
      | none => .ok v

/-- A record, written either way; `expected` names it. -/
def decode {π α : Type} (record : Record π α) (expected : String) (dialect : Dialect) :
    Draft → Decoded α
  | .object fields ending => record.ofObject dialect fields ending
  | .list items ending => record.ofList dialect expected items ending
  | x => x.mismatch expected

end Record

end FlowGraph
