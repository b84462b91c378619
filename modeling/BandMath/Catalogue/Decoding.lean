/-
# Reading catalogues

A catalogue is a JSON object with one record under each key.  A record is an object whose members
are its fields, or a list of the values of its fields in a fixed order.  `ofDocuments` reads the
three documents of `from_json_str`, and `indexDocument` the one of `from_path`.

* Members that are not fields are ignored, whatever they hold; a field may occur once only.
* A field that may be left out has a default.  Only a field that may be absent can be null, so a
  default of null and no default are the same thing, while a name of null is a fault.
* Under one key the last record counts, but every record has to be right.
* Strings have to be texts: half of a surrogate pair is a string of JSON, and no text.

A `Decoder` reads one kind of thing off a value of JSON or says what is wrong with it.  Decoders are
put together from those of parts (`listOf`, `orNull`, `mapOf`, `required`, `optional`), and every
record is one such combination, so what is accepted can be read off its definition.  All faults of
a document become one kind of error, `malformedDocument`.  Bands are read first and indices last.

Nothing is said here about formulas or about symbols.  A record that is well-formed as a document
may still make no sense as an index, which is found out by `IndexDefinition.ofRecord` and
`Registry.insertRecord`.
-/
import BandMath.Catalogue.Record
import BandMath.Error
import BandMath.Json.Reading

namespace BandMath.Catalogue

/-- Reads one kind of thing off a JSON value, or says what is wrong with it. -/
abbrev Decoder (α : Type) := Json → Except String α

/-! ## 1. Plain values -/

/-- A string that is a text. -/
def text : Decoder String
  | .string (some s) => .ok s
  | .string none => .error "a string holds half of a surrogate pair"
  | _ => .error "expected a string"

/-- A number within the range of floats. -/
def float : Decoder Float
  | .number n =>
    match n.float? with
    | some x => .ok x
    | none => .error "number out of range"
  | _ => .error "expected a number"

/-- A list of things of one kind. -/
def listOf {α : Type} (item : Decoder α) : Decoder (List α)
  | .array items => items.mapM item
  | _ => .error "expected a list"

/-- A thing that may be absent. -/
def orNull {α : Type} (value : Decoder α) : Decoder (Option α)
  | .null => .ok none
  | j => (value j).map some

/-- The members of an object, whose keys all have to be texts. -/
def members : Decoder (List (String × Json))
  | .object ms => ms.mapM fun (key, j) => do return (← text (.string key), j)
  | _ => .error "expected an object"

/-- An object with a thing of one kind under each key. -/
def mapOf {α : Type} (value : Decoder α) : Decoder (Std.ExtTreeMap String α) := fun j => do
  let entries ← (← members j).mapM fun (key, j) => do return (key, ← value j)
  return Std.ExtTreeMap.ofList entries

/-! ## 2. Records -/

/-- The values of the fields of a record, those that are there. -/
abbrev Fields := List (String × Json)

/-- The fields of a record, given their names in order. -/
def fields (names : List String) : Decoder Fields
  | .array items =>
    if items.length ≤ names.length then .ok (names.zip items) else .error "too many fields"
  | j => do
    let known := (← members j).filter fun (key, _) => names.contains key
    match names.find? fun name => 1 < (known.filter fun (key, _) => key = name).length with
    | some name => throw s!"duplicate field {name}"
    | none => return known

/-- A field that has to be there. -/
def required {α : Type} (fs : Fields) (name : String) (value : Decoder α) : Except String α :=
  match fs.lookup name with
  | some j => value j
  | none => .error s!"missing field {name}"

/-- A field that may be left out. -/
def optional {α : Type} (fs : Fields) (name : String) (default : α) (value : Decoder α) :
    Except String α :=
  match fs.lookup name with
  | some j => value j
  | none => .ok default

/-- The record of a band. -/
def band : Decoder Band := fun j => do
  let fs ← fields ["short_name", "long_name", "common_name", "min_wavelength", "max_wavelength"] j
  return { symbol := ← required fs "short_name" text
           longName := ← required fs "long_name" text
           commonName := ← optional fs "common_name" none (orNull text)
           minWavelength := ← required fs "min_wavelength" float
           maxWavelength := ← required fs "max_wavelength" float }

/-- The record of a constant. -/
def constant : Decoder Constant := fun j => do
  let fs ← fields ["short_name", "description", "default"] j
  return { symbol := ← required fs "short_name" text
           description := ← required fs "description" text
           default := ← optional fs "default" none (orNull float) }

/-- The record of an index. -/
def indexRecord : Decoder IndexRecord := fun j => do
  let fs ← fields ["short_name", "formula", "bands", "long_name", "application_domain",
    "reference", "contributor", "date_of_addition", "platforms"] j
  return { name := ← required fs "short_name" text
           formula := ← required fs "formula" text
           symbols := ← required fs "bands" (listOf text)
           metadata :=
             { longName := ← optional fs "long_name" "" text
               domain := ← optional fs "application_domain" "" text
               reference := ← optional fs "reference" "" text
               contributor := ← optional fs "contributor" "" text
               dateAdded := ← optional fs "date_of_addition" "" text
               platforms := ← optional fs "platforms" [] (listOf text) } }

/-- The catalogue of indices stands under a field of its own. -/
def indexFile : Decoder (Std.ExtTreeMap String IndexRecord) := fun j => do
  required (← fields ["SpectralIndices"] j) "SpectralIndices" (mapOf indexRecord)

/-! ## 3. Documents -/

/-- Reads a whole document. -/
def document {α : Type} (value : Decoder α) (text : String) : Except Error α :=
  match Json.read? text with
  | some j => (value j).mapError .malformedDocument
  | none => .error (.malformedDocument "not a JSON text")

/-- The records of a document with indices. -/
def indexDocument (text : String) : Except Error (Std.ExtTreeMap String IndexRecord) :=
  document indexFile text

/-- The catalogue of three documents. -/
def ofDocuments (indices bands constants : String) : Except Error Catalogue := do
  return { bands := ← document (mapOf band) bands
           constants := ← document (mapOf constant) constants
           indices := ← indexDocument indices }

end BandMath.Catalogue
