/-
# Registries

A registry holds the definitions of indices by name, the bands and constants whose symbols they may
require, and the formulas of the kernels.  It is loaded from three documents (`ofDocuments`, which
is `from_json_str`), loaded from one document with indices (`ofIndexDocument`, `from_path`), or
built in (`builtin`), and after that only read, except that definitions may be added to it
(`insert`).

An insertion either puts the definition under its name, in place of what was there, or is refused
because the definition requires a symbol that is neither that of a band nor that of a constant.  A
caller keeps its registry in both cases, so `insert` gives back the registry along with what came
of it; that the registry is the same after a refusal is a theorem and not part of the definition
(`Registry.insert_cases`).  Loading is a sequence of insertions into a registry without definitions,
in the order of the keys of the catalogue, and fails with the first that is refused.

Bands and constants are looked up by the keys of their catalogues.  A default, on the other hand, is
bound to the symbol that the record of the constant names (`fillDefaults`).
-/
import BandMath.Catalogue.Builtin
import BandMath.Catalogue.Decoding
import BandMath.Catalogue.Definition
import BandMath.Kernel

namespace BandMath

/-- Definitions, bands and constants, each by its key, and the formulas of the kernels in the order
in which kernels are listed. -/
structure Registry where
  indices : Std.ExtTreeMap String IndexDefinition
  bands : Std.ExtTreeMap String Band
  constants : Std.ExtTreeMap String Constant
  kernels : Vector Formula 3

namespace Registry

/-! ## 1. Looking up -/

/-- Whether a symbol is a band or a constant. -/
def isKnown (r : Registry) (symbol : String) : Bool :=
  r.bands.contains symbol || r.constants.contains symbol

/-- The definition of a name. -/
def index (r : Registry) (name : String) : Except Error IndexDefinition :=
  match r.indices[name]? with
  | some d => .ok d
  | none => .error (.unknownIndex name)

/-- All definitions in the order of their names. -/
def definitions (r : Registry) : List IndexDefinition :=
  r.indices.values

/-- The definitions of one domain; capital and small letters are not told apart. -/
def inDomain (r : Registry) (domain : String) : List IndexDefinition :=
  r.definitions.filter fun d => d.metadata.domain.toLower = domain.toLower

/-- The formula of a kernel. -/
def kernel (r : Registry) (k : Kernel) : Formula :=
  r.kernels.get k.position

/-! ## 2. Building -/

/-- Adds a definition, in place of any of the same name: what came of it, and the registry
afterwards. -/
def insert (r : Registry) (d : IndexDefinition) : Except Error Unit × Registry :=
  match d.required.find? fun s => !r.isKnown s with
  | some s => (.error (.invalidRegistry (.unknownSymbol d.name s)), r)
  | none => (.ok (), { r with indices := r.indices.insert d.name d })

/-- Adds the definition that stands under `key` in a catalogue.  While a registry is being loaded
nobody else has it, so it is given up with the first error. -/
def insertRecord (r : Registry) (key : String) (record : IndexRecord) : Except Error Registry := do
  let d ← (IndexDefinition.ofRecord record).mapError .invalidRegistry
  if d.name ≠ key then throw (.invalidRegistry (.misnamedEntry key d.name))
  else
    let (result, r) := r.insert d
    result
    return r

/-- The registry of a catalogue.  Its entries are added in the order of their keys, so that of
several faults the one under the least key is reported. -/
def ofCatalogue (c : Catalogue) : Except Error Registry := do
  let kernels ← Kernel.readAll
  c.indices.toList.foldlM (fun r (key, record) => r.insertRecord key record)
    { indices := ∅, bands := c.bands, constants := c.constants, kernels }

/-- The registry of three documents. -/
def ofDocuments (indices bands constants : String) : Except Error Registry := do
  ofCatalogue (← Catalogue.ofDocuments indices bands constants)

/-- The registry of a document with indices, over the built-in bands and constants. -/
def ofIndexDocument (indices : String) : Except Error Registry := do
  ofCatalogue { Catalogue.builtin with indices := ← Catalogue.indexDocument indices }

/-- The registry of the built-in catalogue. -/
def builtin : Except Error Registry :=
  ofCatalogue Catalogue.builtin

/-! ## 3. Defaults -/

/-- Binds the symbol of every constant that has a default and is not bound yet. -/
def fillDefaults {α : Type} [Operand α] (r : Registry) (b : Bindings α) : Bindings α :=
  r.constants.values.foldl (fun b c =>
    match c.default with
    | some v => b.insertIfNew c.symbol (Operand.constant v)
    | none => b) b

end Registry

end BandMath
