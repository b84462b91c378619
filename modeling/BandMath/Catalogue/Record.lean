/-
# Catalogue records

What a catalogue says about a band, about a constant and about an index.  A record of an index is
only what was written down: its formula is a text, and the symbols that it lists are any names.
Whether it makes sense is checked when a registry takes it in (`IndexDefinition.ofRecord`,
`Registry.insertRecord`).

* A band has a range of wavelengths, of which `Band.center` (`center_wavelength`) is the middle.
  The range is used for display only; no formula depends on it.
* A constant may have a default, the value that it is given if the caller asks for defaults and
  gives no other (`Registry.fillDefaults`).
* A record carries its own name, the `symbol` of a band or constant and the `name` of an index, and
  it stands under a key of its catalogue.  The two need not agree.  For an index they are compared
  when a registry takes the record in; for bands and constants they are not compared at all, and it
  depends on the use which of the two counts.

The fields of `Metadata` are shown (`describeLines`, `listLine`) and one of them is searched
(`Registry.inDomain`); they have no bearing on values.
-/
import Std.Data.ExtTreeMap

namespace BandMath

/-- A spectral band and its range of wavelengths, in nanometres. -/
structure Band where
  symbol : String
  longName : String
  commonName : Option String := none
  minWavelength : Float
  maxWavelength : Float

/-- The middle of the range of wavelengths. -/
def Band.center (b : Band) : Float :=
  (b.minWavelength + b.maxWavelength) / 2.0

/-- A parameter of formulas that is not a band. -/
structure Constant where
  symbol : String
  description : String
  /-- The value that it has unless another one is given. -/
  default : Option Float := none

/-- What is said about an index besides its formula. -/
structure Metadata where
  longName : String := ""
  domain : String := ""
  reference : String := ""
  contributor : String := ""
  dateAdded : String := ""
  platforms : List String := []

/-- An index as it is written down. -/
structure IndexRecord where
  name : String
  formula : String
  /-- The symbols that need a value. -/
  symbols : List String
  metadata : Metadata := {}

/-- Records by key, in the order of the keys. -/
structure Catalogue where
  bands : Std.ExtTreeMap String Band
  constants : Std.ExtTreeMap String Constant
  indices : Std.ExtTreeMap String IndexRecord

end BandMath
