/-
# Kinds of values

The families of values that a formula may be evaluated over: plain numbers, arrays, labeled columns
and tables, labeled arrays, handles of remote results, and their deferred counterparts.

A kind is what can be said about a value without looking into it.  It decides whether an operator is
defined on two values at all (`Value.binary`) and how results are combined (`combine`), and it is
what the messages about both mention (`Kind.name`).  What else is asked of two values, that shapes
or labels or chunks agree, is asked only of kinds that go together.

Three kinds are what results are combined to, `frame`, `remoteList` and `lazyFrame`; no operator is
defined on them.  Images and numbers of a remote executor are the two kinds that a formula may be
evaluated over without any element being at hand (`Kind.isRemote`).

The kinds have an order of their own, in which a formula climbs from the kinds of its operands to
that of its value; it is a theorem about the operators and not part of this definition
(`BandMath.Proofs.Value.Kinds`).
-/

namespace BandMath

/-- The kinds of values. -/
inductive Kind where
  | scalar
  | array
  | series
  | frame
  | labeledArray
  | remoteImage
  | remoteNumber
  | remoteList
  | lazyArray
  | lazySeries
  | lazyFrame
  deriving Repr, DecidableEq

/-- How messages name the kind. -/
def Kind.name : Kind → String
  | scalar => "scalar"
  | array => "array"
  | series => "series"
  | frame => "frame"
  | labeledArray => "labeled array"
  | remoteImage => "remote image"
  | remoteNumber => "remote number"
  | remoteList => "remote list"
  | lazyArray => "lazy array"
  | lazySeries => "lazy series"
  | lazyFrame => "lazy frame"

/-- Whether values of the kind only describe a computation that a remote executor performs. -/
def Kind.isRemote : Kind → Bool
  | remoteImage | remoteNumber => true
  | _ => false

end BandMath
