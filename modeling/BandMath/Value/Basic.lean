/-
# Values

A value is of one of the kinds that formulas are evaluated over.  There is one constructor for each
kind (`BandMath.Kind`), and it holds what a value of that kind consists of: a float, an array, a
column or table, a labeled array, a handle, or a deferred counterpart of these.

Arithmetic has a module of its own (`BandMath.Value.Arithmetic`), as has the combination of results
(`BandMath.Unify`).  Here is what can be asked of a value without computing with it:

* `kind` is its kind, on which both of these decide first.
* `array?`, `series?` and so on give what is inside, if the value is of that kind.  `unify` gathers
  results with them after it has made sure that all are of one kind, so nothing is lost then.
* `same` compares values of one kind as that kind compares them.  It is not equality of terms, since
  NaN differs from itself.

`compute` turns deferred values into given ones and leaves all others as they are; handles are left
too, as nobody but their executor can compute them.  It is the only place where a mode of working
enters into values, and the mode makes no difference to what is computed (`Mode.map_eq`).
-/
import BandMath.Deferred.LazySeries
import BandMath.Labeled.LabeledArray
import BandMath.Remote.Handle

namespace BandMath

/-- A value of any kind. -/
inductive Value where
  | scalar (x : Float)
  | array (a : NDArray)
  | series (s : Series)
  | frame (f : Frame)
  | labeledArray (a : LabeledArray)
  | remoteImage (i : RemoteImage)
  | remoteNumber (n : RemoteNumber)
  | remoteList (l : RemoteList)
  | lazyArray (a : LazyArray)
  | lazySeries (s : LazySeries)
  | lazyFrame (f : LazyFrame)

namespace Value

/-- The kind of a value. -/
def kind : Value → Kind
  | scalar _ => .scalar
  | array _ => .array
  | series _ => .series
  | frame _ => .frame
  | labeledArray _ => .labeledArray
  | remoteImage _ => .remoteImage
  | remoteNumber _ => .remoteNumber
  | remoteList _ => .remoteList
  | lazyArray _ => .lazyArray
  | lazySeries _ => .lazySeries
  | lazyFrame _ => .lazyFrame

/-- Values of one kind are compared as that kind compares them; values of two kinds differ. -/
def same : Value → Value → Bool
  | scalar x, scalar y => x == y
  | array a, array b => a == b
  | series s, series t => s == t
  | frame f, frame g => f == g
  | labeledArray a, labeledArray b => a == b
  | remoteImage i, remoteImage j => i == j
  | remoteNumber m, remoteNumber n => m == n
  | remoteList l, remoteList m => l == m
  | lazyArray a, lazyArray b => a == b
  | lazySeries s, lazySeries t => s == t
  | lazyFrame f, lazyFrame g => f == g
  | _, _ => false

instance : BEq Value := ⟨same⟩

/-! ## 1. The value of one kind -/

/-- The array that a value is. -/
def array? : Value → Option NDArray
  | array a => some a
  | _ => none

/-- The series that a value is. -/
def series? : Value → Option Series
  | series s => some s
  | _ => none

/-- The labeled array that a value is. -/
def labeledArray? : Value → Option LabeledArray
  | labeledArray a => some a
  | _ => none

/-- The image that a value is. -/
def remoteImage? : Value → Option RemoteImage
  | remoteImage i => some i
  | _ => none

/-- The remote number that a value is. -/
def remoteNumber? : Value → Option RemoteNumber
  | remoteNumber n => some n
  | _ => none

/-- The deferred array that a value is. -/
def lazyArray? : Value → Option LazyArray
  | lazyArray a => some a
  | _ => none

/-- The deferred series that a value is. -/
def lazySeries? : Value → Option LazySeries
  | lazySeries s => some s
  | _ => none

/-! ## 2. Computing -/

/-- Computes what is deferred and leaves everything else as it is. -/
def compute (mode : Mode) : Value → Except Error Value
  | lazyArray a => (a.compute mode).map array
  | lazySeries s => (s.compute mode).map series
  | lazyFrame f => (f.compute mode).map frame
  | v => .ok v

end Value

end BandMath
