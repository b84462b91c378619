/-
# Modes of working

Independent pieces of work, such as the indices of a batch or the chunks of a deferred array, may be
done one after the other or in tasks of their own.  The results always come in the order of the
pieces; `map_eq` says that no result depends on the mode.

`Mode.map` is `par_map`: a function and items go in, results come out.  The function is pure, so a
task can neither see what another one does nor leave anything behind, and to fail is to have an
error as a result.  The results are looked at in their order once all are there, whence the first
error in the order of the pieces is reported also where a later piece failed earlier.

`ofThreads` (`from_threads`) maps what a user asks for to a mode: nothing and one thread stand for
working in sequence, and none at all for as many threads as there are cores.  The number of threads
bounds how much is done at the same time and has no bearing on what is done; tasks are handed to the
scheduler, whatever the number.
-/

namespace BandMath

/-- How pieces of work are shared out. -/
inductive Mode where
  | sequential
  /-- As many threads as there are cores. -/
  | parallel
  | parallelWith (threads : Nat)
  deriving Repr, DecidableEq

namespace Mode

/-- The mode that a number of threads asks for; 0 stands for all cores. -/
def ofThreads : Option Nat → Mode
  | none | some 1 => sequential
  | some 0 => parallel
  | some n => parallelWith n

/-- Whether pieces of work may be done at the same time. -/
def isParallel : Mode → Bool
  | sequential => false
  | _ => true

/-- Does a piece of work for every item. -/
def map {α β : Type} (m : Mode) (f : α → β) (items : List α) : List β :=
  if m.isParallel then (items.map fun x => Task.spawn fun _ => f x).map Task.get
  else items.map f

theorem map_eq {α β : Type} (m : Mode) (f : α → β) (items : List α) :
    m.map f items = items.map f := by
  unfold map
  split
  · simp [Task.spawn]
  · rfl

end Mode

end BandMath
