import MessageStore.Host.FileTree
import MessageStore.Session.Target

/-!
# Handles

A handle gives access to one dataset, or to a store that keeps nothing.  Several
handles can be on one dataset.  A handle on a dataset may remember how it was
opened, so that a copy of it can be opened in the same way.
-/

namespace MessageStore

/-- Where data is kept. -/
inductive Dataset
  /-- In a file. -/
  | file (place : Host.Place)
  /-- In memory, under a name. -/
  | named (backend : Backend) (name : List UInt8)
  /-- In memory, for one handle. -/
  | numbered (number : Nat)
  deriving DecidableEq, Repr

/-- How changes get into a dataset. -/
inductive Journal
  /-- They are kept in a log beside the file until nobody uses it any more. -/
  | logged
  /-- They are made in place. -/
  | direct
  /-- There are none: the dataset never changes. -/
  | none
  deriving DecidableEq, Repr

/-- How a dataset is used. -/
structure Access where
  backend : Backend := .standard
  journal : Journal := .direct
  readOnly : Bool := false
  /-- Whether others that ask for it use the dataset in the same way. -/
  shared : Bool := false
  deriving DecidableEq, Repr

/-- A dataset in use. -/
structure Connection where
  dataset : Dataset
  access : Access := {}
  deriving DecidableEq, Repr

/-- How a handle was opened, which is what a copy of it repeats. -/
inductive Origin
  /-- On a path. -/
  | path (path : String)
  /-- On the store in memory whose name is made of the given bits. -/
  | memory (bits : Nat)
  deriving DecidableEq, Repr

/-- A handle. -/
inductive Handle
  /-- On a dataset.  A handle that was opened by a configuration has no origin. -/
  | on (connection : Connection) (origin : Option Origin)
  /-- On a store that keeps nothing. -/
  | discarding
  deriving DecidableEq, Repr

namespace Handle

/-- What a handle is on. -/
def connection? : Handle → Option Connection
  | on connection _ => some connection
  | discarding => none

/-- The dataset that a handle is on. -/
def dataset? (handle : Handle) : Option Dataset :=
  handle.connection?.map (·.dataset)

/-- How a handle was opened, if a copy can repeat it. -/
def origin? : Handle → Option Origin
  | on _ origin => origin
  | discarding => none

end Handle

end MessageStore
