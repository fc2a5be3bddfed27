/-!
# Instants

Points of time in UTC, counted in whole seconds and nanoseconds from the Unix
epoch.  The nanoseconds always count forward, so the whole seconds of an
instant are its floor.  Instants are bounded by the first and the last second
of the calendar that the store writes its cutoffs in.  Points of time within a
leap second, which count more than a second's nanoseconds, are not covered.
-/

namespace MessageStore

/-- The first second that an instant can have. -/
def Instant.earliest : Int := -8334601228800

/-- The last second that an instant can have. -/
def Instant.latest : Int := 8210266876799

/-- A point of time: `seconds` since the Unix epoch, and `nanos` nanoseconds after that second. -/
structure Instant where
  seconds : Int
  nanos : Nat
  earliest_le : Instant.earliest ≤ seconds
  le_latest : seconds ≤ Instant.latest
  nanos_lt : nanos < 1000000000
  deriving DecidableEq, Repr

namespace Instant

/-- The instant with the given parts, if they are in range. -/
def of? (seconds : Int) (nanos : Nat) : Option Instant :=
  if h : (earliest ≤ seconds ∧ seconds ≤ latest) ∧ nanos < 1000000000 then
    some ⟨seconds, nanos, h.1.1, h.1.2, h.2⟩
  else
    none

/-- The instant that lies the given number of whole seconds earlier, if there is one. -/
def minus? (instant : Instant) (seconds : Nat) : Option Instant :=
  of? (instant.seconds - seconds) instant.nanos

theorem of?_eq_some_iff {seconds : Int} {nanos : Nat} {instant : Instant} :
    of? seconds nanos = some instant ↔
      instant.seconds = seconds ∧ instant.nanos = nanos := by
  unfold of?
  constructor
  · intro found
    split at found
    · cases found
      exact ⟨rfl, rfl⟩
    · cases found
  · rintro ⟨rfl, rfl⟩
    rw [dif_pos ⟨⟨instant.earliest_le, instant.le_latest⟩, instant.nanos_lt⟩]

theorem of?_eq_none_iff {seconds : Int} {nanos : Nat} :
    of? seconds nanos = none ↔
      ¬ ((earliest ≤ seconds ∧ seconds ≤ latest) ∧ nanos < 1000000000) := by
  unfold of?
  split
  · rename_i inRange
    simp only [reduceCtorEq, inRange, and_self, not_true_eq_false]
  · rename_i outOfRange
    simp only [outOfRange, not_false_eq_true]

end Instant

end MessageStore
