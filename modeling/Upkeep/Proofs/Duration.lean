import Mathlib.Order.Defs.LinearOrder
import Upkeep.Duration

/-!
# The order of instants

Durations are ordered as their nanoseconds, so all that is known about linear orders
is known about instants.
-/

namespace Upkeep.Duration

instance : LinearOrder Duration where
  le_refl a := Nat.le_refl a.nanos
  le_trans _ _ _ := Nat.le_trans
  lt_iff_le_not_ge a b := Nat.lt_iff_le_and_not_ge (m := a.nanos) (n := b.nanos)
  le_antisymm _ _ hab hba := Duration.ext (Nat.le_antisymm hab hba)
  le_total a b := Nat.le_total a.nanos b.nanos
  toDecidableLE := inferInstance

theorem le_add_right (a b : Duration) : a ≤ a + b := Nat.le_add_right a.nanos b.nanos

theorem add_assoc (a b c : Duration) : a + b + c = a + (b + c) :=
  Duration.ext (Nat.add_assoc a.nanos b.nanos c.nanos)

end Upkeep.Duration
