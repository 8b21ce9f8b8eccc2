/-!
# Durations

A duration is a whole number of nanoseconds.  An instant is the duration since
time began, so one type serves for both.

## Main Definitions

* `Duration` — with `ofMicros`, `ofMillis` and `ofSecs`.
* `Duration.millis`, `Duration.micros`, `Duration.secs` — the whole units in a
  duration; what is left over is dropped.
* `Duration.millis64` — the whole milliseconds in a 64-bit word, which drops the
  high bits of a longer duration.

## Design Notes

There is no longest duration and no last instant.  A clock has one, and adding a
duration that leads beyond it panics; sums here are those of the natural numbers,
and that panic is left out.
-/

namespace Upkeep

/-- A length of time in nanoseconds. -/
@[ext] structure Duration where
  nanos : Nat
  deriving DecidableEq, Repr, Inhabited

namespace Duration

/-- So many microseconds. -/
def ofMicros (n : Nat) : Duration := ⟨n * 1000⟩

/-- So many milliseconds. -/
def ofMillis (n : Nat) : Duration := ⟨n * 1000000⟩

/-- So many seconds. -/
def ofSecs (n : Nat) : Duration := ⟨n * 1000000000⟩

/-- The whole microseconds in a duration. -/
def micros (d : Duration) : Nat := d.nanos / 1000

/-- The whole milliseconds in a duration. -/
def millis (d : Duration) : Nat := d.nanos / 1000000

/-- The whole seconds in a duration. -/
def secs (d : Duration) : Nat := d.nanos / 1000000000

/-- The whole milliseconds as a 64-bit word. -/
def millis64 (d : Duration) : UInt64 := UInt64.ofNat d.millis

instance : LE Duration := ⟨fun a b => a.nanos ≤ b.nanos⟩
instance : LT Duration := ⟨fun a b => a.nanos < b.nanos⟩
instance : Add Duration := ⟨fun a b => ⟨a.nanos + b.nanos⟩⟩
instance : Sub Duration := ⟨fun a b => ⟨a.nanos - b.nanos⟩⟩
instance : OfNat Duration 0 := ⟨⟨0⟩⟩

instance (a b : Duration) : Decidable (a ≤ b) := inferInstanceAs (Decidable (a.nanos ≤ b.nanos))
instance (a b : Duration) : Decidable (a < b) := inferInstanceAs (Decidable (a.nanos < b.nanos))

theorem le_def {a b : Duration} : a ≤ b ↔ a.nanos ≤ b.nanos := Iff.rfl

theorem lt_def {a b : Duration} : a < b ↔ a.nanos < b.nanos := Iff.rfl

@[simp] theorem nanos_add (a b : Duration) : (a + b).nanos = a.nanos + b.nanos := rfl

@[simp] theorem nanos_sub (a b : Duration) : (a - b).nanos = a.nanos - b.nanos := rfl

@[simp] theorem nanos_zero : (0 : Duration).nanos = 0 := rfl

@[simp] theorem millis_ofMillis (n : Nat) : (ofMillis n).millis = n := by
  simp [ofMillis, millis]

@[simp] theorem micros_ofMicros (n : Nat) : (ofMicros n).micros = n := by
  simp [ofMicros, micros]

end Duration

end Upkeep
