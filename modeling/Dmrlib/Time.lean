import Mathlib

/-!
# Time (`src/dmr/time.c`)

The library measures time in `struct timeval`s taken from `gettimeofday`. The clock
is modelled by its reading in microseconds; `Timeval.ofMicros` is what
`gettimeofday` stores for it.

- `timersub`, `timeradd`: the macros of the C library, with the borrow and the carry.
- `dmrTimeSince`, `dmrTimeMsSince`: the time that has passed, the latter in milliseconds.
- `Normal`: a reading whose microseconds make less than a second.
- `micros`, `Normal.micros_neg_iff`: a difference in microseconds is negative exactly when its
  seconds are.
-/

namespace Dmrlib

/-- `struct timeval` -/
@[ext]
structure Timeval where
  sec : Int
  usec : Int
deriving DecidableEq

/-- The reading of a clock that shows `n` microseconds. -/
def Timeval.ofMicros (n : Nat) : Timeval := ⟨n / 1000000, n % 1000000⟩

/-- `timersub` -/
def timersub (a b : Timeval) : Timeval :=
  if a.usec - b.usec < 0 then ⟨a.sec - b.sec - 1, a.usec - b.usec + 1000000⟩
  else ⟨a.sec - b.sec, a.usec - b.usec⟩

/-- `timeradd` -/
def timeradd (a b : Timeval) : Timeval :=
  if a.usec + b.usec ≥ 1000000 then ⟨a.sec + b.sec + 1, a.usec + b.usec - 1000000⟩
  else ⟨a.sec + b.sec, a.usec + b.usec⟩

/-- `dmr_time_since`, when the clock reads `now`. -/
def dmrTimeSince (now tv : Timeval) : UInt32 := UInt32.ofInt (timersub now tv).sec

/-- `dmr_time_ms_since`, when the clock reads `now`. -/
def dmrTimeMsSince (now tv : Timeval) : UInt32 :=
  let res := timersub now tv
  UInt32.ofInt (res.sec * 1000 + (res.usec + 500).tdiv 1000)

@[simp]
theorem Timeval.sec_ofMicros (n : Nat) : (ofMicros n).sec = n / 1000000 := rfl

@[simp]
theorem Timeval.usec_ofMicros (n : Nat) : (ofMicros n).usec = n % 1000000 := rfl

theorem timersub_ofMicros {m n : Nat} (h : m ≤ n) :
    timersub (.ofMicros n) (.ofMicros m) = .ofMicros (n - m) := by
  unfold timersub
  split
  all_goals
    next hneg =>
      simp only [Timeval.usec_ofMicros] at hneg
      ext <;> simp only [Timeval.sec_ofMicros, Timeval.usec_ofMicros] <;> omega

/-- The milliseconds are rounded to the nearest one and kept in 32 bits. -/
theorem toNat_dmrTimeMsSince {m n : Nat} (h : m ≤ n) :
    (dmrTimeMsSince (.ofMicros n) (.ofMicros m)).toNat = (n - m + 500) / 1000 % 2 ^ 32 := by
  unfold dmrTimeMsSince
  rw [timersub_ofMicros h]
  have hms : ((Timeval.ofMicros (n - m)).sec * 1000 +
      ((Timeval.ofMicros (n - m)).usec + 500).tdiv 1000) =
        (((n - m + 500) / 1000 : Nat) : Int) := by
    simp only [Timeval.sec_ofMicros, Timeval.usec_ofMicros]
    rw [Int.tdiv_eq_ediv_of_nonneg (by omega)]
    omega
  simp only [hms]
  rw [UInt32.ofInt, UInt32.toNat_ofNat']
  omega

/-! ## Times as numbers

A `timeval` as a number of microseconds; negative ones have negative seconds. -/

namespace Timeval

def micros (tv : Timeval) : Int := tv.sec * 1000000 + tv.usec

/-- The microseconds are less than a second. -/
structure Normal (tv : Timeval) : Prop where
  nonneg : 0 ≤ tv.usec
  lt : tv.usec < 1000000

instance (tv : Timeval) : Decidable tv.Normal :=
  decidable_of_iff (0 ≤ tv.usec ∧ tv.usec < 1000000) ⟨fun h => ⟨h.1, h.2⟩, fun h => ⟨h.1, h.2⟩⟩

variable {a b : Timeval}

theorem micros_timersub (a b : Timeval) : (timersub a b).micros = a.micros - b.micros := by
  unfold timersub micros
  split <;> ring

theorem Normal.timersub (ha : a.Normal) (hb : b.Normal) : (timersub a b).Normal := by
  have hanonneg := ha.nonneg
  have halt := ha.lt
  have hbnonneg := hb.nonneg
  have hblt := hb.lt
  unfold Dmrlib.timersub
  split
  · exact ⟨by dsimp only; omega, by dsimp only; omega⟩
  · exact ⟨by dsimp only; omega, by dsimp only; omega⟩

theorem Normal.timeradd (ha : a.Normal) (hb : b.Normal) : (timeradd a b).Normal := by
  have hanonneg := ha.nonneg
  have halt := ha.lt
  have hbnonneg := hb.nonneg
  have hblt := hb.lt
  unfold Dmrlib.timeradd
  split
  · exact ⟨by dsimp only; omega, by dsimp only; omega⟩
  · exact ⟨by dsimp only; omega, by dsimp only; omega⟩

theorem Normal.micros_neg_iff (ha : a.Normal) : a.micros < 0 ↔ a.sec < 0 := by
  have hnonneg := ha.nonneg
  have hlt := ha.lt
  unfold micros
  omega

end Timeval

end Dmrlib
