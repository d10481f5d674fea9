import Dmrlib.Time

/-!
# I/O (`src/dmr/io.c`)

Calls into the operating system report failures in `errno`. The I/O loop keeps its
timers in a list, newest first. A timer is known by its callback
alone: `dmrIoDelTimer` removes the first one it finds with a given callback,
whoever registered it.

- `Errno`: the failures that the code tells apart.
- `dmrIoRegTimer`, `dmrIoDelTimer`: a timer is put at the head of the list, and the first one with
  a given callback is taken off it.

The repeater is modelled over these two (`Dmrlib.Noisebridge.Repeater`). The loop with all of its
lists is in `Dmrlib.Io.Registry`.
-/

namespace Dmrlib

/-- The values of `errno` that the library tests for, and all others. -/
inductive Errno where
  | EAGAIN
  | EINTR
  | EINVAL
  | other
deriving DecidableEq

/-- `dmr_io_timer`; `κ` is the type of callbacks. -/
structure DmrIoTimer (κ : Type) where
  timeout : Timeval
  wallclock : Timeval
  cb : κ
  once : Bool

/-- `dmr_io`, as far as timers are concerned. -/
structure DmrIo (κ : Type) where
  wallclock : Timeval
  timer : List (DmrIoTimer κ)

variable {κ : Type}

/-- `dmr_io_reg_timer`; `allocated` tells whether there is memory for the timer. -/
def dmrIoRegTimer (io : DmrIo κ) (timeout : Timeval) (cb : κ) (once allocated : Bool) :
    Int × DmrIo κ :=
  if allocated then
    (0, { io with timer := ⟨timeout, timeradd io.wallclock timeout, cb, once⟩ :: io.timer })
  else (-1, io)

/-- `dmr_io_del_timer` -/
def dmrIoDelTimer [DecidableEq κ] (io : DmrIo κ) (cb : κ) : Int × DmrIo κ :=
  (0, { io with timer := io.timer.eraseP fun t => t.cb = cb })

@[simp]
theorem wallclock_dmrIoRegTimer (io : DmrIo κ) (timeout : Timeval) (cb : κ)
    (once allocated : Bool) :
    (dmrIoRegTimer io timeout cb once allocated).2.wallclock = io.wallclock := by
  unfold dmrIoRegTimer
  split <;> rfl

@[simp]
theorem wallclock_dmrIoDelTimer [DecidableEq κ] (io : DmrIo κ) (cb : κ) :
    (dmrIoDelTimer io cb).2.wallclock = io.wallclock := rfl

end Dmrlib
