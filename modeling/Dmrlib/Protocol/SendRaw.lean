import Dmrlib.Lib.Loop
import Dmrlib.Protocol.Homebrew
import Dmrlib.Protocol.Mmdvm

/-!
# Writing to the line and to the socket

`dmr_mmdvm_send_raw` and `dmr_homebrew_send_raw` hand a buffer to their transport, try again
while that fails for the moment, and free the buffer. The transport may take all of it, a part,
or nothing, and may fail in any way and for ever: its results are a stream.

Neither function looks at how much was taken. The modem's gives up after 17 writes that took
nothing, and then keeps the buffer; the client's never gives up.

What a run has written is recorded by the indices of the bytes.

- `WriteResult`, `Results`: what a write returns, and the results of all that may follow.
- `mmdvmSendLoop`, `homebrewSendLoop`: the two loops.
- `SendComplete`: the function returns, has written every byte once where it says so, and has
  freed the buffer.
- `ModemEnds`, `ClientEnds`: the result that ends the loop the right way.
- `sendComplete_iff`: the sequences of results under which it is complete.
- `dmrHomebrewSendRaw_ofSocketSend`: on a socket that takes whole datagrams, the client's function
  is the one of `Dmrlib.Protocol.Homebrew`.
-/

namespace Dmrlib

open Loop

namespace Transport

/-! ## Results of a write

A write takes a number of bytes or fails with an error, and some errors are a reason to try
again.
-/

/-- What the transport does with a write: it has room for a number of bytes, or fails. -/
inductive WriteResult where
  | accepted (n : Nat)
  | failed (errno : Errno)
deriving DecidableEq

/-- `INT_MAX` -/
abbrev INT_MAX : Nat := 2 ^ 31 - 1

namespace WriteResult

/-- What the write of `asked` bytes returns. -/
def ret (asked : Nat) : WriteResult → Int
  | accepted n => min n (min asked INT_MAX)
  | failed _ => -1

/-- `ret == -1 && (errno == EINVAL || errno == EAGAIN)` -/
def again : WriteResult → Bool
  | accepted _ => false
  | failed errno => errno = .EINVAL ∨ errno = .EAGAIN

theorem ret_cases (asked : Nat) (result : WriteResult) :
    (∃ n ≤ asked, result.ret asked = n ∧ result.again = false) ∨ result.ret asked = -1 := by
  cases result with
  | accepted n =>
    refine .inl ⟨min n (min asked INT_MAX), by omega, ?_, rfl⟩
    rw [ret]
    omega
  | failed errno => exact .inr rfl

end WriteResult

/-- The results of all writes to come. -/
abbrev Results := Stream' WriteResult

/-! ## The modem -/

/-- The end of the loop in `dmr_mmdvm_send_raw`: `ret`, unless it gave up; the bytes that were
written; and the results of the writes to come. -/
structure LoopEnd where
  ret : Option Int
  accepted : List Nat
  results : Results

/-- The loop in `dmr_mmdvm_send_raw`, for `fuel` rounds at most. -/
def mmdvmSendLoop (len : Nat) : (fuel : Nat) → Results → (retry pos : Nat) →
    (accepted : List Nat) → Option LoopEnd
  | 0, _, _, _, _ => none
  | fuel + 1, results, retry, pos, accepted =>
    let result := results.head
    let ret := result.ret (len - pos)
    let retry := if ret > 0 then retry else retry + 1
    let accepted := accepted ++ List.range' pos ret.toNat
    let pos := pos + ret.toNat
    if ¬ ret > 0 ∧ retry > 16 then some ⟨none, accepted, results.tail⟩
    else if ret = -1 ∧ result.again then
      mmdvmSendLoop len fuel results.tail retry pos accepted
    else some ⟨some ret, accepted, results.tail⟩

/-- What a sender leaves: its return value, the bytes that were written, how often it freed the
buffer, and the results of the writes to come. -/
structure SendResult where
  ret : Int
  accepted : List Nat
  freed : Nat
  results : Results

/-- What the modem's sender finds around it: whether there is memory for the requests that it
makes by itself. -/
structure SendEnv where
  statusAllocated : Bool
  versionAllocated : Bool
  grown : Bool

/-- What `dmr_mmdvm_get_status` and `dmr_mmdvm_get_version` share: a frame without arguments is
sent. -/
def dmrMmdvmGet (command : UInt8) (allocated grown : Bool)
    (sendRaw : Results → UInt32 → DmrRaw → Option (SendResult × UInt32)) (results : Results)
    (sent : UInt32) : Option (Results × UInt32) :=
  match dmrRawNew allocated 3 with
  | none => some (results, sent)
  | some raw =>
    let (_, raw) := dmrRawAddUint8 grown raw DMR_MMDVM_FRAME_START
    let (_, raw) := dmrRawAddUint8 grown raw 3
    let (_, raw) := dmrRawAddUint8 grown raw command
    (sendRaw results sent raw).map fun (r, sent) => (r.results, sent)

/-- `dmr_mmdvm_get_status` -/
def dmrMmdvmGetStatus (env : SendEnv) :=
  dmrMmdvmGet DMR_MMDVM_GET_STATUS env.statusAllocated env.grown

/-- `dmr_mmdvm_get_version` -/
def dmrMmdvmGetVersion (env : SendEnv) :=
  dmrMmdvmGet DMR_MMDVM_GET_VERSION env.versionAllocated env.grown

/-- `dmr_mmdvm_send_raw`, with `mmdvm->sent` before and after it. Behind every 6th frame of the
second slot the status and the version are asked for. -/
def dmrMmdvmSendRaw (env : SendEnv) : (fuel : Nat) → Results → (sent : UInt32) → DmrRaw →
    Option (SendResult × UInt32)
  | 0, _, _, _ => none
  | fuel + 1, results, sent, raw => do
    let loop ← mmdvmSendLoop raw.len fuel results 0 0 []
    match loop.ret with
    | none => return (⟨-1, loop.accepted, 0, loop.results⟩, sent)
    | some ret =>
      let ret := if ret = -1 then -1 else 0
      if raw.len > 3 ∧ raw.buf.getD 2 0 = DMR_MMDVM_DMR_DATA2 then
        let sent := sent + 1
        if sent % 6 = 0 then
          let (results, sent) ← dmrMmdvmGetStatus env (dmrMmdvmSendRaw env fuel) loop.results sent
          let (results, sent) ← dmrMmdvmGetVersion env (dmrMmdvmSendRaw env fuel) results sent
          return (⟨ret, loop.accepted, 1, results⟩, sent)
        else return (⟨ret, loop.accepted, 1, loop.results⟩, sent)
      else return (⟨ret, loop.accepted, 1, loop.results⟩, sent)

/-! ## The client -/

/-- The loop in `dmr_homebrew_send_raw`: `ret`, and the results of the writes to come. -/
def homebrewSendLoop (len : Nat) : (fuel : Nat) → Results → Option (Int × Results)
  | 0, _ => none
  | fuel + 1, results =>
    let ret := results.head.ret len
    if ret = -1 ∧ results.head.again then homebrewSendLoop len fuel results.tail
    else some (ret, results.tail)

/-- `dmr_homebrew_send_raw` -/
def dmrHomebrewSendRaw (fuel : Nat) (results : Results) (raw : DmrRaw) : Option SendResult :=
  (homebrewSendLoop raw.len fuel results).map fun (ret, results) =>
    ⟨if ret = -1 then -1 else 0, List.range ret.toNat, 1, results⟩

/-! ## Complete sends -/

/-- A run comes back; it returns 0 only if all bytes were written, in their order and each
once, and so another value otherwise; and it has freed the buffer once. -/
def SendComplete (len : Nat) (run : Nat → Option SendResult) : Prop :=
  ∃ fuel r, run fuel = some r ∧ (r.ret = 0 → r.accepted = List.range len) ∧ r.freed = 1

/-- The write that ends the modem's loop, after a number of failures: it takes all bytes, or
fails for good. The 17th write has to take something. -/
def ModemEnds (len failures : Nat) (result : WriteResult) : Prop :=
  result.ret len = len ∧ (failures ≤ 15 ∨ failures = 16 ∧ 0 < len) ∨
    result.ret len = -1 ∧ failures ≤ 15

/-- The write that ends the client's loop: it takes all bytes, or fails for good. -/
def ClientEnds (len : Nat) (result : WriteResult) : Prop :=
  result.ret len = len ∨ result.ret len = -1

/-! ## The modem's loop

The loop counts the writes that took nothing. What it returns is the result of the first write that
is final, if that comes soon enough.
-/

section Modem

variable {len : Nat}

/-- As long as nothing is taken, a round begins where the one before it did. -/
theorem mmdvmSendLoop_succ (fuel : Nat) (results : Results) (retry : Nat) :
    mmdvmSendLoop len (fuel + 1) results retry 0 [] =
      if 0 < results.head.ret len then
        some ⟨some (results.head.ret len), List.range (results.head.ret len).toNat, results.tail⟩
      else if 16 ≤ retry then some ⟨none, [], results.tail⟩
      else if results.head.again then mmdvmSendLoop len fuel results.tail (retry + 1) 0 []
      else some ⟨some (results.head.ret len), [], results.tail⟩ := by
  rw [mmdvmSendLoop]
  simp only [Nat.sub_zero, List.nil_append, Nat.zero_add]
  by_cases hpos : 0 < results.head.ret len
  · have hne : results.head.ret len ≠ -1 := by omega
    rw [if_pos hpos, if_neg (fun h => h.1 hpos), if_neg (fun h => hne h.1), if_pos hpos,
      List.range_eq_range']
  · have hzero : (results.head.ret len).toNat = 0 := by omega
    rw [if_neg hpos, hzero, List.range'_zero]
    simp only [hpos, if_false, not_false_eq_true, true_and]
    have hretry : retry + 1 > 16 ↔ 16 ≤ retry := by omega
    simp only [hretry]
    congr 1
    obtain ⟨n, -, hn, hfinal⟩ | hfailed := results.head.ret_cases len
    · have hne : results.head.ret len ≠ -1 := by omega
      rw [if_neg (fun h => hne h.1), hfinal]
      rfl
    · simp only [hfailed, true_and]

/-- With enough rounds the loop comes back. -/
theorem mmdvmSendLoop_returns {fuel retry : Nat} (h : 17 ≤ retry + fuel) (hretry : retry ≤ 16)
    (results : Results) : ∃ e, mmdvmSendLoop len fuel results retry 0 [] = some e := by
  induction fuel generalizing retry results with
  | zero => omega
  | succ fuel ih =>
    rw [mmdvmSendLoop_succ]
    split
    · exact ⟨_, rfl⟩
    split
    · exact ⟨_, rfl⟩
    next hlt =>
      split
      · exact ih (by omega) (by omega) results.tail
      · exact ⟨_, rfl⟩

/-- The loop has not given up, and if it did not fail, it has written everything. -/
def LoopEnd.Complete (len : Nat) (e : LoopEnd) : Prop :=
  ∃ ret, e.ret = some ret ∧ (ret ≠ -1 → e.accepted = List.range len)

theorem complete_gaveUp_iff (accepted : List Nat) (results : Results) :
    LoopEnd.Complete len ⟨none, accepted, results⟩ ↔ False := by
  refine iff_of_false ?_ not_false
  rintro ⟨ret, hret, -⟩
  cases hret

theorem complete_done_iff (ret : Int) (accepted : List Nat) (results : Results) :
    LoopEnd.Complete len ⟨some ret, accepted, results⟩ ↔
      (ret ≠ -1 → accepted = List.range len) := by
  constructor
  · rintro ⟨ret', hret, h⟩
    cases hret
    exact h
  · intro h
    exact ⟨ret, rfl, h⟩

theorem range_eq_range_iff (m n : Nat) : List.range m = List.range n ↔ m = n := by
  constructor
  · intro h
    have hlen := congrArg List.length h
    rwa [List.length_range, List.length_range] at hlen
  · exact congrArg List.range

/-- The end of the loop is told by the first write that is not to be tried again. -/
theorem mmdvmSendLoop_complete_iff {fuel retry : Nat} {results : Results} {e : LoopEnd}
    (hretry : retry ≤ 16) (h : mmdvmSendLoop len fuel results retry 0 [] = some e) :
    e.Complete len ↔
      ∃ k, FirstFinal WriteResult.again results k ∧ ModemEnds len (retry + k) (results.get k) := by
  induction fuel generalizing retry results with
  | zero => cases h
  | succ fuel ih =>
    rw [mmdvmSendLoop_succ] at h
    cases hagain : results.head.again with
    | false =>
      rw [exists_firstFinal_iff_of_final hagain fun k => ModemEnds len (retry + k) (results.get k)]
      show _ ↔ ModemEnds len retry results.head
      rw [hagain] at h
      unfold ModemEnds
      split at h
      · -- a part is taken, or all
        next hpos =>
        cases h
        rw [complete_done_iff, range_eq_range_iff]
        omega
      split at h
      · -- the 17th write takes nothing
        next hnone hmany =>
        cases h
        rw [complete_gaveUp_iff]
        refine iff_of_false not_false fun hends => ?_
        omega
      · next hnone hfew =>
        cases h
        rw [complete_done_iff, ← List.range_zero, range_eq_range_iff]
        obtain ⟨n, -, hn, -⟩ | hfailed := results.head.ret_cases len
        · omega
        · omega
    | true =>
      rw [exists_firstFinal_iff_of_again hagain fun k => ModemEnds len (retry + k) (results.get k)]
      have hfailed : results.head.ret len = -1 := by
        obtain ⟨n, -, -, hfinal⟩ | hfailed := results.head.ret_cases len
        · exact absurd (hagain.symm.trans hfinal) (by decide)
        · exact hfailed
      rw [hfailed, if_neg (by decide), hagain, if_pos rfl] at h
      split at h
      · next hmany =>
        cases h
        rw [complete_gaveUp_iff]
        refine iff_of_false not_false ?_
        rintro ⟨k, -, hends⟩
        unfold ModemEnds at hends
        omega
      · next hfew =>
        rw [ih (by omega) h]
        simp only [Nat.add_right_comm retry 1, ← Nat.add_assoc]
        rfl

/-- What the rest of `dmr_mmdvm_send_raw` makes of the loop. -/
theorem dmrMmdvmSendRaw_loop {env : SendEnv} {fuel : Nat} {results : Results} {sent : UInt32}
    {raw : DmrRaw} {r : SendResult × UInt32}
    (h : dmrMmdvmSendRaw env (fuel + 1) results sent raw = some r) :
    ∃ loop, mmdvmSendLoop raw.len fuel results 0 0 [] = some loop ∧
      r.1.accepted = loop.accepted ∧
      (loop.ret = none ∧ r.1.freed = 0 ∨
        ∃ ret, loop.ret = some ret ∧ r.1.ret = (if ret = -1 then -1 else 0) ∧ r.1.freed = 1) := by
  rw [dmrMmdvmSendRaw] at h
  obtain ⟨loop, hloop, h⟩ := Option.bind_eq_some_iff.mp h
  refine ⟨loop, hloop, ?_⟩
  cases hret : loop.ret with
  | none =>
    rw [hret] at h
    cases h
    exact ⟨rfl, .inl ⟨rfl, rfl⟩⟩
  | some ret =>
    rw [hret] at h
    simp only at h
    split at h
    -- the requests that may follow do not change what is returned
    · split at h
      · obtain ⟨_, -, h⟩ := Option.bind_eq_some_iff.mp h
        obtain ⟨_, -, h⟩ := Option.bind_eq_some_iff.mp h
        cases h
        exact ⟨rfl, .inr ⟨ret, rfl, rfl, rfl⟩⟩
      · cases h
        exact ⟨rfl, .inr ⟨ret, rfl, rfl, rfl⟩⟩
    · cases h
      exact ⟨rfl, .inr ⟨ret, rfl, rfl, rfl⟩⟩

/-- A request of three bytes is sent without another one behind it. -/
theorem dmrMmdvmSendRaw_short (env : SendEnv) {fuel : Nat} (h : 17 ≤ fuel) (results : Results)
    (sent : UInt32) {raw : DmrRaw} (hlen : raw.len ≤ 3) :
    ∃ r, dmrMmdvmSendRaw env (fuel + 1) results sent raw = some r := by
  obtain ⟨loop, hloop⟩ := @mmdvmSendLoop_returns raw.len fuel 0 (by omega) (by decide) results
  rw [dmrMmdvmSendRaw, hloop]
  cases hret : loop.ret with
  | none =>
    refine ⟨(⟨-1, loop.accepted, 0, loop.results⟩, sent), ?_⟩
    simp only [Option.bind_eq_bind, Option.bind_some, hret]
    rfl
  | some ret =>
    have hshort : ¬ (raw.len > 3 ∧ raw.buf.getD 2 0 = DMR_MMDVM_DMR_DATA2) := fun h => by omega
    refine ⟨(⟨if ret = -1 then -1 else 0, loop.accepted, 1, loop.results⟩, sent), ?_⟩
    simp only [Option.bind_eq_bind, Option.bind_some, hret, if_neg hshort]
    rfl

theorem dmrMmdvmGet_returns (env : SendEnv) {fuel : Nat} (h : 17 ≤ fuel) (command : UInt8)
    (allocated grown : Bool) (results : Results) (sent : UInt32) :
    ∃ r, dmrMmdvmGet command allocated grown (dmrMmdvmSendRaw env (fuel + 1)) results sent =
      some r := by
  unfold dmrMmdvmGet
  cases allocated with
  | false => exact ⟨_, rfl⟩
  | true =>
    have hnew : dmrRawNew true 3 = some (.holding 128 []) := rfl
    simp (disch := simp) only [hnew, dmrRawAddUint8, dmrRawAdd_holding]
    obtain ⟨r, hr⟩ := dmrMmdvmSendRaw_short env h results sent
      (show (DmrRaw.holding 128 ([] ++ [DMR_MMDVM_FRAME_START] ++ [3] ++ [command])).len ≤ 3 by
        simp [DmrRaw.holding])
    rw [hr]
    exact ⟨_, rfl⟩

/-- `dmr_mmdvm_send_raw` comes back from every transport. -/
theorem dmrMmdvmSendRaw_returns (env : SendEnv) (results : Results) (sent : UInt32)
    (raw : DmrRaw) : ∃ r, dmrMmdvmSendRaw env 19 results sent raw = some r := by
  obtain ⟨loop, hloop⟩ := @mmdvmSendLoop_returns raw.len 18 0 (by omega) (by decide) results
  rw [dmrMmdvmSendRaw, hloop]
  simp only [Option.bind_eq_bind, Option.bind_some]
  split
  · exact ⟨_, rfl⟩
  split
  · split
    · obtain ⟨r₁, hr₁⟩ := dmrMmdvmGet_returns env (Nat.le_refl 17) DMR_MMDVM_GET_STATUS
        env.statusAllocated env.grown loop.results (sent + 1)
      obtain ⟨r₂, hr₂⟩ := dmrMmdvmGet_returns env (Nat.le_refl 17) DMR_MMDVM_GET_VERSION
        env.versionAllocated env.grown r₁.1 r₁.2
      rw [dmrMmdvmGetStatus, hr₁, Option.bind_some, dmrMmdvmGetVersion, hr₂]
      exact ⟨_, rfl⟩
    · exact ⟨_, rfl⟩
  · exact ⟨_, rfl⟩

/-- The buffer is freed and the return value is right if the loop has ended well. -/
theorem dmrMmdvmSendRaw_complete_iff (env : SendEnv) (results : Results) (sent : UInt32)
    (raw : DmrRaw) :
    SendComplete raw.len (fun fuel =>
        (dmrMmdvmSendRaw env fuel results sent raw).map Prod.fst) ↔
      ∃ k, FirstFinal WriteResult.again results k ∧ ModemEnds raw.len k (results.get k) := by
  -- one unit of fuel is enough to tell, as the loop inside has its own bound
  have hends : ∀ {fuel : Nat} {r : SendResult × UInt32},
      dmrMmdvmSendRaw env (fuel + 1) results sent raw = some r →
      (((r.1.ret = 0 → r.1.accepted = List.range raw.len) ∧ r.1.freed = 1) ↔
        ∃ k, FirstFinal WriteResult.again results k ∧ ModemEnds raw.len k (results.get k)) := by
    intro fuel r hr
    obtain ⟨loop, hloop, haccepted, hcases⟩ := dmrMmdvmSendRaw_loop hr
    have hcomplete := mmdvmSendLoop_complete_iff (by decide) hloop
    simp only [Nat.zero_add] at hcomplete
    rw [← hcomplete, haccepted]
    obtain ⟨hnone, hfreed⟩ | ⟨ret, hsome, hret, hfreed⟩ := hcases
    · refine iff_of_false ?_ ?_
      · rintro ⟨-, hone⟩
        rw [hfreed] at hone
        exact absurd hone (by decide)
      · rintro ⟨ret, hsome, -⟩
        rw [hnone] at hsome
        cases hsome
    · have hzero : r.1.ret = 0 ↔ ret ≠ -1 := by
        rw [hret]
        split <;> simp_all
      rw [hzero, and_iff_left hfreed]
      constructor
      · intro h
        exact ⟨ret, hsome, h⟩
      · rintro ⟨ret', hsome', h⟩
        rw [hsome, Option.some.injEq] at hsome'
        rwa [hsome']
  constructor
  · rintro ⟨fuel, r, hrun, hret, hfreed⟩
    obtain ⟨r', hr', rfl⟩ := Option.map_eq_some_iff.mp hrun
    cases fuel with
    | zero => cases hr'
    | succ fuel => exact (hends hr').mp ⟨hret, hfreed⟩
  -- and 19 are always enough
  · intro h
    obtain ⟨r, hr⟩ := dmrMmdvmSendRaw_returns env results sent raw
    obtain ⟨hret, hfreed⟩ := (hends hr).mpr h
    exact ⟨19, r.1, congrArg (Option.map Prod.fst) hr, hret, hfreed⟩

end Modem

/-! ## The client's loop

The same without a count: where no write is final, the loop does not return.
-/

section Client

variable {len : Nat}

/-- The loop comes back if some write is not to be tried again. -/
theorem homebrewSendLoop_returns {k : Nat} {results : Results}
    (h : FirstFinal WriteResult.again results k) :
    ∃ r, homebrewSendLoop len (k + 1) results = some r := by
  induction k generalizing results with
  | zero =>
    have hfinal : results.head.again = false := h.2
    refine ⟨(results.head.ret len, results.tail), ?_⟩
    rw [homebrewSendLoop]
    exact if_neg fun hagain => absurd (hagain.2.symm.trans hfinal) (by decide)
  | succ k ih =>
    have hagain : results.head.again = true := h.1 0 (Nat.succ_pos k)
    obtain ⟨r, hr⟩ := ih ((firstFinal_succ_iff hagain k).mp h)
    refine ⟨r, ?_⟩
    rw [homebrewSendLoop]
    split
    · exact hr
    · next hnot =>
      obtain ⟨n, -, -, hfinal⟩ | hfailed := results.head.ret_cases len
      · exact absurd (hagain.symm.trans hfinal) (by decide)
      · exact absurd ⟨hfailed, hagain⟩ hnot

/-- The end of the loop is told by the first write that is not to be tried again. -/
theorem homebrewSendLoop_complete_iff {fuel : Nat} {results : Results} {r : Int × Results}
    (h : homebrewSendLoop len fuel results = some r) :
    (r.1 ≠ -1 → List.range r.1.toNat = List.range len) ↔
      ∃ k, FirstFinal WriteResult.again results k ∧ ClientEnds len (results.get k) := by
  induction fuel generalizing results with
  | zero => cases h
  | succ fuel ih =>
    rw [homebrewSendLoop] at h
    split at h
    · next hagain =>
      rw [ih h, exists_firstFinal_iff_of_again hagain.2 fun k => ClientEnds len (results.get k)]
      rfl
    · next hnot =>
      cases h
      have hlast : results.head.again = false := by
        obtain ⟨n, -, -, hlast⟩ | hfailed := results.head.ret_cases len
        · exact hlast
        · exact Bool.eq_false_iff.mpr fun hagain => hnot ⟨hfailed, hagain⟩
      rw [exists_firstFinal_iff_of_final hlast fun k => ClientEnds len (results.get k)]
      show _ ↔ ClientEnds len results.head
      rw [range_eq_range_iff, ClientEnds]
      obtain ⟨n, -, hn, -⟩ | hfailed := results.head.ret_cases len
      · omega
      · omega

theorem dmrHomebrewSendRaw_complete_iff (results : Results) (raw : DmrRaw) :
    SendComplete raw.len (fun fuel => dmrHomebrewSendRaw fuel results raw) ↔
      ∃ k, FirstFinal WriteResult.again results k ∧ ClientEnds raw.len (results.get k) := by
  have hzero : ∀ ret : Int, (if ret = -1 then (-1 : Int) else 0) = 0 ↔ ret ≠ -1 := by
    intro ret
    split <;> simp_all
  constructor
  · rintro ⟨fuel, r, hrun, hret, -⟩
    obtain ⟨s, hloop, rfl⟩ := Option.map_eq_some_iff.mp hrun
    rw [hzero] at hret
    exact (homebrewSendLoop_complete_iff hloop).mp hret
  · rintro ⟨k, hk, hends⟩
    obtain ⟨s, hloop⟩ := @homebrewSendLoop_returns raw.len k results hk
    refine ⟨k + 1, ⟨if s.1 = -1 then -1 else 0, List.range s.1.toNat, 1, s.2⟩, ?_, ?_, rfl⟩
    · exact congrArg (Option.map _) hloop
    · rw [hzero]
      exact (homebrewSendLoop_complete_iff hloop).mpr ⟨k, hk, hends⟩

end Client

/-- **Sending.** For every buffer and every stream of results. The modem's sender is complete
exactly if the first write that is not to be tried again comes soon enough, and takes all bytes
or fails for good; the client's exactly if there is such a write, and it does so. -/
theorem sendComplete_iff (env : SendEnv) (results : Results) (sent : UInt32) (raw : DmrRaw) :
    (SendComplete raw.len (fun fuel =>
        (dmrMmdvmSendRaw env fuel results sent raw).map Prod.fst) ↔
      ∃ k, FirstFinal WriteResult.again results k ∧ ModemEnds raw.len k (results.get k)) ∧
    (SendComplete raw.len (fun fuel => dmrHomebrewSendRaw fuel results raw) ↔
      ∃ k, FirstFinal WriteResult.again results k ∧ ClientEnds raw.len (results.get k)) :=
  ⟨dmrMmdvmSendRaw_complete_iff env results sent raw, dmrHomebrewSendRaw_complete_iff results raw⟩

/-- A modem that takes 10 bytes of 37 is sent nothing more, and the call returns 0. One that is
never ready keeps the buffer from being freed, and a socket that is never ready keeps the call
from returning. -/
theorem not_sendComplete_transports :
    let env : SendEnv := ⟨true, true, true⟩
    let raw : DmrRaw := .holding 128 ([0xe0, 37, 0x18, 0] ++ List.replicate 33 0)
    let part : Results := Stream'.cons (.accepted 10) (Stream'.const (.accepted 37))
    let never : Results := Stream'.const (.failed .EAGAIN)
    ((dmrMmdvmSendRaw env 19 part 0 raw).map fun r => (r.1.ret, r.1.accepted)) =
        some (0, List.range 10) ∧
      ((dmrMmdvmSendRaw env 19 never 0 raw).map fun r => (r.1.ret, r.1.freed)) = some (-1, 0) ∧
      (∀ fuel, dmrHomebrewSendRaw fuel never raw = none) ∧
      ¬ SendComplete 37 (fun fuel => (dmrMmdvmSendRaw env fuel part 0 raw).map Prod.fst) ∧
      ¬ SendComplete 37 (fun fuel => (dmrMmdvmSendRaw env fuel never 0 raw).map Prod.fst) ∧
      ¬ SendComplete 37 (fun fuel => dmrHomebrewSendRaw fuel never raw) := by
  intro env raw part never
  have hnever : ∀ k, ¬ FirstFinal WriteResult.again never k := fun k hk =>
    absurd hk.2 (show ¬ true = false by decide)
  have hloop : ∀ fuel, homebrewSendLoop 37 fuel never = none := by
    intro fuel
    induction fuel with
    | zero => rfl
    | succ fuel ih => exact ih
  refine ⟨rfl, rfl, fun fuel => congrArg (Option.map _) (hloop fuel), ?_, ?_, ?_⟩
  -- the first write takes a part, and the loop takes that for all
  · rw [show 37 = raw.len from rfl, dmrMmdvmSendRaw_complete_iff,
      exists_firstFinal_iff_of_final (show WriteResult.again part.head = false from rfl)]
    show ¬ ModemEnds 37 0 (.accepted 10)
    unfold ModemEnds
    decide
  -- no write is final
  · rw [show 37 = raw.len from rfl, dmrMmdvmSendRaw_complete_iff]
    rintro ⟨k, hk, -⟩
    exact hnever k hk
  · rw [show 37 = raw.len from rfl, dmrHomebrewSendRaw_complete_iff]
    rintro ⟨k, hk, -⟩
    exact hnever k hk

/-! ## Datagrams

A socket takes a datagram as a whole or fails. With such results the client's loop is that of
`Dmrlib.Protocol.Homebrew`.
-/

/-- A socket sends a datagram or does not. -/
def ofSocketSend (len : Nat) : SocketSend → WriteResult
  | .sent => .accepted len
  | .failed errno => .failed errno

/-- The client of the other modules is this one, on a socket that sends whole datagrams. -/
theorem dmrHomebrewSendRaw_ofSocketSend {raw : DmrRaw} (hlen : raw.len ≤ INT_MAX)
    {sends : List SocketSend} {r : Int × List (List UInt8)}
    (h : Dmrlib.dmrHomebrewSendRaw raw sends = some r) (results : Results) :
    ∃ s, dmrHomebrewSendRaw sends.length
        (Stream'.appendStream' (sends.map (ofSocketSend raw.len)) results) raw = some s ∧
      s.ret = r.1 ∧ s.accepted = if r.1 = 0 then List.range raw.len else [] := by
  have hsent : WriteResult.ret raw.len (.accepted raw.len) = raw.len := by
    rw [WriteResult.ret]
    omega
  have hcons : ∀ (fuel : Nat) (result : WriteResult) (rest : Results),
      homebrewSendLoop raw.len (fuel + 1) (Stream'.cons result rest) =
        if result.ret raw.len = -1 ∧ result.again then homebrewSendLoop raw.len fuel rest
        else some (result.ret raw.len, rest) := fun _ _ _ => rfl
  induction sends with
  | nil => cases h
  -- the results of the socket are taken one by one, until one is final
  | cons send sends ih =>
    rw [List.map_cons, List.length_cons, dmrHomebrewSendRaw, Stream'.cons_append_stream, hcons]
    cases send with
    | sent =>
      cases h
      have hne : (raw.len : Int) ≠ -1 := by omega
      rw [ofSocketSend, hsent, if_neg fun h => hne h.1, Option.map_some]
      refine ⟨_, rfl, ?_, ?_⟩
      · show (if (raw.len : Int) = -1 then (-1 : Int) else 0) = 0
        rw [if_neg hne]
      · exact congrArg List.range (Int.toNat_natCast raw.len)
    | failed errno =>
      rw [Dmrlib.dmrHomebrewSendRaw] at h
      split at h
      · next hagain =>
        rw [if_pos ⟨rfl, decide_eq_true hagain⟩]
        exact ih h
      · next hfinal =>
        cases h
        rw [if_neg fun h => hfinal (of_decide_eq_true h.2)]
        exact ⟨_, rfl, rfl, rfl⟩

end Transport

end Dmrlib
