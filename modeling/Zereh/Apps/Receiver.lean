/-
  `apps/zereh_rx.c`: the AF_XDP receiver and the kernel, which share the frames of the UMEM.

  The receiver installs its handlers, makes the UMEM and the socket, and gives all frames to the kernel
  through the fill ring. The kernel takes a frame from the fill ring, puts a packet into it and delivers its
  address in the rx ring; the receiver reads up to 64 descriptors, returns the frame of each to the fill
  ring, and releases the descriptors. Either side may run at any time: a step of the receiver is one call,
  the kernel may take or deliver a frame or free the slots of the frames it took at any moment, and a signal
  may come. One that comes before the handlers kills the receiver.

  * `receiver_conserves`: no frame is lost or given out twice. Every frame is in exactly one place. The
    receiver exits with 1 only when it has reported a failure, and filling the ring is none of them.
  * `receiver_reads_once`: what is received is what was delivered, in its order, and `packet_count` counts
    it.
  * `receiver_stops`: after a signal the receiver exits, as long as the kernel goes on to free the slots of
    what it took; with 0 unless `zereh_init_xsk` fails after it. The loop around `xsk_ring_prod__reserve`
    waits for nothing else: it does not look at `g_stop`.

  Assumptions on libbpf and the kernel: the rings behave as `Lib.SpscRing`, and are empty when the socket is
  made. The receiver may see fewer descriptors than there are, as the library keeps a copy of the producer's
  counter. Lengths and contents of packets are not looked at; `poll` and the calls that make the UMEM and the
  socket may answer anything, and waking the kernel up (`sendto`) changes nothing here. The program is the
  one that is built with `bpf/xsk.h`; without it `main` only returns 1.
-/
import Mathlib.Data.List.Nodup
import Mathlib.Data.List.Perm.Basic
import Zereh.Lib.Simulation
import Zereh.Lib.SpscRing

namespace Zereh.Apps

open Lib

/-! ## The program -/

def numFrames : Nat := 4096
def frameSize : Nat := 4096
def rxSize : Nat := 2048
def rxBatchSize : Nat := 64

/-- What `poll` returns: at least 0, or -1 with EINTR or another error. -/
inductive Poll where
  | ready
  | eintr
  | failed

/-- What the system answers to a call, where it is asked: whether `posix_memalign`, `xsk_umem__create` or
    `xsk_socket__create` succeeds, what `poll` returns, and how many descriptors are seen at most. -/
structure Answer where
  ok : Bool
  polled : Poll
  seen : Nat

/-- The lines on stderr before an exit with 1: the usage, and one for each call of `zereh_init_xsk`. -/
inductive Failure where
  | usage
  | memalign
  | umemCreate
  | socketCreate
  | fillRing
  deriving DecidableEq

/-- The next call of the receiver. `handlers` are both calls of `signal`. `idx` is the first descriptor of a
    batch of `rcvd`, and `i` the one that is at hand. -/
inductive Pc where
  | start
  | handlers
  | memalign
  | umemCreate
  | socketCreate
  | initReserve
  | initStore (idx i : Nat)
  | initSubmit
  | poll
  | peek
  | turn (idx rcvd i : Nat)
  | reserve (idx rcvd i : Nat) (addr : UInt64)
  | store (idx rcvd i : Nat) (addr : UInt64) (idxFq : Nat)
  | submit (idx rcvd i : Nat)
  | release (rcvd : Nat)
  | report
  | exited (rc : Int)
  | killed

/-- `zereh_on_signal` is installed. -/
def Pc.handled : Pc → Bool
  | .start | .handlers | .killed => false
  | _ => true

/-- The fill ring has not been touched. -/
def Pc.early : Pc → Bool
  | .start | .handlers | .memalign | .umemCreate | .socketCreate | .initReserve | .killed => true
  | _ => false

/-- The frames have not been given to the kernel. -/
def Pc.unfilled : Pc → Bool
  | .initStore .. | .initSubmit => true
  | .exited rc => rc ≠ 0
  | pc => pc.early

/-- The rings, the frames that the kernel has at hand, and the receiver. -/
structure State where
  argc : Nat
  fq : SpscRing UInt64 numFrames
  rx : SpscRing UInt64 rxSize
  held : List UInt64
  stop : Bool
  packetCount : UInt64
  pc : Pc

def State.initial (argc : Nat) : State := ⟨argc, .empty 0, .empty 0, [], false, 0, .start⟩

inductive Event where
  | signal
  | take
  | free
  | deliver (i : Nat)
  | call (ans : Answer)

/-- What can be seen of a run. -/
inductive Note where
  | delivered (addr : UInt64)
  | received (addr : UInt64)
  | packets (count : UInt64)
  | exiting (count : UInt64)
  | failed (failure : Failure)

/-- A failing step: its line, and the exit of `main` with 1. -/
def State.fail (s : State) (failure : Failure) : Option Note × State :=
  (some (.failed failure), { s with pc := .exited 1 })

/-- One call of the receiver; it stands in `zereh_init_xsk` from `memalign` to `initSubmit` and in the loop
    of `main` from `poll` on. -/
def State.call (s : State) (ans : Answer) : Option Note × State :=
  match s.pc with
  | .start => if s.argc < 3 then s.fail .usage else (none, { s with pc := .handlers })
  | .handlers => (none, { s with pc := .memalign })
  | .memalign => if ans.ok then (none, { s with pc := .umemCreate }) else s.fail .memalign
  | .umemCreate => if ans.ok then (none, { s with pc := .socketCreate }) else s.fail .umemCreate
  | .socketCreate => if ans.ok then (none, { s with pc := .initReserve }) else s.fail .socketCreate
  | .initReserve =>
    match s.fq.reserve numFrames with
    | some (idx, fq) => (none, { s with fq := fq, pc := .initStore idx 0 })
    | none => s.fail .fillRing
  | .initStore idx i =>
    if i < numFrames then
      (none, { s with
        fq := s.fq.store (idx + i) (UInt64.ofNat (i * frameSize)), pc := .initStore idx (i + 1) })
    else (none, { s with pc := .initSubmit })
  | .initSubmit => (none, { s with fq := s.fq.submit numFrames, pc := .poll })
  | .poll =>
    if s.stop then (some (.exiting s.packetCount), { s with pc := .exited 0 })
    else
      match ans.polled with
      | .ready => (none, { s with pc := .peek })
      | .eintr => (none, s)
      | .failed => (some (.exiting s.packetCount), { s with pc := .exited 0 })
  | .peek =>
    match s.rx.peek (min rxBatchSize ans.seen) with
    | (rcvd, idx, rx) =>
      if rcvd = 0 then (none, { s with rx := rx, pc := .poll })
      else (none, { s with rx := rx, pc := .turn idx rcvd 0 })
  | .turn idx rcvd i =>
    if i < rcvd then
      (some (.received (s.rx.load (idx + i))),
        { s with packetCount := s.packetCount + 1, pc := .reserve idx rcvd i (s.rx.load (idx + i)) })
    else (none, { s with pc := .release rcvd })
  | .reserve idx rcvd i addr =>
    match s.fq.reserve 1 with
    | some (idxFq, fq) => (none, { s with fq := fq, pc := .store idx rcvd i addr idxFq })
    | none => (none, s)
  | .store idx rcvd i addr idxFq =>
    (none, { s with fq := s.fq.store idxFq addr, pc := .submit idx rcvd i })
  | .submit idx rcvd i => (none, { s with fq := s.fq.submit 1, pc := .turn idx rcvd (i + 1) })
  | .release rcvd => (none, { s with rx := s.rx.release rcvd, pc := .report })
  | .report =>
    (if s.packetCount % 1024 = 0 then some (.packets s.packetCount) else none, { s with pc := .poll })
  | .exited _ => (none, s)
  | .killed => (none, s)

/-- SIGINT or SIGTERM. -/
def State.signal (s : State) : State :=
  if s.pc.handled then { s with stop := true } else { s with pc := .killed }

def State.step (s : State) : Event → Option Note × State
  | .signal => (none, s.signal)
  | .take =>
    match s.fq.take with
    | some (addr, fq) => (none, { s with fq := fq, held := s.held ++ [addr] })
    | none => (none, s)
  | .free => (none, { s with fq := s.fq.free })
  | .deliver i =>
    match s.held[i]? with
    | none => (none, s)
    | some addr =>
      match s.rx.put addr with
      | some rx => (some (.delivered addr), { s with rx := rx, held := s.held.eraseIdx i })
      | none => (none, s)
  | .call ans => s.call ans

/-! ## Where the frames are -/

/-- The addresses of all frames. -/
def frames : List UInt64 := (List.range numFrames).map fun i => UInt64.ofNat (i * frameSize)

/-- The first descriptor that the receiver has not read. -/
def State.next (s : State) : Nat :=
  match s.pc with
  | .turn idx _ i => idx + i
  | .reserve idx _ i _ => idx + i + 1
  | .store idx _ i _ _ => idx + i + 1
  | .submit idx _ i => idx + i + 1
  | .release rcvd => s.rx.consumed + rcvd
  | _ => s.rx.consumed

/-- Delivered and not read yet. -/
def State.waiting (s : State) : List UInt64 := s.rx.window s.next s.rx.produced

/-- In the fill ring, for the kernel to take. -/
def State.offered (s : State) : List UInt64 := s.fq.window s.fq.peeked s.fq.produced

/-- Read and not returned yet. -/
def State.inHand (s : State) : List UInt64 :=
  match s.pc with
  | .reserve _ _ _ addr => [addr]
  | .store _ _ _ addr _ => [addr]
  | .submit .. => s.fq.window s.fq.produced s.fq.reserved
  | _ => []

/-- How the counters stand at a call of the loop. -/
def State.Batch (s : State) : Prop :=
  match s.pc with
  | .turn idx rcvd i => idx = s.rx.consumed ∧ s.rx.peeked = idx + rcvd ∧ i ≤ rcvd ∧
      s.fq.reserved = s.fq.produced
  | .reserve idx rcvd i _ => idx = s.rx.consumed ∧ s.rx.peeked = idx + rcvd ∧ i < rcvd ∧
      s.fq.reserved = s.fq.produced
  | .store idx rcvd i _ idxFq => idx = s.rx.consumed ∧ s.rx.peeked = idx + rcvd ∧ i < rcvd ∧
      s.fq.reserved = s.fq.produced + 1 ∧ idxFq = s.fq.produced
  | .submit idx rcvd i => idx = s.rx.consumed ∧ s.rx.peeked = idx + rcvd ∧ i < rcvd ∧
      s.fq.reserved = s.fq.produced + 1
  | .release rcvd => s.rx.peeked = s.rx.consumed + rcvd ∧ s.fq.reserved = s.fq.produced
  | .poll | .peek | .report => s.rx.peeked = s.rx.consumed ∧ s.fq.reserved = s.fq.produced
  | .exited rc => rc = 0 ∧ s.rx.peeked = s.rx.consumed ∧ s.fq.reserved = s.fq.produced
  | _ => False

/-- The frames go round: each of them is in one place. -/
structure Circulates (s : State) : Prop where
  fq : s.fq.Ok
  rx : s.rx.Ok
  filled : s.rx.reserved = s.rx.produced
  batch : s.Batch
  count : ∀ a, s.offered.count a + s.held.count a + s.waiting.count a + s.inHand.count a =
    frames.count a

/-- The receiver has not given the frames to the kernel, and may have ended before it does. -/
structure Starting (s : State) : Prop where
  held : s.held = []
  rx : s.rx = .empty 0
  taken : s.fq.peeked = 0 ∧ s.fq.consumed = 0 ∧ s.fq.produced = 0
  packets : s.packetCount = 0
  stored : match s.pc with
    | .initStore idx i => idx = 0 ∧ i ≤ numFrames ∧ s.fq.reserved = numFrames ∧
        s.fq.window 0 i = frames.take i
    | .initSubmit => s.fq.reserved = numFrames ∧ s.fq.window 0 numFrames = frames
    | .exited rc => rc = 1
    | pc => pc.early = true ∧ s.fq.reserved = 0

/-! ## What a step passes on -/

def deliveredIn : Option Note → List UInt64
  | some (.delivered addr) => [addr]
  | _ => []

def receivedIn : Option Note → List UInt64
  | some (.received addr) => [addr]
  | _ => []

/-- A step that keeps the frames going round, and the descriptors in their order. -/
structure Passes (s : State) (step : Option Note × State) : Prop where
  circulates : Circulates step.2
  waiting : s.waiting ++ deliveredIn step.1 = receivedIn step.1 ++ step.2.waiting
  packets : step.2.packetCount = s.packetCount + UInt64.ofNat (receivedIn step.1).length

section Circulates

variable {s : State} (h : Circulates s)

include h

/-- The first unread descriptor is one that the receiver has not released. -/
theorem Circulates.next_le : s.rx.consumed ≤ s.next ∧ s.next ≤ s.rx.peeked := by
  have hbatch := h.batch
  have hle := h.rx.consumed_le
  unfold State.Batch at hbatch
  unfold State.next
  split at hbatch <;> simp_all <;> omega

theorem Circulates.perm : (s.offered ++ s.held ++ s.waiting ++ s.inHand).Perm frames := by
  rw [List.perm_iff_count]
  intro a
  rw [List.count_append, List.count_append, List.count_append]
  exact h.count a

theorem Circulates.length : s.offered.length + s.held.length + s.waiting.length + s.inHand.length =
    numFrames := by
  have hlength := h.perm.length_eq
  rw [List.length_append, List.length_append, List.length_append] at hlength
  rw [hlength, frames, List.length_map, List.length_range]

/-- A step that leaves the rings, the frames and the receiver's place. -/
theorem Circulates.stay (note : Option Note) (hdelivered : deliveredIn note = [])
    (hreceived : receivedIn note = []) : Passes s (note, s) := by
  refine ⟨h, ?_, ?_⟩
  · rw [hdelivered, hreceived, List.append_nil]
    rfl
  · rw [hreceived]
    exact (UInt64.add_zero _).symm

/-! ### The kernel -/

theorem Circulates.filled_pc : s.pc.unfilled = false ∧ s.pc.handled = true := by
  have hbatch := h.batch
  unfold State.Batch at hbatch
  cases hpc : s.pc with
  | start | handlers | memalign | umemCreate | socketCreate | initReserve | initStore _ _ | initSubmit
  | killed =>
    rw [hpc] at hbatch
    exact hbatch.elim
  | poll | peek | turn _ _ _ | reserve _ _ _ _ | store _ _ _ _ _ | submit _ _ _ | release _ | report =>
    exact ⟨rfl, rfl⟩
  | exited rc =>
    rw [hpc] at hbatch
    rw [hbatch.1]
    exact ⟨rfl, rfl⟩

theorem Circulates.signal : Passes s (s.step .signal) := by
  unfold State.step State.signal
  rw [if_pos h.filled_pc.2]
  exact ⟨⟨h.fq, h.rx, h.filled, h.batch, h.count⟩, List.append_nil _, (UInt64.add_zero _).symm⟩

theorem Circulates.take : Passes s (s.step .take) := by
  unfold State.step
  rw [SpscRing.take_eq]
  split_ifs with hlt
  · have hoffered : s.offered = s.fq.load s.fq.peeked :: s.fq.window (s.fq.peeked + 1) s.fq.produced :=
      s.fq.window_cons hlt
    refine ⟨⟨⟨?_, hlt, h.fq.produced_le, h.fq.reserved_le⟩, h.rx, h.filled, h.batch, fun a => ?_⟩,
      List.append_nil _, (UInt64.add_zero _).symm⟩
    · exact Nat.le_succ_of_le h.fq.consumed_le
    · have hcount := h.count a
      rw [hoffered, List.count_cons] at hcount
      show (s.fq.window (s.fq.peeked + 1) s.fq.produced).count a +
        (s.held ++ [s.fq.load s.fq.peeked]).count a + s.waiting.count a + s.inHand.count a = _
      rw [List.count_append, List.count_singleton]
      omega
  · exact h.stay none rfl rfl

theorem Circulates.free : Passes s (s.step .free) := by
  unfold State.step
  rw [SpscRing.free_eq h.fq.consumed_le]
  refine ⟨⟨⟨le_rfl, h.fq.peeked_le, h.fq.produced_le, ?_⟩, h.rx, h.filled, h.batch, h.count⟩,
    List.append_nil _, (UInt64.add_zero _).symm⟩
  exact h.fq.reserved_le.trans (Nat.add_le_add_right h.fq.consumed_le _)

theorem Circulates.deliver (i : Nat) : Passes s (s.step (.deliver i)) := by
  unfold State.step
  dsimp only
  split
  · exact h.stay none rfl rfl
  · next addr haddr =>
    rw [SpscRing.put_eq h.filled]
    split_ifs with hroom
    · have hnext := h.next_le
      have hpeeked := h.rx.peeked_le
      have hconsumed := h.rx.consumed_le
      have hwaiting : (s.rx.store s.rx.produced addr).window s.next (s.rx.produced + 1) =
          s.waiting ++ [addr] := by
        rw [SpscRing.window_succ _ (by omega), SpscRing.window_store le_rfl (by omega),
          SpscRing.load_store_self]
        rfl
      refine ⟨⟨h.fq, ⟨hconsumed, ?_, le_rfl, hroom⟩, rfl, h.batch, fun a => ?_⟩, hwaiting.symm,
        (UInt64.add_zero _).symm⟩
      · exact Nat.le_succ_of_le hpeeked
      · have hcount := h.count a
        have hlt := (List.getElem?_eq_some_iff.mp haddr).1
        have herase := List.getElem_cons_eraseIdx_perm hlt
        show s.offered.count a + (s.held.eraseIdx i).count a +
          ((s.rx.store s.rx.produced addr).window s.next (s.rx.produced + 1)).count a +
            s.inHand.count a = _
        rw [hwaiting, List.count_append, List.count_singleton]
        rw [(List.getElem?_eq_some_iff.mp haddr).2] at herase
        have herased := herase.count_eq a
        rw [List.count_cons] at herased
        omega
    · exact h.stay none rfl rfl

/-! ### The receiver -/

/-- A call that only goes on to `pc`. -/
theorem Circulates.goto {note : Option Note} {pc : Pc} (hdelivered : deliveredIn note = [])
    (hreceived : receivedIn note = []) (hnext : { s with pc := pc }.next = s.next)
    (hinHand : { s with pc := pc }.inHand = s.inHand) (hbatch : { s with pc := pc }.Batch) :
    Passes s (note, { s with pc := pc }) := by
  have hwaiting : { s with pc := pc }.waiting = s.waiting := by
    unfold State.waiting
    rw [hnext]
  refine ⟨⟨h.fq, h.rx, h.filled, hbatch, fun a => ?_⟩, ?_, ?_⟩
  · rw [hwaiting, hinHand]
    exact h.count a
  · rw [hdelivered, hreceived, hwaiting]
    exact List.append_nil _
  · rw [hreceived]
    exact (UInt64.add_zero _).symm

variable {idx rcvd i idxFq : Nat} {addr : UInt64} (ans : Answer)

theorem Circulates.callPoll (hpc : s.pc = .poll) : Passes s (s.call ans) := by
  have hbatch := h.batch
  have hat : s.next = s.rx.consumed ∧ s.inHand = [] := by
    unfold State.next State.inHand
    rw [hpc]
    exact ⟨rfl, rfl⟩
  unfold State.Batch at hbatch
  unfold State.call
  rw [hpc] at hbatch ⊢
  dsimp only at hbatch ⊢
  have hexit : Passes s (some (.exiting s.packetCount), { s with pc := .exited 0 }) :=
    h.goto rfl rfl hat.1.symm hat.2.symm ⟨rfl, hbatch⟩
  split_ifs
  · exact hexit
  · cases ans.polled with
    | ready => exact h.goto rfl rfl hat.1.symm hat.2.symm hbatch
    | eintr => exact h.stay none rfl rfl
    | failed => exact hexit

theorem Circulates.callPeek (hpc : s.pc = .peek) : Passes s (s.call ans) := by
  have hbatch := h.batch
  have hcount := h.count
  have hpeeked := h.rx.peeked_le
  have hwaiting : s.waiting = s.rx.window s.rx.consumed s.rx.produced := by
    unfold State.waiting State.next
    rw [hpc]
  unfold State.Batch at hbatch
  unfold State.inHand at hcount
  rw [hpc] at hbatch hcount
  unfold State.call
  rw [hpc]
  dsimp only [SpscRing.peek] at hbatch hcount ⊢
  rw [hwaiting] at hcount
  split_ifs with hzero
  · refine ⟨⟨h.fq, ⟨?_, ?_, h.rx.produced_le, h.rx.reserved_le⟩, h.filled, ?_, hcount⟩, ?_,
      (UInt64.add_zero _).symm⟩
    · dsimp only
      omega
    · dsimp only
      omega
    · exact ⟨by dsimp only; omega, hbatch.2⟩
    · rw [hwaiting]
      exact List.append_nil _
  · refine ⟨⟨h.fq, ⟨?_, ?_, h.rx.produced_le, h.rx.reserved_le⟩, h.filled, ?_, ?_⟩, ?_,
      (UInt64.add_zero _).symm⟩
    · dsimp only
      omega
    · dsimp only
      omega
    · exact ⟨hbatch.1, rfl, Nat.zero_le _, hbatch.2⟩
    · unfold State.waiting State.next State.inHand
      dsimp only
      rw [hbatch.1]
      exact hcount
    · unfold State.waiting State.next
      dsimp only
      rw [hpc, hbatch.1]
      exact List.append_nil _

/-- A descriptor is read: its frame goes from `waiting` to `inHand`. -/
theorem Circulates.callTurn (hpc : s.pc = .turn idx rcvd i) : Passes s (s.call ans) := by
  have hbatch := h.batch
  have hcount := h.count
  have hpeeked := h.rx.peeked_le
  have hwaiting : s.waiting = s.rx.window (idx + i) s.rx.produced := by
    unfold State.waiting State.next
    rw [hpc]
  unfold State.Batch at hbatch
  unfold State.inHand at hcount
  rw [hpc] at hbatch hcount
  dsimp only at hbatch hcount
  obtain ⟨hidx, htop, hi, hfilled⟩ := hbatch
  unfold State.call
  rw [hpc]
  dsimp only
  split_ifs with hlt
  · rw [SpscRing.window_cons _ (show idx + i < s.rx.produced by omega)] at hwaiting
    refine ⟨⟨h.fq, h.rx, h.filled, ⟨hidx, htop, hlt, hfilled⟩, fun a => ?_⟩, ?_, rfl⟩
    · have hcounta := hcount a
      rw [hwaiting, List.count_cons] at hcounta
      show s.offered.count a + s.held.count a +
        (s.rx.window (idx + i + 1) s.rx.produced).count a + [s.rx.load (idx + i)].count a = _
      rw [List.count_singleton]
      rw [List.count_nil] at hcounta
      omega
    · rw [hwaiting]
      exact List.append_nil _
  · refine h.goto rfl rfl ?_ ?_ ⟨?_, hfilled⟩
    · unfold State.next
      rw [hpc]
      dsimp only
      omega
    · unfold State.inHand
      rw [hpc]
    · dsimp only
      omega

theorem Circulates.callReserve (hpc : s.pc = .reserve idx rcvd i addr) :
    Passes s (s.call ans) := by
  have hbatch := h.batch
  have hcount := h.count
  have hwaiting : s.waiting = s.rx.window (idx + i + 1) s.rx.produced := by
    unfold State.waiting State.next
    rw [hpc]
  unfold State.Batch at hbatch
  unfold State.inHand at hcount
  rw [hpc] at hbatch hcount
  dsimp only at hbatch hcount
  obtain ⟨hidx, htop, hi, hfilled⟩ := hbatch
  unfold State.call SpscRing.reserve
  rw [hpc]
  dsimp only
  split_ifs with hroom
  · refine ⟨⟨⟨h.fq.consumed_le, h.fq.peeked_le, Nat.le_succ_of_le h.fq.produced_le, hroom⟩, h.rx, h.filled,
      ⟨hidx, htop, hi, ?_, hfilled⟩, fun a => ?_⟩, ?_, (UInt64.add_zero _).symm⟩
    · exact congrArg (· + 1) hfilled
    · have hcounta := hcount a
      rw [hwaiting] at hcounta
      exact hcounta
    · rw [hwaiting]
      exact List.append_nil _
  · exact h.stay none rfl rfl

theorem Circulates.callStore (hpc : s.pc = .store idx rcvd i addr idxFq) :
    Passes s (s.call ans) := by
  have hbatch := h.batch
  have hcount := h.count
  have hwaiting : s.waiting = s.rx.window (idx + i + 1) s.rx.produced := by
    unfold State.waiting State.next
    rw [hpc]
  unfold State.Batch at hbatch
  unfold State.inHand at hcount
  rw [hpc] at hbatch hcount
  dsimp only at hbatch hcount
  obtain ⟨hidx, htop, hi, hfilled, rfl⟩ := hbatch
  have hreserved := h.fq.reserved_le
  have hconsumed := h.fq.consumed_le
  have hoffered : (s.fq.store s.fq.produced addr).window s.fq.peeked s.fq.produced = s.offered :=
    SpscRing.window_store le_rfl (by omega) addr
  have hinHand : (s.fq.store s.fq.produced addr).window s.fq.produced s.fq.reserved = [addr] := by
    rw [hfilled, SpscRing.window_cons _ (Nat.lt_succ_self _), SpscRing.window_self,
      SpscRing.load_store_self]
  unfold State.call
  rw [hpc]
  dsimp only
  refine ⟨⟨⟨hconsumed, h.fq.peeked_le, h.fq.produced_le, hreserved⟩, h.rx, h.filled,
    ⟨hidx, htop, hi, hfilled⟩, fun a => ?_⟩, ?_, (UInt64.add_zero _).symm⟩
  · have hcounta := hcount a
    rw [hwaiting, ← hinHand, ← hoffered] at hcounta
    exact hcounta
  · rw [hwaiting]
    exact List.append_nil _

theorem Circulates.callSubmit (hpc : s.pc = .submit idx rcvd i) : Passes s (s.call ans) := by
  have hbatch := h.batch
  have hcount := h.count
  have hwaiting : s.waiting = s.rx.window (idx + i + 1) s.rx.produced := by
    unfold State.waiting State.next
    rw [hpc]
  unfold State.Batch at hbatch
  unfold State.inHand at hcount
  rw [hpc] at hbatch hcount
  dsimp only at hbatch hcount
  obtain ⟨hidx, htop, hi, hfilled⟩ := hbatch
  have hpeeked := h.fq.peeked_le
  have hoffered : s.fq.window s.fq.peeked (s.fq.produced + 1) =
      s.offered ++ s.fq.window s.fq.produced s.fq.reserved := by
    rw [SpscRing.window_succ _ hpeeked, hfilled, SpscRing.window_cons _ (Nat.lt_succ_self _),
      SpscRing.window_self]
    rfl
  unfold State.call
  rw [hpc]
  dsimp only
  refine ⟨⟨⟨h.fq.consumed_le, Nat.le_succ_of_le hpeeked, hfilled.ge, h.fq.reserved_le⟩, h.rx, h.filled,
    ⟨hidx, htop, hi, hfilled⟩, fun a => ?_⟩, ?_, (UInt64.add_zero _).symm⟩
  · have hcounta := hcount a
    rw [hwaiting] at hcounta
    show (s.fq.window s.fq.peeked (s.fq.produced + 1)).count a + s.held.count a +
      (s.rx.window (idx + i + 1) s.rx.produced).count a + [].count a = _
    rw [hoffered, List.count_append, List.count_nil]
    omega
  · rw [hwaiting]
    exact List.append_nil _

theorem Circulates.callRelease (hpc : s.pc = .release rcvd) : Passes s (s.call ans) := by
  have hbatch := h.batch
  have hcount := h.count
  have hwaiting : s.waiting = s.rx.window (s.rx.consumed + rcvd) s.rx.produced := by
    unfold State.waiting State.next
    rw [hpc]
  unfold State.Batch at hbatch
  unfold State.inHand at hcount
  rw [hpc] at hbatch hcount
  dsimp only at hbatch hcount
  unfold State.call
  rw [hpc]
  dsimp only
  refine ⟨⟨h.fq, ⟨hbatch.1.ge, h.rx.peeked_le, h.rx.produced_le, ?_⟩, h.filled, hbatch, fun a => ?_⟩, ?_,
    (UInt64.add_zero _).symm⟩
  · exact h.rx.reserved_le.trans (Nat.add_le_add_right (Nat.le_add_right _ _) _)
  · have hcounta := hcount a
    rw [hwaiting] at hcounta
    exact hcounta
  · rw [hwaiting]
    exact List.append_nil _

theorem Circulates.callReport (hpc : s.pc = .report) : Passes s (s.call ans) := by
  have hbatch := h.batch
  have hat : s.next = s.rx.consumed ∧ s.inHand = [] := by
    unfold State.next State.inHand
    rw [hpc]
    exact ⟨rfl, rfl⟩
  unfold State.Batch at hbatch
  unfold State.call
  rw [hpc] at hbatch ⊢
  dsimp only at hbatch ⊢
  split_ifs
  · exact h.goto rfl rfl hat.1.symm hat.2.symm hbatch
  · exact h.goto rfl rfl hat.1.symm hat.2.symm hbatch

theorem Circulates.call : Passes s (s.call ans) := by
  have hbatch := h.batch
  unfold State.Batch at hbatch
  cases hpc : s.pc with
  | start | handlers | memalign | umemCreate | socketCreate | initReserve | initStore _ _ | initSubmit
  | killed =>
    rw [hpc] at hbatch
    exact hbatch.elim
  | poll => exact h.callPoll ans hpc
  | peek => exact h.callPeek ans hpc
  | turn idx rcvd i => exact h.callTurn ans hpc
  | reserve idx rcvd i addr => exact h.callReserve ans hpc
  | store idx rcvd i addr idxFq => exact h.callStore ans hpc
  | submit idx rcvd i => exact h.callSubmit ans hpc
  | release rcvd => exact h.callRelease ans hpc
  | report => exact h.callReport ans hpc
  | exited rc =>
    unfold State.call
    rw [hpc]
    exact h.stay none rfl rfl

theorem Circulates.step (event : Event) : Passes s (s.step event) :=
  match event with
  | .signal => h.signal
  | .take => h.take
  | .free => h.free
  | .deliver i => h.deliver i
  | .call ans => h.call ans

end Circulates

/-! ## Giving the frames out -/

theorem length_frames : frames.length = numFrames := by
  rw [frames, List.length_map, List.length_range]

theorem take_frames {i : Nat} (hi : i < numFrames) :
    frames.take (i + 1) = frames.take i ++ [UInt64.ofNat (i * frameSize)] := by
  rw [frames, ← List.map_take, ← List.map_take, List.take_range, List.take_range, Nat.min_eq_left hi,
    Nat.min_eq_left hi.le, List.range_succ, List.map_append]
  rfl

/-- Frames do not overlap: 4096 addresses, 4096 apart, below `2 ^ 64`. -/
theorem nodup_frames : frames.Nodup := by
  refine List.Nodup.map_on (fun i hi j hj heq => ?_) List.nodup_range
  rw [List.mem_range, numFrames] at hi hj
  have heq' := congrArg UInt64.toNat heq
  rw [UInt64.toNat_ofNat', UInt64.toNat_ofNat', frameSize, Nat.mod_eq_of_lt (by omega),
    Nat.mod_eq_of_lt (by omega)] at heq'
  omega

section Starting

variable {s : State} (h : Starting s)

include h

theorem Starting.unfilled : s.pc.unfilled = true := by
  have hstored := h.stored
  cases hpc : s.pc with
  | start | handlers | memalign | umemCreate | socketCreate | initReserve | initStore _ _ | initSubmit
  | killed => rfl
  | exited rc =>
    rw [hpc] at hstored
    rw [show rc = 1 from hstored]
    rfl
  | poll | peek | turn _ _ _ | reserve _ _ _ _ | store _ _ _ _ _ | submit _ _ _ | release _ | report =>
    rw [hpc] at hstored
    cases hstored.1

/-- Nothing is read or in hand. -/
theorem Starting.idle : s.waiting = [] ∧ s.inHand = [] := by
  have hunfilled := h.unfilled
  have hidle : s.next = s.rx.consumed ∧ s.inHand = [] := by
    unfold State.next State.inHand
    cases hpc : s.pc with
    | turn _ _ _ | reserve _ _ _ _ | store _ _ _ _ _ | submit _ _ _ | release _ =>
      rw [hpc] at hunfilled
      cases hunfilled
    | _ => exact ⟨rfl, rfl⟩
  refine ⟨?_, hidle.2⟩
  rw [State.waiting, hidle.1, h.rx]
  rfl

/-- A step before the fill ring is touched. -/
theorem Starting.goto (hreserved : s.fq.reserved = 0) {pc : Pc} (hpc : pc.early = true) :
    Starting { s with pc := pc } := by
  refine ⟨h.held, h.rx, h.taken, h.packets, ?_⟩
  cases pc with
  | start | handlers | memalign | umemCreate | socketCreate | initReserve | killed =>
    exact ⟨rfl, hreserved⟩
  | _ => cases hpc

theorem Starting.fail {f : Failure} : Starting (s.fail f).2 :=
  ⟨h.held, h.rx, h.taken, h.packets, rfl⟩

theorem Starting.reserve (hpc : s.pc = .initReserve) :
    s.fq.reserve numFrames = some (0, { s.fq with reserved := numFrames }) := by
  have hstored := h.stored
  obtain ⟨-, hconsumed, -⟩ := h.taken
  rw [hpc] at hstored
  rw [SpscRing.reserve, if_pos (by omega), hstored.2, Nat.zero_add]

theorem Starting.submit (hpc : s.pc = .initSubmit) (ans : Answer) :
    Circulates (s.call ans).2 ∧ (s.call ans).2.waiting = [] := by
  have hstored := h.stored
  obtain ⟨hpeeked, hconsumed, hproduced⟩ := h.taken
  unfold State.call
  rw [hpc] at hstored ⊢
  obtain ⟨hreserved, hwindow⟩ := hstored
  dsimp only
  rw [SpscRing.submit, hproduced, Nat.zero_add]
  have hwaiting : s.rx.window s.rx.consumed s.rx.produced = [] := by
    rw [h.rx]
    rfl
  refine ⟨⟨⟨?_, ?_, ?_, ?_⟩, ?_, ?_, ⟨?_, hreserved⟩, fun a => ?_⟩, hwaiting⟩
  · exact (hconsumed.trans hpeeked.symm).le
  · exact hpeeked.le.trans (Nat.zero_le _)
  · exact hreserved.ge
  · exact hreserved.le.trans (Nat.le_add_left _ _)
  · rw [h.rx]
    exact SpscRing.ok_empty 0
  · rw [h.rx]
    rfl
  · rw [h.rx]
    rfl
  · show (s.fq.window s.fq.peeked numFrames).count a + s.held.count a +
      (s.rx.window s.rx.consumed s.rx.produced).count a + [].count a = _
    rw [h.held, hwaiting, hpeeked, hwindow, List.count_nil, Nat.add_zero]

/-- What a step before the fill ring is submitted may do. -/
structure Starts (step : Option Note × State) : Prop where
  silent : deliveredIn step.1 = [] ∧ receivedIn step.1 = []
  packets : step.2.packetCount = 0
  fillRing : step.1 ≠ some (.failed .fillRing)
  place : Starting step.2 ∨ Circulates step.2 ∧ step.2.waiting = []

omit h in
theorem Starting.starts (h : Starting s) : Starts (none, s) :=
  ⟨⟨rfl, rfl⟩, h.packets, by rintro ⟨⟩, .inl h⟩

theorem Starting.fails {f : Failure} (hf : f ≠ .fillRing) : Starts (s.fail f) := by
  refine ⟨⟨rfl, rfl⟩, h.packets, fun heq => hf ?_, .inl h.fail⟩
  exact Note.failed.inj (Option.some.inj heq)

theorem Starting.call (ans : Answer) : Starts (s.call ans) := by
  have hstored := h.stored
  cases hpc : s.pc with
  | start =>
    rw [hpc] at hstored
    unfold State.call
    rw [hpc]
    dsimp only
    split_ifs
    · exact h.fails (by decide)
    · exact (h.goto hstored.2 rfl).starts
  | handlers =>
    rw [hpc] at hstored
    unfold State.call
    rw [hpc]
    exact (h.goto hstored.2 rfl).starts
  | memalign | umemCreate | socketCreate =>
    rw [hpc] at hstored
    unfold State.call
    rw [hpc]
    dsimp only
    split_ifs
    · exact (h.goto hstored.2 rfl).starts
    · exact h.fails (by decide)
  | initReserve =>
    unfold State.call
    rw [hpc]
    dsimp only
    rw [h.reserve hpc]
    exact Starting.starts ⟨h.held, h.rx, h.taken, h.packets, rfl, Nat.zero_le _, rfl,
      SpscRing.window_self _ 0⟩
  | initStore idx i =>
    have hproduced := h.taken.2.2
    rw [hpc] at hstored
    obtain ⟨rfl, hi, hreserved, hwindow⟩ := hstored
    unfold State.call
    rw [hpc]
    dsimp only
    rw [Nat.zero_add]
    split_ifs with hlt
    · refine Starting.starts ⟨h.held, h.rx, h.taken, h.packets, rfl, hlt, hreserved, ?_⟩
      show (s.fq.store i _).window 0 (i + 1) = _
      rw [SpscRing.window_succ _ (Nat.zero_le i), SpscRing.window_store le_rfl (by omega),
        SpscRing.load_store_self, take_frames hlt, hwindow]
    · obtain rfl : i = numFrames := by omega
      refine Starting.starts ⟨h.held, h.rx, h.taken, h.packets, hreserved, ?_⟩
      exact hwindow.trans (List.take_of_length_le length_frames.le)
  | initSubmit =>
    have hplace := h.submit hpc ans
    unfold State.call at hplace ⊢
    rw [hpc] at hplace ⊢
    exact ⟨⟨rfl, rfl⟩, h.packets, by rintro ⟨⟩, .inr hplace⟩
  | exited _ | killed =>
    unfold State.call
    rw [hpc]
    exact h.starts
  | poll | peek | turn _ _ _ | reserve _ _ _ _ | store _ _ _ _ _ | submit _ _ _ | release _ | report =>
    rw [hpc] at hstored
    cases hstored.1

theorem Starting.signal : Starting s.signal := by
  have hstored := h.stored
  unfold State.signal
  split_ifs with hhandled
  · exact ⟨h.held, h.rx, h.taken, h.packets, h.stored⟩
  · refine h.goto ?_ rfl
    cases hpc : s.pc with
    | start | handlers | killed =>
      rw [hpc] at hstored
      exact hstored.2
    | _ =>
      rw [hpc] at hhandled
      exact absurd rfl hhandled

theorem Starting.step (event : Event) : Starts (s.step event) := by
  obtain ⟨hpeeked, hconsumed, hproduced⟩ := h.taken
  cases event with
  | signal => exact h.signal.starts
  | take =>
    unfold State.step
    rw [SpscRing.take_eq, if_neg (by omega)]
    exact h.starts
  | free =>
    refine Starting.starts ⟨h.held, h.rx, ⟨hpeeked, ?_, hproduced⟩, h.packets, h.stored⟩
    show s.fq.consumed + (s.fq.peeked - s.fq.consumed) = 0
    omega
  | deliver i =>
    unfold State.step
    rw [h.held]
    exact h.starts
  | call ans => exact h.call ans

end Starting

/-! ## Runs -/

/-- The number that a note tells. -/
def toldIn : Option Note → Option UInt64
  | some (.packets count) => some count
  | some (.exiting count) => some count
  | _ => none

/-- The notes up to a state of the run. -/
structure Told (notes : List (Option Note)) (s : State) : Prop where
  place : Starting s ∨ Circulates s
  waiting : notes.flatMap deliveredIn = notes.flatMap receivedIn ++ s.waiting
  packets : s.packetCount = UInt64.ofNat (notes.flatMap receivedIn).length
  told : ∀ before note after count, notes = before ++ note :: after → toldIn note = some count →
    count = UInt64.ofNat (before.flatMap receivedIn).length
  failed : s.pc = .exited 1 ↔ ∃ f, some (.failed f) ∈ notes
  fillRing : some (.failed .fillRing) ∉ notes

theorem toldIn_step {s : State} {event : Event} {count : UInt64}
    (h : toldIn (s.step event).1 = some count) : count = s.packetCount := by
  unfold State.step at h
  split at h
  · cases h
  · split at h
    · cases h
    · cases h
  · cases h
  · split at h
    · cases h
    · split at h
      · cases h
      · cases h
  · unfold State.call State.fail at h
    dsimp only at h
    repeat' split at h
    all_goals first
      | cases h; rfl
      | cases h

/-- A call ends with 1 when it fails, and only then. -/
theorem failed_call (s : State) (ans : Answer) :
    (s.call ans).2.pc = .exited 1 ↔ s.pc = .exited 1 ∨ ∃ f, (s.call ans).1 = some (.failed f) := by
  unfold State.call State.fail
  dsimp only
  repeat' split
  all_goals simp_all

theorem failed_step (s : State) (event : Event) :
    (s.step event).2.pc = .exited 1 ↔ s.pc = .exited 1 ∨ ∃ f, (s.step event).1 = some (.failed f) := by
  cases event with
  | signal =>
    unfold State.step State.signal
    dsimp only
    split_ifs with hhandled
    · simp
    · have hpc : s.pc ≠ .exited 1 := fun hpc => hhandled (by rw [hpc]; rfl)
      simp [hpc]
  | take =>
    unfold State.step
    dsimp only
    split <;> simp
  | free => simp [State.step]
  | deliver i =>
    unfold State.step
    dsimp only
    split
    · simp
    · split <;> simp
  | call ans => exact failed_call s ans

theorem place_step {s : State} (h : Starting s ∨ Circulates s) (event : Event) :
    Starting (s.step event).2 ∨ Circulates (s.step event).2 := by
  rcases h with h | h
  · exact (h.step event).place.imp_right And.left
  · exact .inr (h.step event).circulates

/-- There is room for all frames, and a receiver whose frames go round never fails. -/
theorem fillRing_step {s : State} (h : Starting s ∨ Circulates s) (event : Event) :
    (s.step event).1 ≠ some (.failed .fillRing) := by
  rcases h with h | h
  · exact (h.step event).fillRing
  · intro hnote
    have hpc := (failed_step s event).mpr (.inr ⟨_, hnote⟩)
    have hfilled := (h.step event).circulates.filled_pc.1
    rw [hpc] at hfilled
    cases hfilled

/-- With enough arguments and no refusal, only filling the ring could fail. -/
theorem failed_ok {s : State} {ans : Answer} {f : Failure} (hargc : ¬ s.argc < 3) (hok : ans.ok = true)
    (h : (s.call ans).1 = some (.failed f)) : f = .fillRing := by
  unfold State.call State.fail at h
  dsimp only at h
  repeat' split at h
  all_goals simp_all

theorem call_of_failed {s : State} {event : Event} {f : Failure}
    (h : (s.step event).1 = some (.failed f)) : ∃ ans, event = .call ans := by
  cases event with
  | call ans => exact ⟨ans, rfl⟩
  | signal | free => cases h
  | take =>
    unfold State.step at h
    dsimp only at h
    split at h <;> cases h
  | deliver i =>
    unfold State.step at h
    dsimp only at h
    split at h
    · cases h
    · split at h <;> cases h

theorem argc_step (s : State) (event : Event) : (s.step event).2.argc = s.argc := by
  cases event with
  | signal =>
    unfold State.step State.signal
    dsimp only
    split_ifs <;> rfl
  | take =>
    unfold State.step
    dsimp only
    split <;> rfl
  | free => rfl
  | deliver i =>
    unfold State.step
    dsimp only
    split
    · rfl
    · split <;> rfl
  | call ans =>
    unfold State.step State.call State.fail
    dsimp only
    repeat' split
    all_goals rfl

/-- Started with enough arguments, and refused nothing, the receiver does not fail. -/
theorem not_failed_run {s : State} (hplace : Starting s ∨ Circulates s) (hargc : ¬ s.argc < 3)
    (hpc : s.pc ≠ .exited 1) {events : List Event}
    (hok : ∀ ans, .call ans ∈ events → ans.ok = true) :
    (answers State.step events s).2.pc ≠ .exited 1 := by
  induction events generalizing s with
  | nil => exact hpc
  | cons event events ih =>
    have hargc' : ¬ (s.step event).2.argc < 3 := by
      rw [argc_step]
      exact hargc
    have hpc' : (s.step event).2.pc ≠ .exited 1 := by
      rw [Ne, failed_step]
      rintro (hfailed | ⟨f, hnote⟩)
      · exact hpc hfailed
      · obtain ⟨ans, rfl⟩ := call_of_failed hnote
        have hf := failed_ok hargc (hok ans (.head _)) hnote
        exact fillRing_step hplace _ (hf ▸ hnote)
    exact ih (place_step hplace event) hargc' hpc' fun ans hmem => hok ans (.tail _ hmem)

theorem told_step {notes : List (Option Note)} {s : State} (h : Told notes s) (event : Event) :
    Told (notes ++ [(s.step event).1]) (s.step event).2 := by
  have htold : ∀ before note after count, notes ++ [(s.step event).1] = before ++ note :: after →
      toldIn note = some count → count = UInt64.ofNat (before.flatMap receivedIn).length := by
    intro before note after count hnotes hcount
    rcases List.append_eq_append_iff.mp hnotes with ⟨mid, hbefore, hmid⟩ | ⟨mid, hbefore, hmid⟩
    · cases mid with
      | nil =>
        cases hmid
        rw [hbefore, List.append_nil, ← h.packets]
        exact toldIn_step hcount
      | cons _ _ => simp at hmid
    · cases mid with
      | nil =>
        cases hmid
        rw [List.append_nil] at hbefore
        rw [← hbefore, ← h.packets]
        exact toldIn_step hcount
      | cons first mid =>
        cases hmid
        exact h.told before note mid count hbefore hcount
  have hlist (f : Option Note → List UInt64) :
      (notes ++ [(s.step event).1]).flatMap f = notes.flatMap f ++ f (s.step event).1 := by
    rw [List.flatMap_append, List.flatMap_singleton]
  have hmem (f : Failure) : some (.failed f) ∈ notes ++ [(s.step event).1] ↔
      some (.failed f) ∈ notes ∨ (s.step event).1 = some (.failed f) := by
    rw [List.mem_append, List.mem_singleton]
    exact or_congr_right eq_comm
  have hfailed : (s.step event).2.pc = .exited 1 ↔ ∃ f, some (.failed f) ∈ notes ++ [(s.step event).1] := by
    rw [failed_step, h.failed, ← exists_or]
    exact exists_congr fun f => (hmem f).symm
  have hfilling : some (.failed .fillRing) ∉ notes ++ [(s.step event).1] := by
    rw [hmem]
    exact not_or.mpr ⟨h.fillRing, fillRing_step h.place event⟩
  rcases h.place with hstart | hround
  · have hstarts := hstart.step event
    have hwaiting := h.waiting
    have hcount := h.packets
    rw [hstart.idle.1, List.append_nil] at hwaiting
    rw [hstart.packets] at hcount
    have hwaits : (s.step event).2.waiting = [] := by
      rcases hstarts.place with hstart' | ⟨-, hwaits⟩
      · exact hstart'.idle.1
      · exact hwaits
    refine ⟨hstarts.place.imp_right And.left, ?_, ?_, htold, hfailed, hfilling⟩
    · rw [hlist, hlist, hwaiting, hstarts.silent.1, hstarts.silent.2, hwaits]
      exact (List.append_nil _).symm
    · rw [hlist, hstarts.silent.2, hstarts.packets, hcount]
      exact congrArg _ (congrArg _ (List.append_nil _).symm)
  · have hpass := hround.step event
    refine ⟨.inr hpass.circulates, ?_, ?_, htold, hfailed, hfilling⟩
    · rw [hlist, hlist, h.waiting, List.append_assoc, hpass.waiting, List.append_assoc]
    · rw [hlist, hpass.packets, h.packets, List.length_append, UInt64.ofNat_add]

theorem told_run {notes : List (Option Note)} {s : State} (h : Told notes s) (events : List Event) :
    Told (notes ++ (answers State.step events s).1) (answers State.step events s).2 := by
  induction events generalizing notes s with
  | nil =>
    rw [answers, List.append_nil]
    exact h
  | cons event events ih =>
    have hrest := ih (told_step h event)
    rw [List.append_assoc, List.singleton_append] at hrest
    exact hrest

/-- The notes of a run of the receiver with so many arguments, and its last state. -/
def receive (argc : Nat) (events : List Event) : List (Option Note) × State :=
  answers State.step events (.initial argc)

theorem starting_initial (argc : Nat) : Starting (.initial argc) :=
  ⟨rfl, rfl, ⟨rfl, rfl, rfl⟩, rfl, rfl, rfl⟩

theorem told_receive (argc : Nat) (events : List Event) :
    Told (receive argc events).1 (receive argc events).2 := by
  have htold : Told [] (.initial argc) := by
    refine ⟨.inl (starting_initial argc), rfl, rfl, fun before note after count hnotes => ?_, ?_,
      List.not_mem_nil⟩
    · exact absurd hnotes.symm (List.append_ne_nil_of_right_ne_nil _ (List.cons_ne_nil _ _))
    · exact ⟨by rintro ⟨⟩, by rintro ⟨f, ⟨⟩⟩⟩
  exact told_run htold events

/-- In every run, whatever the order of the calls, every frame is in one place: with the kernel or on the
    way to it or back. Before the fill ring is submitted there is none. The receiver exits with 1 when it has
    told of a failure, and only then: filling the ring never fails, the others are too few arguments and a
    call that the system refuses. -/
theorem receiver_conserves (argc : Nat) (events : List Event) :
    let notes := (receive argc events).1
    let s := (receive argc events).2
    let places := s.offered ++ s.held ++ s.waiting ++ s.inHand
    places.Nodup ∧ (if s.pc.unfilled then places = [] else places.Perm frames) ∧
      (s.pc = .exited 1 ↔ ∃ f, some (.failed f) ∈ notes) ∧ some (.failed .fillRing) ∉ notes ∧
      (s.pc = .exited 1 → argc < 3 ∨ ∃ ans, .call ans ∈ events ∧ ans.ok = false) := by
  intro notes s places
  have htold := told_receive argc events
  have hrefused : s.pc = .exited 1 → argc < 3 ∨ ∃ ans, .call ans ∈ events ∧ ans.ok = false := by
    intro hpc
    by_contra hcond
    obtain ⟨hargc, hok⟩ := not_or.mp hcond
    refine not_failed_run (.inl (starting_initial argc)) hargc (by rintro ⟨⟩) (fun ans hmem => ?_) hpc
    exact eq_true_of_ne_false fun hans => hok ⟨ans, hmem, hans⟩
  rcases htold.place with h | h
  · have hplaces : places = [] := by
      have hoffered : s.offered = [] := by
        unfold State.offered
        rw [h.taken.1, h.taken.2.2]
        exact SpscRing.window_self _ 0
      show s.offered ++ s.held ++ s.waiting ++ s.inHand = []
      rw [hoffered, h.held, h.idle.1, h.idle.2]
      rfl
    refine ⟨?_, ?_, htold.failed, htold.fillRing, hrefused⟩
    · rw [hplaces]
      exact List.nodup_nil
    · rw [if_pos h.unfilled]
      exact hplaces
  · refine ⟨h.perm.nodup_iff.mpr nodup_frames, ?_, htold.failed, htold.fillRing, hrefused⟩
    rw [h.filled_pc.1]
    exact h.perm

/-- In every run, the descriptors are received in the order in which they are delivered, none twice and
    none left out; the others wait. `packet_count` and every number told is how many were received before,
    up to `2 ^ 64`. -/
theorem receiver_reads_once (argc : Nat) (events : List Event) :
    let notes := (receive argc events).1
    let s := (receive argc events).2
    notes.flatMap deliveredIn = notes.flatMap receivedIn ++ s.waiting ∧
      s.packetCount = UInt64.ofNat (notes.flatMap receivedIn).length ∧
      ∀ before note after count, notes = before ++ note :: after → toldIn note = some count →
        count = UInt64.ofNat (before.flatMap receivedIn).length :=
  ⟨(told_receive argc events).waiting, (told_receive argc events).packets,
    (told_receive argc events).told⟩

/-! ## Stopping -/

/-- The calls up to the exit, once `g_stop` is set and when the fill ring has room. -/
def State.left (s : State) : Nat :=
  match s.pc with
  | .start => numFrames + 9
  | .handlers => numFrames + 8
  | .memalign => numFrames + 7
  | .umemCreate => numFrames + 6
  | .socketCreate => numFrames + 5
  | .initReserve => numFrames + 4
  | .initStore _ i => numFrames - i + 3
  | .initSubmit => 2
  | .poll => 1
  | .peek => 4 * rxBatchSize + 5
  | .turn _ rcvd i => 4 * (rcvd - i) + 4
  | .reserve _ rcvd i _ => 4 * (rcvd - i) + 3
  | .store _ rcvd i _ _ => 4 * (rcvd - i) + 2
  | .submit _ rcvd i => 4 * (rcvd - i) + 1
  | .release _ => 3
  | .report => 2
  | .exited _ | .killed => 0

/-- The next call does not wait for room in the fill ring. -/
def State.Room (s : State) : Prop :=
  match s.pc with
  | .reserve .. => s.fq.reserved + 1 ≤ s.fq.consumed + numFrames
  | _ => True

/-- A call brings the exit nearer, unless it is reached or the fill ring is full. -/
theorem left_call {s : State} (hplace : Starting s ∨ Circulates s) (hstop : s.stop = true)
    (ans : Answer) : (s.call ans).2.left < s.left ∨
      (s.call ans).2 = s ∧ (s.left = 0 ∨ ¬s.Room) := by
  have hbatch (hpc : s.pc.unfilled = false) : s.Batch := by
    rcases hplace with h | h
    · rw [h.unfilled] at hpc
      cases hpc
    · exact h.batch
  unfold State.Batch at hbatch
  unfold State.call State.left State.Room
  cases hpc : s.pc with
  | start =>
    left
    dsimp only
    split_ifs
    · exact Nat.succ_pos _
    · exact Nat.lt_succ_self _
  | handlers =>
    left
    exact Nat.lt_succ_self _
  | memalign | umemCreate | socketCreate =>
    left
    dsimp only
    split_ifs
    · exact Nat.lt_succ_self _
    · exact Nat.succ_pos _
  | initReserve =>
    rcases hplace with h | h
    · left
      dsimp only
      rw [h.reserve hpc]
      dsimp only
      omega
    · have hfilled := h.filled_pc.1
      rw [hpc] at hfilled
      cases hfilled
  | initStore idx i =>
    left
    dsimp only
    split_ifs with hi
    · dsimp only
      omega
    · dsimp only
      omega
  | initSubmit =>
    left
    exact Nat.lt_succ_self 1
  | poll =>
    left
    dsimp only
    rw [if_pos hstop]
    exact Nat.zero_lt_one
  | peek =>
    left
    dsimp only [SpscRing.peek]
    split_ifs with hzero
    · dsimp only
      omega
    · dsimp only
      omega
  | turn idx rcvd i =>
    left
    dsimp only
    split_ifs with hi
    · dsimp only
      omega
    · dsimp only
      omega
  | reserve idx rcvd i addr =>
    dsimp only [SpscRing.reserve]
    split_ifs with hroom
    · left
      dsimp only
      omega
    · right
      exact ⟨rfl, .inr hroom⟩
  | store idx rcvd i addr idxFq =>
    left
    dsimp only
    omega
  | submit idx rcvd i =>
    rw [hpc] at hbatch
    have hi := (hbatch rfl).2.2.1
    left
    dsimp only
    omega
  | release rcvd =>
    left
    exact Nat.lt_succ_self 2
  | report =>
    left
    exact Nat.lt_succ_self 1
  | exited _ | killed =>
    right
    exact ⟨rfl, .inl rfl⟩

theorem stop_call {s : State} (hstop : s.stop = true) (ans : Answer) :
    (s.call ans).2.stop = true := by
  unfold State.call State.fail
  dsimp only
  repeat' split
  all_goals exact hstop

theorem handled_call {s : State} (hhandled : s.pc.handled = true) (ans : Answer) :
    (s.call ans).2.pc.handled = true := by
  unfold State.call State.fail
  cases hpc : s.pc with
  | start | handlers | killed =>
    rw [hpc] at hhandled
    cases hhandled
  | _ =>
    dsimp only
    repeat' split
    all_goals first | rfl | exact hhandled

/-- An event of the kernel, or a signal, leaves the receiver where it is, and takes no room. -/
theorem step_other {s : State} (hhandled : s.pc.handled = true) {event : Event}
    (h : ∀ ans, event ≠ .call ans) :
    (s.step event).2.pc = s.pc ∧ (s.stop = true → (s.step event).2.stop = true) ∧
      (s.step event).2.fq.reserved = s.fq.reserved ∧ s.fq.consumed ≤ (s.step event).2.fq.consumed := by
  cases event with
  | signal =>
    unfold State.step State.signal
    rw [if_pos hhandled]
    exact ⟨rfl, fun _ => rfl, rfl, le_rfl⟩
  | take =>
    unfold State.step
    rw [SpscRing.take_eq]
    split_ifs
    · exact ⟨rfl, id, rfl, le_rfl⟩
    · exact ⟨rfl, id, rfl, le_rfl⟩
  | free => exact ⟨rfl, id, rfl, Nat.le_add_right _ _⟩
  | deliver i =>
    unfold State.step
    dsimp only
    split
    · exact ⟨rfl, id, rfl, le_rfl⟩
    · split
      · exact ⟨rfl, id, rfl, le_rfl⟩
      · exact ⟨rfl, id, rfl, le_rfl⟩
  | call ans => exact absurd rfl (h ans)

/-- After a signal, at most `n` calls before the exit. -/
structure Stopping (s : State) (n : Nat) : Prop where
  place : Starting s ∨ Circulates s
  handled : s.pc.handled = true
  stop : s.stop = true
  left : s.left ≤ n

section Stopping

variable {s : State} {n : Nat}

theorem Stopping.step (h : Stopping s n) (event : Event) : Stopping (s.step event).2 n := by
  refine ⟨place_step h.place event, ?_, ?_, ?_⟩
  · cases event with
    | call ans => exact handled_call h.handled ans
    | signal | take | free | deliver i =>
      rw [(step_other h.handled (by simp)).1]
      exact h.handled
  · cases event with
    | call ans => exact stop_call h.stop ans
    | signal | take | free | deliver i => exact (step_other h.handled (by simp)).2.1 h.stop
  · cases event with
    | call ans =>
      rcases left_call h.place h.stop ans with hlt | ⟨heq, -⟩
      · exact hlt.le.trans h.left
      · show (s.call ans).2.left ≤ n
        rw [heq]
        exact h.left
    | signal | take | free | deliver i =>
      unfold State.left
      rw [(step_other h.handled (by simp)).1]
      exact h.left

theorem Stopping.run (h : Stopping s n) (events : List Event) :
    Stopping (answers State.step events s).2 n := by
  induction events generalizing s with
  | nil => exact h
  | cons event events ih => exact ih (h.step event)

/-- While there is room, the next call is one of the last `n + 1`. -/
theorem Stopping.called (h : Stopping s (n + 1)) (hroom : s.Room) (ans : Answer) :
    Stopping (s.step (.call ans)).2 n := by
  refine ⟨place_step h.place _, handled_call h.handled ans, stop_call h.stop ans, ?_⟩
  rcases left_call h.place h.stop ans with hlt | ⟨heq, hzero | hfull⟩
  · exact Nat.le_of_lt_succ (hlt.trans_le h.left)
  · show (s.call ans).2.left ≤ n
    rw [heq, hzero]
    exact Nat.zero_le n
  · exact absurd hroom hfull

theorem room_other {event : Event} (hhandled : s.pc.handled = true) (hroom : s.Room)
    (h : ∀ ans, event ≠ .call ans) : (s.step event).2.Room := by
  obtain ⟨hpc, -, hreserved, hconsumed⟩ := step_other hhandled h
  unfold State.Room at hroom ⊢
  rw [hpc]
  split at hroom
  · omega
  · trivial

theorem Stopping.first_call (h : Stopping s (n + 1)) (hroom : s.Room) (between after : List Event)
    (ans : Answer) : Stopping (answers State.step (between ++ .call ans :: after) s).2 n := by
  induction between generalizing s with
  | nil => exact (h.called hroom ans).run after
  | cons event between ih =>
    rw [List.cons_append, answers_cons]
    cases event with
    | call ans' => exact (h.called hroom ans').run _
    | signal | take | free | deliver i =>
      exact ih (h.step _) (room_other h.handled hroom (by simp))

/-- When the slots of all frames that the kernel took are free, there is one for the frame in hand. -/
theorem Stopping.room_free (h : Stopping s n) : (s.step .free).2.Room := by
  rcases h.place with hstart | hround
  · have hunfilled := hstart.unfilled
    unfold State.Room
    split
    · next hpc =>
      have hpc' : s.pc = _ := hpc
      rw [hpc'] at hunfilled
      cases hunfilled
    · trivial
  · have hbatch := hround.batch
    have hlength := hround.length
    have hconsumed := hround.fq.consumed_le
    unfold State.Room
    split
    · next idx rcvd i addr hpc =>
      have hpc' : s.pc = .reserve idx rcvd i addr := hpc
      unfold State.Batch at hbatch
      unfold State.offered State.inHand at hlength
      rw [hpc'] at hbatch hlength
      dsimp only at hbatch hlength
      rw [SpscRing.length_window, List.length_singleton] at hlength
      show s.fq.reserved + 1 ≤ s.fq.consumed + (s.fq.peeked - s.fq.consumed) + numFrames
      omega
    · trivial

end Stopping

/-- A stretch of a run in which the kernel frees the slots of the frames it took, and then the receiver
    gets to make a call. -/
def Round (events : List Event) : Prop :=
  ∃ before between after ans, events = before ++ .free :: (between ++ .call ans :: after)

theorem Stopping.round {s : State} {n : Nat} (h : Stopping s (n + 1)) {events : List Event}
    (hround : Round events) : Stopping (answers State.step events s).2 n := by
  obtain ⟨before, between, after, ans, rfl⟩ := hround
  rw [answers_append, answers_cons]
  have hbefore := h.run before
  exact (hbefore.step .free).first_call hbefore.room_free between after ans

theorem Stopping.rounds {s : State} (rounds : List (List Event)) (h : Stopping s rounds.length)
    (hrounds : ∀ events ∈ rounds, Round events) :
    Stopping (answers State.step rounds.flatten s).2 0 := by
  induction rounds generalizing s with
  | nil => exact h
  | cons events rounds ih =>
    rw [List.flatten_cons, answers_append]
    have hfirst := h.round (hrounds events List.mem_cons_self)
    exact ih hfirst fun events hmem => hrounds events (List.mem_cons_of_mem _ hmem)

theorem Stopping.exited {s : State} (h : Stopping s 0) : s.pc = .exited 0 ∨ s.pc = .exited 1 := by
  have hleft := h.left
  have hhandled := h.handled
  unfold State.left at hleft
  cases hpc : s.pc with
  | exited rc =>
    rcases h.place with hstart | hround
    · have hstored := hstart.stored
      rw [hpc] at hstored
      exact .inr (congrArg _ hstored)
    · have hbatch := hround.batch
      unfold State.Batch at hbatch
      rw [hpc] at hbatch
      exact .inl (congrArg _ hbatch.1)
  | killed =>
    rw [hpc] at hhandled
    cases hhandled
  | _ =>
    rw [hpc] at hleft
    dsimp only at hleft
    omega

theorem Circulates.run {s : State} (h : Circulates s) (events : List Event) :
    Circulates (answers State.step events s).2 := by
  induction events generalizing s with
  | nil => exact h
  | cons event events ih => exact ih (h.step event).circulates

/-- After a signal at any point of any run at which `zereh_on_signal` is installed, the receiver exits
    within `s.left` rounds, in each of which the kernel frees its slots once. It exits with 0, unless the
    signal found it in `zereh_init_xsk` and a call there failed. -/
theorem receiver_stops (argc : Nat) (events : List Event)
    (hhandled : (receive argc events).2.pc.handled = true) (rounds : List (List Event))
    (hrounds : ∀ round ∈ rounds, Round round)
    (hlength : (receive argc (events ++ [.signal])).2.left ≤ rounds.length) :
    let run := receive argc (events ++ [.signal] ++ rounds.flatten)
    run.2.pc = .exited 0 ∨
      run.2.pc = .exited 1 ∧ (receive argc events).2.pc.unfilled = true ∧
        ∃ f, some (.failed f) ∈ run.1 := by
  intro run
  have hsignal : (receive argc (events ++ [.signal])).2 = { (receive argc events).2 with stop := true } := by
    unfold receive
    rw [answers_append]
    exact if_pos hhandled
  have hstopping : Stopping (receive argc (events ++ [.signal])).2 rounds.length := by
    refine ⟨(told_receive _ _).place, ?_, ?_, hlength⟩
    · rw [hsignal]
      exact hhandled
    · rw [hsignal]
  have hrun : run.2 = (answers State.step rounds.flatten (receive argc (events ++ [.signal])).2).2 :=
    answers_append _ _ _ _
  have hexited : run.2.pc = .exited 0 ∨ run.2.pc = .exited 1 := by
    rw [hrun]
    exact (hstopping.rounds rounds hrounds).exited
  refine hexited.imp_right fun hone => ⟨hone, ?_, (told_receive argc _).failed.mp hone⟩
  rcases (told_receive argc events).place with hstart | hround
  · exact hstart.unfilled
  · -- frames that go round are not given up
    have hends : Circulates run.2 := by
      show Circulates (receive argc (events ++ [.signal] ++ rounds.flatten)).2
      unfold receive
      rw [answers_append, answers_append]
      exact (hround.run _).run _
    have hfilled := hends.filled_pc.1
    rw [hone] at hfilled
    cases hfilled

/-- The kernel takes a frame and frees its slot, and a call of the receiver succeeds. -/
def sampleRound : List Event := [.take, .free, .call ⟨true, .ready, 0⟩]

/-- A signal right after the handlers are installed, and no call that fails. -/
theorem receiver_stops_sample :
    (receive 3 ([.call ⟨true, .ready, 0⟩, .call ⟨true, .ready, 0⟩] ++ [.signal] ++
      (List.replicate (numFrames + 7) sampleRound).flatten)).2.pc =
        .exited 0 := by
  have hround : ∀ round ∈ List.replicate (numFrames + 7) sampleRound,
      Round round ∧ ∀ ans, .call ans ∈ round → ans.ok = true := by
    intro round hmem
    rw [List.eq_of_mem_replicate hmem]
    exact ⟨⟨[.take], [], [], _, rfl⟩, by simp [sampleRound]⟩
  have hlength : (List.replicate (numFrames + 7) sampleRound).length = numFrames + 7 :=
    List.length_replicate
  generalize List.replicate (numFrames + 7) sampleRound = rounds at hround hlength ⊢
  have hstops := receiver_stops 3 [.call ⟨true, .ready, 0⟩, .call ⟨true, .ready, 0⟩] rfl rounds
    (fun round hmem => (hround round hmem).1) hlength.ge
  refine hstops.resolve_right fun hfailed => ?_
  refine not_failed_run (.inl (starting_initial 3)) (by decide) (by rintro ⟨⟩) ?_ hfailed.1
  intro ans hmem
  rcases List.mem_append.mp hmem with hfirst | hrest
  · simp only [List.cons_append, List.nil_append, List.mem_cons, List.not_mem_nil, or_false,
      reduceCtorEq, Event.call.injEq] at hfirst
    rcases hfirst with rfl | rfl
    · rfl
    · rfl
  · obtain ⟨round, hmem, hcall⟩ := List.mem_flatten.mp hrest
    exact (hround round hmem).2 ans hcall

end Zereh.Apps
