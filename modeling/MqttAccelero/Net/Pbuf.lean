import Mathlib.Algebra.GroupWithZero.Nat
import MqttAccelero.Lib.Memory

/-!
# Packet buffers

The `struct pbuf` of lwIP as far as the receive path uses it, and
`pbuf_alloc(PBUF_RAW, length, PBUF_POOL)`. A pool buffer is memory starting at
its payload pointer: what is written past its capacity lands behind the buffer.
-/

namespace MqttAccelero.Net

/-- `PBUF_POOL_BUFSIZE`, a multiple of `MEM_ALIGNMENT`; `PBUF_RAW` takes no header space of it. -/
def pbufPoolBufsize : ℕ := 1524

structure Pbuf where
  payload : ℕ → UInt8
  /-- The bytes of pool memory from `payload` on. -/
  capacity : ℕ
  len : ℕ
  totLen : ℕ
  /-- How many bytes have been written from `payload` on. -/
  written : ℕ

namespace Pbuf

def bytes (p : Pbuf) : List UInt8 :=
  Memory.load p.payload 0 p.len

/-- `memcpy` to the start of the payload. -/
def memcpy (p : Pbuf) (source : List UInt8) : Pbuf :=
  { p with
    payload := Memory.store p.payload 0 source
    written := max p.written source.length }

end Pbuf

def chainBytes (chain : List Pbuf) : List UInt8 :=
  chain.flatMap Pbuf.bytes

def chainLen (chain : List Pbuf) : ℕ :=
  (chain.map Pbuf.len).sum

/-- `pbuf_init_alloced_pbuf` on a pool buffer with unspecified contents. -/
def poolPbuf (junk : ℕ → ℕ → UInt8) (remLen : ℕ) : Pbuf where
  payload := junk remLen
  capacity := pbufPoolBufsize
  len := min remLen pbufPoolBufsize
  totLen := remLen
  written := 0

/--
The `do … while (rem_len > 0)` loop of `pbuf_alloc` for `PBUF_POOL`. A round
takes at least one byte while any is left, so `rounds = remLen` is enough.
-/
def poolChain (junk : ℕ → ℕ → UInt8) : ℕ → ℕ → List Pbuf
  | 0, remLen => [poolPbuf junk remLen]
  | rounds + 1, remLen =>
      let q := poolPbuf junk remLen
      if 0 < remLen - q.len then q :: poolChain junk rounds (remLen - q.len) else [q]

/-- `pbuf_alloc(PBUF_RAW, length, PBUF_POOL)`; `pool` is `none` if the pool runs out. -/
def pbufAlloc (pool : Option (ℕ → ℕ → UInt8)) (length : ℕ) : Option (List Pbuf) :=
  pool.map fun junk => poolChain junk length length

/-- Apply a change to the first buffer of a chain, the one `p` points to. -/
def updateHead (change : Pbuf → Pbuf) : List Pbuf → List Pbuf
  | [] => []
  | p :: rest => change p :: rest

/-- What `ll_input` makes of a fresh chain: the whole frame and its length go to the first buffer. -/
def inputChain (junk : ℕ → ℕ → UInt8) (frame : List UInt8) : List Pbuf :=
  updateHead (fun p => { p with len := frame.length })
    (updateHead (·.memcpy frame) (poolChain junk frame.length frame.length))

@[simp]
theorem chainLen_nil : chainLen [] = 0 := rfl

@[simp]
theorem chainLen_cons (p : Pbuf) (rest : List Pbuf) :
    chainLen (p :: rest) = p.len + chainLen rest := by
  simp [chainLen]

@[simp]
theorem chainBytes_cons (p : Pbuf) (rest : List Pbuf) :
    chainBytes (p :: rest) = p.bytes ++ chainBytes rest := by
  simp [chainBytes]

theorem isSome_pbufAlloc (pool : Option (ℕ → ℕ → UInt8)) (length : ℕ) :
    (pbufAlloc pool length).isSome = pool.isSome :=
  Option.isSome_map

theorem poolChain_of_le (junk : ℕ → ℕ → UInt8) (rounds : ℕ) {remLen : ℕ}
    (fits : remLen ≤ pbufPoolBufsize) : poolChain junk rounds remLen = [poolPbuf junk remLen] := by
  cases rounds with
  | zero => rfl
  | succ rounds => simp [poolChain, poolPbuf, fits]

theorem poolChain_eq_cons (junk : ℕ → ℕ → UInt8) (rounds remLen : ℕ) :
    ∃ rest, poolChain junk rounds remLen = poolPbuf junk remLen :: rest := by
  cases rounds with
  | zero => exact ⟨[], rfl⟩
  | succ rounds =>
      simp only [poolChain]
      split
      · exact ⟨_, rfl⟩
      · exact ⟨[], rfl⟩

/-- The loop spreads the whole request over the chain. -/
theorem chainLen_poolChain (junk : ℕ → ℕ → UInt8) {rounds remLen : ℕ}
    (enough : remLen ≤ (rounds + 1) * pbufPoolBufsize) :
    chainLen (poolChain junk rounds remLen) = remLen := by
  induction rounds generalizing remLen with
  | zero =>
      have fits : remLen ≤ pbufPoolBufsize := by simpa using enough
      simp [poolChain, poolPbuf, fits]
  | succ rounds ih =>
      simp only [poolChain]
      have taken : (poolPbuf junk remLen).len = min remLen pbufPoolBufsize := rfl
      rw [Nat.add_mul, Nat.one_mul] at enough
      split
      · have tail : chainLen (poolChain junk rounds (remLen - (poolPbuf junk remLen).len)) =
            remLen - (poolPbuf junk remLen).len := ih (by omega)
        rw [chainLen_cons, tail]
        omega
      · rw [chainLen_cons, chainLen_nil]
        omega

end MqttAccelero.Net
