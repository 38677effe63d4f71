import Mathlib.Data.Rat.Defs
import MqttAccelero.Lib.Memory

/-!
# The LIS3DSH driver

Every operation goes through one bus callback, which is handed the bytes to
send, a destination and the number of bytes to fill in there. The driver has no
other way to bound what the bus writes, so the size argument of each operation
decides how much of the caller's memory changes.

Addresses are those of bytes. The result of `lis3dsh_get_xyz` is a record of
exact rationals and lives in objects of its own.
-/

namespace MqttAccelero.Lis3dsh

open Memory

/-! ## The bus callback -/

/-- What the callback comes back with. On error it may have filled in some of the bytes. -/
structure Reply (inSize : ℕ) where
  ret : ℤ
  filled : List UInt8
  length_le : filled.length ≤ inSize
  length_of_ok : ret = 0 → filled.length = inSize

/-- `lis3dsh_read_write`, as a function of the bytes to send and the bytes to fill in. -/
def ReadWrite := List UInt8 → (inSize : ℕ) → Reply inSize

structure BusCall where
  outData : List UInt8
  inData : ℕ
  inSize : ℕ
deriving DecidableEq, Repr

structure Xyz where
  x : ℚ
  y : ℚ
  z : ℚ
deriving DecidableEq

structure Ram where
  byte : ℕ → UInt8
  xyz : ℕ → Xyz

/-- `_ctx` -/
structure Ctx where
  readWrite : Option ReadWrite
  scale : ℚ

/-- A call that has returned, with the memory it leaves and what it asked of the bus. -/
structure Done where
  ret : ℤ
  ram : Ram
  calls : List BusCall

/-! ## The driver -/

def whoIAmReg : UInt8 := 0x0f
def control4Reg : UInt8 := 0x20
def outXLReg : UInt8 := 0x28

def lis3dshId : UInt8 := 0x3f

/-- `sizeof(uint8_t *)` on the Cortex-M4 -/
def sizeofPointer : ℕ := 4

def makeCommand (isRead : Bool) (addr : UInt8) : UInt8 :=
  (UInt8.ofNat isRead.toNat <<< 7) ||| addr

/-- `read_write`; there is no result if its assertion fails. -/
def readWrite (ctx : Ctx) (outData : List UInt8) (inData inSize : ℕ) (ram : Ram) : Option Done :=
  ctx.readWrite.map fun callback =>
    let reply := callback outData inSize
    { ret := reply.ret
      ram := { ram with byte := store ram.byte inData reply.filled }
      calls := [⟨outData, inData, inSize⟩] }

/-- `lis3dsh_init`; the address 0 stands for `NULL`. -/
def lis3dshInit (readWriteCb : Option ReadWrite) (ram : Ram) : Option (Ctx × Done) :=
  readWriteCb.bind fun callback =>
    let ctx : Ctx := ⟨some callback, 2000⟩
    let cmd := [makeCommand false control4Reg, 0x67]
    -- What `read_write` returns is dropped here.
    (readWrite ctx cmd 0 0 ram).map fun done => (ctx, { done with ret := 0 })

def lis3dshGetId (ctx : Ctx) (id : ℕ) (ram : Ram) : Option Done :=
  let cmd := makeCommand true whoIAmReg
  readWrite ctx [cmd] id sizeofPointer { ram with byte := store ram.byte id [0] }

def lis3dshReadReg (ctx : Ctx) (addr : UInt8) (content : ℕ) (ram : Ram) : Option Done :=
  let cmd := makeCommand true addr
  readWrite ctx [cmd] content 1 { ram with byte := store ram.byte content [0] }

/-- The conversion of `(high << 8) | low` to `int16_t`. -/
def int16 (low high : UInt8) : ℤ :=
  (BitVec.ofNat 16 ((high.toNat <<< 8) ||| low.toNat)).toInt

/-- `lis3dsh_get_xyz`, with its local `buf` at the given address. -/
def lis3dshGetXyz (ctx : Ctx) (buf out : ℕ) (ram : Ram) : Option Done :=
  let cmd := makeCommand true outXLReg
  (readWrite ctx [cmd] buf 6 ram).map fun done =>
    if done.ret ≠ 0 then { done with ret := 1 }
    else
      let byte := fun index => done.ram.byte (buf + index)
      let read : Xyz :=
        { x := int16 (byte 0) (byte 1) / ctx.scale
          y := int16 (byte 2) (byte 3) / ctx.scale
          z := int16 (byte 4) (byte 5) / ctx.scale }
      { done with
        ret := 0
        ram := { done.ram with
          xyz := fun object => if object = out then read else done.ram.xyz object } }

/-- `_ctx` once `lis3dsh_init` has returned. -/
def initialised (callback : ReadWrite) : Ctx :=
  ⟨some callback, 2000⟩

@[simp]
theorem initialised_scale (callback : ReadWrite) : (initialised callback).scale = 2000 := rfl

theorem lis3dshInit_eq (callback : ReadWrite) (ram : Ram) :
    lis3dshInit (some callback) ram =
      some (initialised callback, ⟨0, ram, [⟨[0x20, 0x67], 0, 0⟩]⟩) := by
  have nothing : (callback [0x20, 0x67] 0).filled = [] :=
    List.length_eq_zero_iff.mp (Nat.le_zero.mp (callback [0x20, 0x67] 0).length_le)
  have kept : store ram.byte 0 [] = ram.byte := by
    funext address
    exact store_of_outside (Or.inr (Nat.zero_le address))
  simp [lis3dshInit, readWrite, initialised, makeCommand, control4Reg, nothing, kept]

/-! ## Values -/

/-- The signed 16-bit value of two bytes, low byte first. -/
def signedLe (low high : UInt8) : ℤ :=
  if high.toNat < 128 then low.toNat + 256 * high.toNat
  else low.toNat + 256 * high.toNat - 65536

theorem int16_eq_signedLe (low high : UInt8) : int16 low high = signedLe low high := by
  have lowBound := low.toNat_lt
  have highBound := high.toNat_lt
  have joined : (high.toNat <<< 8) ||| low.toNat = 256 * high.toNat + low.toNat := by
    rw [← Nat.shiftLeft_add_eq_or_of_lt lowBound, Nat.shiftLeft_eq]
    omega
  unfold int16 signedLe
  rw [joined, BitVec.toInt_eq_toNat_cond, BitVec.toNat_ofNat, Nat.mod_eq_of_lt (by omega)]
  split <;> split <;> omega

/-- Bit 7 of a command is set, whatever the address. -/
theorem makeCommand_read (addr : UInt8) : makeCommand true addr = 0x80 ||| addr := rfl

/-! ## What an operation touches -/

inductive ReadOp where
  | getId
  | readReg (addr : UInt8)
  | getXyz
deriving DecidableEq, Repr

namespace ReadOp

/-- The object at `dest` is the byte pointed to, or the local buffer of `lis3dsh_get_xyz`. -/
def run (ctx : Ctx) (dest out : ℕ) (ram : Ram) : ReadOp → Option Done
  | getId => lis3dshGetId ctx dest ram
  | readReg addr => lis3dshReadReg ctx addr dest ram
  | getXyz => lis3dshGetXyz ctx dest out ram

def register : ReadOp → UInt8
  | getId => whoIAmReg
  | readReg addr => addr
  | getXyz => outXLReg

/-- The number of bytes of the object at `dest`. -/
def objectSize : ReadOp → ℕ
  | getId | readReg _ => 1
  | getXyz => 6

end ReadOp

/-- The record that six answered bytes stand for. -/
def Xyz.Stands (read : Xyz) (answer : List UInt8) : Prop :=
  ∃ xl xh yl yh zl zh, answer = [xl, xh, yl, yh, zl, zh] ∧
    read = ⟨signedLe xl xh / 2000, signedLe yl yh / 2000, signedLe zl zh / 2000⟩

/-- The operation has sent its command, asked for the bytes its object holds and changed
nothing else than that object and, if it succeeded, `*out`. -/
structure TouchesOnlyResult (op : ReadOp) (callback : ReadWrite) (dest out : ℕ)
    (ram : Ram) (done : Done) : Prop where
  calls : done.calls = [⟨[0x80 ||| op.register], dest, op.objectSize⟩]
  bytes : Set.EqOn done.ram.byte ram.byte (Set.Ico dest (dest + op.objectSize))ᶜ
  others : ∀ object, object ≠ out → done.ram.xyz object = ram.xyz object
  kept : op ≠ .getXyz ∨ done.ret ≠ 0 → done.ram.xyz out = ram.xyz out
  stored : op = .getXyz → done.ret = 0 →
    (done.ram.xyz out).Stands (callback [0x80 ||| op.register] op.objectSize).filled

variable {callback : ReadWrite} {dest out : ℕ} {ram : Ram}

theorem readWrite_initialised (outData : List UInt8) (inData inSize : ℕ) :
    readWrite (initialised callback) outData inData inSize ram =
      some
        { ret := (callback outData inSize).ret
          ram := { ram with byte := store ram.byte inData (callback outData inSize).filled }
          calls := [⟨outData, inData, inSize⟩] } := rfl

theorem lis3dshReadReg_touches (addr : UInt8) :
    ∃ done, lis3dshReadReg (initialised callback) addr dest ram = some done ∧
      TouchesOnlyResult (.readReg addr) callback dest out ram done := by
  refine ⟨_, readWrite_initialised _ _ _, ?_⟩
  constructor
  · rfl
  · have answered := eqOn_store_of_le (store ram.byte dest [0]) dest
      (callback [makeCommand true addr] 1).length_le
    have cleared := eqOn_store ram.byte dest [0]
    exact answered.trans cleared
  · intro object _
    rfl
  · intro _
    rfl
  · intro isXyz
    cases isXyz

theorem Reply.exists_six {answer : Reply 6} (ok : answer.ret = 0) :
    ∃ xl xh yl yh zl zh, answer.filled = [xl, xh, yl, yh, zl, zh] := by
  have full := answer.length_of_ok ok
  rcases filled : answer.filled with _ | ⟨xl, _ | ⟨xh, _ | ⟨yl, _ | ⟨yh, _ | ⟨zl, _ | ⟨zh, rest⟩⟩⟩⟩⟩⟩
  all_goals simp only [filled, List.length_cons, List.length_nil] at full
  all_goals try omega
  have noRest : rest = [] := by
    apply List.length_eq_zero_iff.mp
    omega
  exact ⟨xl, xh, yl, yh, zl, zh, by rw [noRest]⟩

theorem lis3dshGetXyz_failed (failed : (callback [0x80 ||| outXLReg] 6).ret ≠ 0) :
    lis3dshGetXyz (initialised callback) dest out ram =
      some
        { ret := 1
          ram := { ram with
            byte := store ram.byte dest (callback [0x80 ||| outXLReg] 6).filled }
          calls := [⟨[0x80 ||| outXLReg], dest, 6⟩] } := by
  simp [lis3dshGetXyz, readWrite_initialised, makeCommand_read, failed]

theorem lis3dshGetXyz_ok {xl xh yl yh zl zh : UInt8}
    (ok : (callback [0x80 ||| outXLReg] 6).ret = 0)
    (filled : (callback [0x80 ||| outXLReg] 6).filled = [xl, xh, yl, yh, zl, zh]) :
    lis3dshGetXyz (initialised callback) dest out ram =
      some
        { ret := 0
          ram :=
            { byte := store ram.byte dest [xl, xh, yl, yh, zl, zh]
              xyz := fun object =>
                if object = out then
                  ⟨signedLe xl xh / 2000, signedLe yl yh / 2000, signedLe zl zh / 2000⟩
                else ram.xyz object }
          calls := [⟨[0x80 ||| outXLReg], dest, 6⟩] } := by
  simp [lis3dshGetXyz, readWrite_initialised, makeCommand_read, ok, filled, store,
    int16_eq_signedLe]

theorem lis3dshGetXyz_touches :
    ∃ done, lis3dshGetXyz (initialised callback) dest out ram = some done ∧
      TouchesOnlyResult .getXyz callback dest out ram done := by
  have answered := eqOn_store_of_le ram.byte dest
    (callback [0x80 ||| outXLReg] 6).length_le
  by_cases ok : (callback [0x80 ||| outXLReg] 6).ret = 0
  · rcases Reply.exists_six ok with ⟨xl, xh, yl, yh, zl, zh, filled⟩
    refine ⟨_, lis3dshGetXyz_ok ok filled, rfl, filled ▸ answered, ?_, ?_, ?_⟩
    · intro object other
      exact if_neg other
    · intro failed
      simp at failed
    · intro _ _
      exact ⟨xl, xh, yl, yh, zl, zh, filled, if_pos rfl⟩
  · refine ⟨_, lis3dshGetXyz_failed ok, rfl, answered, fun _ _ => rfl, fun _ => rfl, ?_⟩
    intro _ succeeded
    simp at succeeded

/-! ## The identification read

`sizeof(id)` is the size of the pointer, so four bytes are asked for where one fits. -/

theorem lis3dshGetId_eq :
    lis3dshGetId (initialised callback) dest ram =
      some
        { ret := (callback [0x80 ||| whoIAmReg] 4).ret
          ram := { ram with
            byte := store (store ram.byte dest [0]) dest
              (callback [0x80 ||| whoIAmReg] 4).filled }
          calls := [⟨[0x80 ||| whoIAmReg], dest, 4⟩] } := rfl

/-- A successful identification read stores the answer over the three bytes behind `*id`. -/
theorem lis3dshGetId_overwrites (ok : (callback [0x80 ||| whoIAmReg] 4).ret = 0) :
    ∃ done, lis3dshGetId (initialised callback) dest ram = some done ∧
      load done.ram.byte dest 4 = (callback [0x80 ||| whoIAmReg] 4).filled := by
  refine ⟨_, lis3dshGetId_eq, ?_⟩
  have held := load_store (store ram.byte dest [0]) dest (callback [0x80 ||| whoIAmReg] 4).filled
  rwa [(callback [0x80 ||| whoIAmReg] 4).length_of_ok ok] at held

/-- Reads touch only their result, except for the identification read, which never does. -/
theorem touches_only_result_iff (op : ReadOp) (callback : ReadWrite) (dest out : ℕ) (ram : Ram) :
    (∃ done, op.run (initialised callback) dest out ram = some done ∧
      TouchesOnlyResult op callback dest out ram done) ↔ op ≠ .getId := by
  cases op with
  | getId =>
      simp only [ne_eq, not_true_eq_false, iff_false, not_exists, not_and]
      intro done returned touches
      have asked : done.calls = [⟨[0x80 ||| whoIAmReg], dest, 4⟩] := by
        simp only [ReadOp.run, lis3dshGetId_eq, Option.some.injEq] at returned
        rw [← returned]
      have granted := touches.calls
      rw [asked] at granted
      simp [ReadOp.objectSize] at granted
  | readReg addr =>
      have touches : ∃ done, lis3dshReadReg (initialised callback) addr dest ram = some done ∧
          TouchesOnlyResult (.readReg addr) callback dest out ram done :=
        lis3dshReadReg_touches addr
      simpa [ReadOp.run] using touches
  | getXyz =>
      have touches : ∃ done, lis3dshGetXyz (initialised callback) dest out ram = some done ∧
          TouchesOnlyResult .getXyz callback dest out ram done :=
        lis3dshGetXyz_touches
      simpa [ReadOp.run] using touches

/-- A sensor that answers every byte with its identification. -/
def answersId : ReadWrite := fun _ inSize =>
  ⟨0, List.replicate inSize lis3dshId, by simp, fun _ => List.length_replicate⟩

def blank : Ram := ⟨fun _ => 0, fun _ => ⟨0, 0, 0⟩⟩

theorem touches_only_result_violated :
    ¬∃ done, ReadOp.getId.run (initialised answersId) 0 0 blank = some done ∧
      TouchesOnlyResult .getId answersId 0 0 blank done := by
  rintro ⟨done, returned, touches⟩
  have behind : (1 : ℕ) ∈ (Set.Ico 0 (0 + ReadOp.getId.objectSize))ᶜ := by
    simp [ReadOp.objectSize]
  have kept := touches.bytes behind
  simp only [ReadOp.run, lis3dshGetId_eq, Option.some.injEq] at returned
  rw [← returned] at kept
  simp [blank, answersId, store, lis3dshId] at kept

end MqttAccelero.Lis3dsh
