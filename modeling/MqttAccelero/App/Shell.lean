import Mathlib.Algebra.Group.Int.Defs
import Mathlib.Data.List.Basic

/-!
# The shell

From a line of the line editor to the handler of a command. What a command does is
recorded as a list of actions, in which every load of an `argv[k]` has its place.

`argv` is a total function: what it holds from `argc` on is whatever the array of the
line editor happened to hold.
-/

namespace MqttAccelero.Shell

abbrev CString := List UInt8

/-- A text of the source, which is ASCII. -/
def cstr (text : String) : CString := text.toList.map fun char => UInt8.ofNat char.toNat

/-! ## The line editor -/

/-- `_COMMAND_TOKEN_NMB` -/
def commandTokenNmb : ℕ := 8

/-- The loops of `split` from index `ind` on, with `i` tokens found: the places where
tokens start, or `none` for -1. Blanks have been stored as zeros. -/
def splitFrom : List UInt8 → (ind i : ℕ) → (inToken : Bool) → Option (List ℕ)
  | [], _, _, _ => some []
  | byte :: rest, ind, i, inToken =>
      if byte = 0 then splitFrom rest (ind + 1) i false
      else if inToken then splitFrom rest (ind + 1) i true
      else if i + 1 ≥ commandTokenNmb then none
      else (splitFrom rest (ind + 1) (i + 1) true).map (ind :: ·)

def split (cmdline : List UInt8) (limit : ℕ) : Option (List ℕ) :=
  splitFrom (cmdline.take limit) 0 0 false

/-- The arguments of `execute`, if `new_line_handler` calls it. -/
def newLineHandler (cmdline : List UInt8) (cmdlen : ℕ) (unset : ℕ → CString) :
    Option (ℕ × (ℕ → CString)) :=
  match split cmdline cmdlen with
  | none => none
  | some starts =>
      if 0 < starts.length then
        some (starts.length, fun k =>
          match starts[k]? with
          | some start => (cmdline.drop start).takeWhile (· ≠ 0)
          | none => unset k)
      else none

/-! ## What handlers do -/

inductive Handler where
  | help
  | helloTest
  | rtcTest
  | mqttTest
  | pingTest
  | acceleroTest
deriving DecidableEq, Repr

inductive Call where
  | gettimeofday
  | mqttClientNew
  | mqttSetInpubCallback
  | mqttClientConnect
  /-- Whether `mqtt_client` is set, and the counter that makes up the payload. -/
  | mqttPublish (client : Bool) (counter : UInt8)
  | pingInit
  | pingSendNow
  | acceleroInit
  | lis3dshReadReg (addr : UInt8)
  | acceleroGetXyz
  | acceleroGetTilt
  | osalThreadSleep (ms : ℕ)
deriving DecidableEq, Repr

inductive PrintArg where
  | str (text : CString)
  | num (value : ℕ)
  | float (bits : UInt32)
deriving DecidableEq, Repr

inductive Action where
  /-- `argv[k]` is read. -/
  | load (k : ℕ)
  | print (format : String) (args : List PrintArg)
  /-- The handler of a command is entered. -/
  | enter (handler : Handler)
  | call (call : Call)
deriving DecidableEq, Repr

/-- The static variables of the handlers. -/
structure Statics where
  /-- `mqtt_client` is not `NULL`. -/
  mqttClient : Bool
  testCounter : UInt8
  isInit : Bool
deriving DecidableEq, Repr

structure HandlerRun where
  actions : List Action
  statics : Statics
  /-- `none` as long as a handler goes on sampling. -/
  ret : Option ℤ
deriving DecidableEq, Repr

/-- What the functions called return. -/
structure ShellEnv where
  time : UInt32 × UInt32
  clientAllocated : Bool
  /-- `content` after `lis3dsh_read_reg` -/
  content : UInt8
  /-- The results of `accelero_get_xyz` as far as the run is followed; `none` is an error. -/
  xyz : List (Option (List UInt32))
  tilt : List (Option (List UInt32))

structure ShellCommand where
  cmd : String
  handler : Handler
  help : String
deriving DecidableEq, Repr

def shellCommands : List ShellCommand :=
  [⟨"help", .help, "print help"⟩,
    ⟨"hello", .helloTest, "just print hello"⟩,
    ⟨"rtc", .rtcTest, "print time"⟩,
    ⟨"mqtt", .mqttTest, "run mqtt test"⟩,
    ⟨"ping", .pingTest, "ping"⟩,
    ⟨"lis", .acceleroTest, "accelerometer test"⟩]

/-! ## The handlers -/

def help (statics : Statics) : HandlerRun where
  actions := shellCommands.map fun curr =>
    .print "\t%s: %s\r\n" [.str (cstr curr.cmd), .str (cstr curr.help)]
  statics := statics
  ret := some 0

def helloTest (statics : Statics) : HandlerRun :=
  ⟨[.print "hello, world!" []], statics, some 0⟩

def rtcTest (env : ShellEnv) (statics : Statics) : HandlerRun where
  actions :=
    [.call .gettimeofday,
      .print "\t%ds %03dms\r\n" [.num env.time.1.toNat, .num (env.time.2 / 1000).toNat]]
  statics := statics
  ret := some 0

def mqttTest (env : ShellEnv) (argv : ℕ → CString) (statics : Statics) : HandlerRun :=
  let cmd := argv 1
  let start := [.load 1, .print "cmd: %s" [.str cmd]]
  if cmd = cstr "init" then
    if env.clientAllocated then
      ⟨start ++
          [.call .mqttClientNew, .call .mqttSetInpubCallback, .call .mqttClientConnect],
        { statics with mqttClient := true }, some 0⟩
    else
      ⟨start ++ [.call .mqttClientNew, .print "Can't alloc mqtt client struct" []],
        { statics with mqttClient := false }, some 1⟩
  else if cmd = cstr "pub" then
    let counter := statics.testCounter + 1
    ⟨start ++ [.call (.mqttPublish statics.mqttClient counter)],
      { statics with testCounter := counter }, some 0⟩
  else ⟨start ++ [.print "Unsupported cmd" []], statics, some 0⟩

def pingTest (statics : Statics) : HandlerRun where
  actions := (if statics.isInit then [] else [.call .pingInit]) ++ [.call .pingSendNow]
  statics := { statics with isInit := true }
  ret := some 0

/-- `strtol(s, NULL, 16)` -/
def strtol16 (s : CString) : ℤ :=
  let isSpace := fun byte : UInt8 => byte = 0x20 ∨ (0x09 ≤ byte ∧ byte ≤ 0x0d)
  let isDigit := fun byte : UInt8 => 0x30 ≤ byte ∧ byte ≤ 0x39
  let isUpper := fun byte : UInt8 => 0x41 ≤ byte ∧ byte ≤ 0x46
  let isLower := fun byte : UInt8 => 0x61 ≤ byte ∧ byte ≤ 0x66
  let isHex := fun byte : UInt8 => isDigit byte ∨ isUpper byte ∨ isLower byte
  let digit := fun byte : UInt8 =>
    if isDigit byte then byte.toNat - 0x30
    else if isUpper byte then byte.toNat - 0x41 + 10
    else byte.toNat - 0x61 + 10
  let s := s.dropWhile fun byte => isSpace byte
  let (negative, s) : Bool × CString :=
    match s with
    | 0x2d :: rest => (true, rest)
    | 0x2b :: rest => (false, rest)
    | _ => (false, s)
  let s :=
    match s with
    | 0x30 :: x :: first :: rest =>
        if (x = 0x78 ∨ x = 0x58) ∧ isHex first then first :: rest else s
    | _ => s
  let magnitude : ℕ :=
    (s.takeWhile fun byte => isHex byte).foldl (fun value byte => value * 16 + digit byte) 0
  if negative then max (-(magnitude : ℤ)) (-2 ^ 31) else min (magnitude : ℤ) (2 ^ 31 - 1)

/-- The loops of the `acc` and `tilt` commands. -/
def sampleLoop (read : Call) (onError : List Action) (format : String) :
    List (Option (List UInt32)) → List Action × Option ℤ
  | [] => ([], none)
  | none :: _ => (.call read :: onError, some 1)
  | some sample :: rest =>
      let (actions, ret) := sampleLoop read onError format rest
      (.call read :: .print format (sample.map .float) :: .call (.osalThreadSleep 50) :: actions,
        ret)

def acceleroTest (env : ShellEnv) (argc : ℕ) (argv : ℕ → CString) (statics : Statics) :
    HandlerRun :=
  if argc < 2 then ⟨[.print "No command" []], statics, some 1⟩
  else
    let cmd := argv 1
    if cmd = cstr "init" then ⟨[.load 1, .call .acceleroInit], statics, some 0⟩
    else if cmd = cstr "read" then
      if argc < 3 then ⟨[.load 1, .print "Need to specify reg addr" []], statics, some 1⟩
      else
        let addr := UInt8.ofInt (strtol16 (argv 2))
        ⟨[.load 1, .load 2, .call (.lis3dshReadReg addr),
            .print "reg 0x%x: 0x%x" [.num addr.toNat, .num env.content.toNat]], statics, some 0⟩
    else if cmd = cstr "acc" then
      let (actions, ret) := sampleLoop .acceleroGetXyz [] "x: %f y: %f z: %f" env.xyz
      ⟨.load 1 :: actions, statics, ret⟩
    else if cmd = cstr "tilt" then
      let (actions, ret) :=
        sampleLoop .acceleroGetTilt [.print "Read data error" []] "pitch: %f roll: %f" env.tilt
      ⟨.load 1 :: actions, statics, ret⟩
    else ⟨[.load 1, .print "Unsupported cmd" []], statics, some 0⟩

/-! ## The dispatcher -/

def Handler.run (env : ShellEnv) (argc : ℕ) (argv : ℕ → CString) (statics : Statics) :
    Handler → HandlerRun
  | .help => Shell.help statics
  | .helloTest => Shell.helloTest statics
  | .rtcTest => Shell.rtcTest env statics
  | .mqttTest => Shell.mqttTest env argv statics
  | .pingTest => Shell.pingTest statics
  | .acceleroTest => Shell.acceleroTest env argc argv statics

/-- A call through the table, after what has been done before it. -/
def callHandler (env : ShellEnv) (argc : ℕ) (argv : ℕ → CString) (statics : Statics)
    (before : List Action) (handler : Handler) : HandlerRun :=
  let done := handler.run env argc argv statics
  ⟨before ++ .enter handler :: done.actions, done.statics, done.ret.map fun _ => 0⟩

/-- The loop of `shell_exec_cmd`, and what comes after it. -/
def execFrom (env : ShellEnv) (argc : ℕ) (argv : ℕ → CString) (statics : Statics) :
    List ShellCommand → HandlerRun
  | [] =>
      callHandler env argc argv statics [.load 0, .print "Unknown command!\r\n" []]
        (shellCommands.head (List.cons_ne_nil _ _)).handler
  | curr :: rest =>
      if cstr curr.cmd = argv 0 then callHandler env argc argv statics [.load 0] curr.handler
      else execFrom env argc argv statics rest

def shellExecCmd (env : ShellEnv) (argc : ℕ) (argv : ℕ → CString) (statics : Statics) :
    HandlerRun :=
  execFrom env argc argv statics shellCommands

/-! ## What is claimed -/

def Action.loaded : Action → Option ℕ
  | .load k => some k
  | _ => none

def Action.entered : Action → Option Handler
  | .enter handler => some handler
  | _ => none

namespace HandlerRun

/-- The indices of `argv` that have been read. -/
def loads (run : HandlerRun) : List ℕ := run.actions.filterMap Action.loaded

def handlers (run : HandlerRun) : List Handler := run.actions.filterMap Action.entered

def StaysInside (run : HandlerRun) (argc : ℕ) : Prop := ∀ k ∈ run.loads, k < argc

/-- Exactly one handler is run: that of the command named, or `help` after a message if
there is no such command. -/
def RunsNamed (run : HandlerRun) (cmd : CString) : Prop :=
  (∃ command ∈ shellCommands, cstr command.cmd = cmd ∧ run.handlers = [command.handler]) ∨
    (∀ command ∈ shellCommands, cstr command.cmd ≠ cmd) ∧ run.handlers = [.help] ∧
      .print "Unknown command!\r\n" [] ∈ run.actions

end HandlerRun

variable {env : ShellEnv} {argc : ℕ} {argv : ℕ → CString} {statics : Statics}

/-! ## The actions of the handlers -/

/-- Neither a load nor the start of another handler. -/
def Action.Inner (action : Action) : Prop := action.loaded = none ∧ action.entered = none

theorem inner_sampleLoop {read : Call} {onError : List Action} {format : String}
    (errorInner : ∀ action ∈ onError, action.Inner) (samples : List (Option (List UInt32))) :
    ∀ action ∈ (sampleLoop read onError format samples).1, action.Inner := by
  induction samples with
  | nil =>
      intro action member
      cases member
  | cons sample rest ih =>
      intro action member
      cases sample with
      | none =>
          rcases List.mem_cons.mp member with rfl | member
          · exact ⟨rfl, rfl⟩
          · exact errorInner action member
      | some values =>
          simp only [sampleLoop, List.mem_cons] at member
          rcases member with rfl | rfl | rfl | member
          · exact ⟨rfl, rfl⟩
          · exact ⟨rfl, rfl⟩
          · exact ⟨rfl, rfl⟩
          · exact ih action member

theorem loads_of_inner {actions : List Action} (inner : ∀ action ∈ actions, action.Inner) :
    actions.filterMap Action.loaded = [] :=
  List.filterMap_eq_nil_iff.mpr fun action member => (inner action member).1

theorem handlers_of_inner {actions : List Action} (inner : ∀ action ∈ actions, action.Inner) :
    actions.filterMap Action.entered = [] :=
  List.filterMap_eq_nil_iff.mpr fun action member => (inner action member).2

theorem inner_acc : ∀ action ∈ (sampleLoop .acceleroGetXyz [] "x: %f y: %f z: %f" env.xyz).1,
    action.Inner := by
  apply inner_sampleLoop
  intro action member
  cases member

theorem inner_tilt : ∀ action ∈ (sampleLoop .acceleroGetTilt [.print "Read data error" []]
    "pitch: %f roll: %f" env.tilt).1, action.Inner := by
  apply inner_sampleLoop
  intro action member
  rw [List.mem_singleton.mp member]
  exact ⟨rfl, rfl⟩

theorem loads_sampling {actions : List Action} {ret : Option ℤ}
    (inner : ∀ action ∈ actions, action.Inner) :
    (⟨.load 1 :: actions, statics, ret⟩ : HandlerRun).loads = [1] :=
  congrArg (1 :: ·) (loads_of_inner inner)

theorem handlers_sampling {actions : List Action} {ret : Option ℤ}
    (inner : ∀ action ∈ actions, action.Inner) :
    (⟨.load 1 :: actions, statics, ret⟩ : HandlerRun).handlers = [] := by
  show actions.filterMap Action.entered = []
  exact handlers_of_inner inner

/-- `mqtt_test` reads `argv[1]` whatever `argc` is. -/
theorem loads_mqttTest : (mqttTest env argv statics).loads = [1] := by
  unfold mqttTest
  simp only
  repeat' split
  all_goals rfl

theorem loads_acceleroTest (enough : 2 ≤ argc) :
    (acceleroTest env argc argv statics).loads =
      if argv 1 = cstr "read" ∧ 3 ≤ argc then [1, 2] else [1] := by
  have argument : ¬argc < 2 := Nat.not_lt.mpr enough
  simp only [acceleroTest, if_neg argument]
  split
  · next isInit =>
      have notRead : cstr "init" ≠ cstr "read" := by decide
      rw [isInit, if_neg fun read => notRead read.1]
      rfl
  · split
    · next isRead =>
        split
        · next missing =>
            rw [if_neg fun read => Nat.not_lt.mpr read.2 missing]
            rfl
        · next given =>
            rw [if_pos ⟨isRead, Nat.not_lt.mp given⟩]
            rfl
    · next notRead =>
        have one : (if argv 1 = cstr "read" ∧ 3 ≤ argc then [1, 2] else [1]) = [1] :=
          if_neg fun read => notRead read.1
        rw [one]
        split
        · exact loads_sampling inner_acc
        · split
          · exact loads_sampling inner_tilt
          · rfl

theorem staysInside_acceleroTest : (acceleroTest env argc argv statics).StaysInside argc := by
  intro k member
  by_cases enough : 2 ≤ argc
  · rw [loads_acceleroTest enough] at member
    split at member
    · next read =>
        have inPair : k = 1 ∨ k = 2 := by simpa using member
        omega
    · rw [List.mem_singleton.mp member]
      omega
  · have noArgument : argc < 2 := Nat.not_le.mp enough
    rw [acceleroTest, if_pos noArgument] at member
    cases member

theorem handlers_run (handler : Handler) :
    (handler.run env argc argv statics).handlers = [] := by
  cases handler with
  | help => rfl
  | helloTest => rfl
  | rtcTest => rfl
  | mqttTest =>
      simp only [Handler.run, mqttTest]
      repeat' split
      all_goals rfl
  | pingTest =>
      simp only [Handler.run, pingTest, HandlerRun.handlers]
      split
      all_goals rfl
  | acceleroTest =>
      simp only [Handler.run, acceleroTest]
      repeat' split
      all_goals first
        | rfl
        | exact handlers_sampling inner_acc
        | exact handlers_sampling inner_tilt

/-- Only `mqtt_test` reads an argument without looking at `argc`. -/
theorem staysInside_run_iff (handler : Handler) :
    (handler.run env argc argv statics).StaysInside argc ↔ (handler = .mqttTest → 2 ≤ argc) := by
  have nothing : ∀ {run : HandlerRun}, run.loads = [] → run.StaysInside argc := by
    intro run none k member
    rw [none] at member
    cases member
  cases handler with
  | mqttTest =>
      rw [HandlerRun.StaysInside, Handler.run, loads_mqttTest]
      simp only [List.mem_singleton, forall_eq, forall_const]
      exact Nat.lt_iff_add_one_le
  | acceleroTest => simp [Handler.run, staysInside_acceleroTest]
  | help => simp [nothing (rfl : (Handler.help.run env argc argv statics).loads = [])]
  | helloTest => simp [nothing (rfl : (Handler.helloTest.run env argc argv statics).loads = [])]
  | rtcTest => simp [nothing (rfl : (Handler.rtcTest.run env argc argv statics).loads = [])]
  | pingTest =>
      have none : (Handler.pingTest.run env argc argv statics).loads = [] := by
        simp only [Handler.run, pingTest, HandlerRun.loads]
        split
        all_goals rfl
      simp [nothing none]

/-! ## The dispatcher -/

theorem loads_callHandler {before : List Action} {handler : Handler} :
    (callHandler env argc argv statics before handler).loads =
      before.filterMap Action.loaded ++ (handler.run env argc argv statics).loads := by
  show (before ++ Action.enter handler :: _).filterMap Action.loaded = _
  rw [List.filterMap_append]
  rfl

theorem handlers_callHandler {before : List Action} {handler : Handler}
    (none : before.filterMap Action.entered = []) :
    (callHandler env argc argv statics before handler).handlers = [handler] := by
  show (before ++ Action.enter handler :: _).filterMap Action.entered = _
  rw [List.filterMap_append, none]
  exact congrArg (handler :: ·) (handlers_run handler)

/-- `argv[0]` is read, and then the arguments of the handler. -/
theorem staysInside_callHandler {before : List Action} {handler : Handler}
    (first : before.filterMap Action.loaded = [0]) (positive : 1 ≤ argc) :
    (callHandler env argc argv statics before handler).StaysInside argc ↔
      (handler = .mqttTest → 2 ≤ argc) := by
  have run_iff : (handler.run env argc argv statics).StaysInside argc ↔
      (handler = .mqttTest → 2 ≤ argc) := staysInside_run_iff handler
  rw [← run_iff]
  simp only [HandlerRun.StaysInside, loads_callHandler, first]
  constructor
  · intro inside k member
    exact inside k (List.mem_cons_of_mem _ member)
  · intro inside k member
    rcases List.mem_cons.mp member with rfl | member
    · exact positive
    · exact inside k member

theorem execFrom_spec (rest : List ShellCommand) :
    (∃ command ∈ rest, cstr command.cmd = argv 0 ∧
      execFrom env argc argv statics rest =
        callHandler env argc argv statics [.load 0] command.handler) ∨
    (∀ command ∈ rest, cstr command.cmd ≠ argv 0) ∧
      execFrom env argc argv statics rest =
        callHandler env argc argv statics [.load 0, .print "Unknown command!\r\n" []] .help := by
  induction rest with
  | nil =>
      right
      refine ⟨?_, rfl⟩
      intro command member
      cases member
  | cons curr rest ih =>
      by_cases named : cstr curr.cmd = argv 0
      · left
        refine ⟨curr, List.mem_cons_self, named, ?_⟩
        rw [execFrom, if_pos named]
      · rw [execFrom, if_neg named]
        rcases ih with ⟨command, member, same, done⟩ | ⟨others, done⟩
        · left
          exact ⟨command, List.mem_cons_of_mem _ member, same, done⟩
        · right
          refine ⟨?_, done⟩
          intro command member
          rcases List.mem_cons.mp member with rfl | member
          · exact named
          · exact others command member

theorem shellExecCmd_cases (env : ShellEnv) (argc : ℕ) (argv : ℕ → CString)
    (statics : Statics) :
    (∃ command ∈ shellCommands, cstr command.cmd = argv 0 ∧
      shellExecCmd env argc argv statics =
        callHandler env argc argv statics [.load 0] command.handler) ∨
    (∀ command ∈ shellCommands, cstr command.cmd ≠ argv 0) ∧
      shellExecCmd env argc argv statics =
        callHandler env argc argv statics [.load 0, .print "Unknown command!\r\n" []] .help :=
  execFrom_spec shellCommands

theorem runsNamed_shellExecCmd : (shellExecCmd env argc argv statics).RunsNamed (argv 0) := by
  rcases shellExecCmd_cases env argc argv statics with
    ⟨command, member, same, done⟩ | ⟨others, done⟩
  · left
    refine ⟨command, member, same, ?_⟩
    rw [done]
    exact handlers_callHandler rfl
  · right
    refine ⟨others, ?_, ?_⟩
    · rw [done]
      exact handlers_callHandler rfl
    · rw [done]
      exact List.mem_append_left _ (List.mem_cons_of_mem _ (List.mem_singleton.mpr rfl))

theorem mqttTest_iff {command : ShellCommand} (member : command ∈ shellCommands) :
    command.handler = .mqttTest ↔ cstr command.cmd = cstr "mqtt" := by
  revert command
  decide +kernel

/-- The only way to make the shell read past its arguments is `mqtt` alone. -/
theorem staysInside_shellExecCmd_iff (positive : 1 ≤ argc) :
    (shellExecCmd env argc argv statics).StaysInside argc ↔
      ¬(argc = 1 ∧ argv 0 = cstr "mqtt") := by
  rcases shellExecCmd_cases env argc argv statics with
    ⟨command, member, same, done⟩ | ⟨others, done⟩
  · rw [done, staysInside_callHandler rfl positive, mqttTest_iff member, same]
    constructor
    · rintro enough ⟨single, isMqtt⟩
      have two_le := enough isMqtt
      omega
    · intro allowed isMqtt
      by_contra few
      exact allowed ⟨by omega, isMqtt⟩
  · rw [done, staysInside_callHandler rfl positive]
    have notMqtt : argv 0 ≠ cstr "mqtt" := by
      intro isMqtt
      exact others ⟨"mqtt", .mqttTest, "run mqtt test"⟩ (by decide +kernel) isMqtt.symm
    simp [notMqtt]

/-- For every vector of tokens the right handler is run once, and no argument beyond
`argc` is read unless the vector is `mqtt` alone. -/
theorem shell_stays_inside_iff (env : ShellEnv) (statics : Statics) (argc : ℕ)
    (argv : ℕ → CString) (positive : 1 ≤ argc) :
    ((shellExecCmd env argc argv statics).RunsNamed (argv 0) ∧
        (shellExecCmd env argc argv statics).StaysInside argc) ↔
      ¬(argc = 1 ∧ argv 0 = cstr "mqtt") := by
  rw [← staysInside_shellExecCmd_iff positive]
  exact and_iff_right runsNamed_shellExecCmd

def quietEnv : ShellEnv := ⟨(0, 0), true, 0, [], []⟩

/-- `lis read` without the address, and another token behind it. -/
def lisRead : ℕ → CString := fun k => [cstr "lis", cstr "read"].getD k (cstr "0f")

theorem shell_stays_inside_lis_read :
    ((shellExecCmd quietEnv 2 lisRead ⟨false, 0, false⟩).RunsNamed (lisRead 0) ∧
        (shellExecCmd quietEnv 2 lisRead ⟨false, 0, false⟩).StaysInside 2) ↔
      ¬(2 = 1 ∧ lisRead 0 = cstr "mqtt") :=
  shell_stays_inside_iff quietEnv ⟨false, 0, false⟩ 2 lisRead (by decide)

/-- `mqtt` without a sub-command takes the token behind it for one. -/
theorem shell_stays_inside_violated :
    let run := shellExecCmd quietEnv 1 (fun k => [cstr "mqtt"].getD k (cstr "pub"))
      ⟨false, 0, false⟩
    run.loads = [0, 1] ∧ Action.call (.mqttPublish false 1) ∈ run.actions ∧
      ¬run.StaysInside 1 := by
  refine ⟨by decide +kernel, by decide +kernel, ?_⟩
  intro inside
  exact absurd (inside 1 (by decide +kernel)) (by decide)

/-! ## What lies behind the arguments -/

theorem run_congr {other : ℕ → CString} (agree : ∀ k < argc, argv k = other k)
    (handler : Handler) (enough : handler = .mqttTest → 2 ≤ argc) :
    handler.run env argc argv statics = handler.run env argc other statics := by
  cases handler with
  | mqttTest =>
      have sub : argv 1 = other 1 := agree 1 (enough rfl)
      simp only [Handler.run, mqttTest, sub]
  | acceleroTest =>
      by_cases few : argc < 2
      · simp only [Handler.run, acceleroTest, if_pos few]
      · have sub : argv 1 = other 1 := agree 1 (Nat.not_lt.mp few)
        by_cases alone : argc < 3
        · simp only [Handler.run, acceleroTest, if_neg few, if_pos alone, sub]
        · have addr : argv 2 = other 2 := agree 2 (Nat.not_lt.mp alone)
          simp only [Handler.run, acceleroTest, if_neg few, if_neg alone, sub, addr]
  | help => rfl
  | helloTest => rfl
  | rtcTest => rfl
  | pingTest => rfl

theorem callHandler_congr {other : ℕ → CString} (agree : ∀ k < argc, argv k = other k)
    (before : List Action) {handler : Handler} (enough : handler = .mqttTest → 2 ≤ argc) :
    callHandler env argc argv statics before handler =
      callHandler env argc other statics before handler := by
  rw [callHandler, callHandler, run_congr agree handler enough]

theorem execFrom_congr {other : ℕ → CString} (positive : 1 ≤ argc)
    (agree : ∀ k < argc, argv k = other k) {rest : List ShellCommand}
    (enough : ∀ command ∈ rest, cstr command.cmd = argv 0 →
      command.handler = .mqttTest → 2 ≤ argc) :
    execFrom env argc argv statics rest = execFrom env argc other statics rest := by
  have same : argv 0 = other 0 := agree 0 positive
  induction rest with
  | nil => exact callHandler_congr agree _ nofun
  | cons curr rest ih =>
      by_cases named : cstr curr.cmd = argv 0
      · rw [execFrom, execFrom, if_pos named, if_pos (named.trans same)]
        exact callHandler_congr agree _ (enough curr List.mem_cons_self named)
      · rw [execFrom, execFrom, if_neg named, if_neg fun eq => named (eq.trans same.symm)]
        exact ih fun command member => enough command (List.mem_cons_of_mem _ member)

/-- Apart from `mqtt` alone, what lies behind the arguments makes no difference. -/
theorem shellExecCmd_congr {other : ℕ → CString} (positive : 1 ≤ argc)
    (agree : ∀ k < argc, argv k = other k) (allowed : ¬(argc = 1 ∧ argv 0 = cstr "mqtt")) :
    shellExecCmd env argc argv statics = shellExecCmd env argc other statics := by
  apply execFrom_congr positive agree
  intro command member same isMqtt
  have named : argv 0 = cstr "mqtt" := same.symm.trans ((mqttTest_iff member).mp isMqtt)
  by_contra few
  exact allowed ⟨by omega, named⟩

/-! ## What the line editor passes -/

theorem splitFrom_spec {typed : List UInt8} {ind i : ℕ} {inToken : Bool} {starts : List ℕ}
    (found : splitFrom typed ind i inToken = some starts) :
    (starts ≠ [] → i + starts.length < commandTokenNmb) ∧
      ∀ start ∈ starts, ∃ offset byte, start = ind + offset ∧ typed[offset]? = some byte ∧
        byte ≠ 0 := by
  induction typed generalizing ind i inToken starts with
  | nil =>
      cases found
      exact ⟨fun nonempty => absurd rfl nonempty, nofun⟩
  | cons byte rest ih =>
      have later : ∀ {i inToken starts}, splitFrom rest (ind + 1) i inToken = some starts →
          ∀ start ∈ starts, ∃ offset first, start = ind + offset ∧
            (byte :: rest)[offset]? = some first ∧ first ≠ 0 := by
        intro i inToken starts foundRest start member
        rcases (ih foundRest).2 start member with ⟨offset, first, place, there, nonzero⟩
        exact ⟨offset + 1, first, by omega, there, nonzero⟩
      simp only [splitFrom] at found
      split at found
      · exact ⟨(ih found).1, later found⟩
      · next nonzero =>
          split at found
          · exact ⟨(ih found).1, later found⟩
          · split at found
            · cases found
            · next room =>
                rcases Option.map_eq_some_iff.mp found with ⟨behind, foundRest, rfl⟩
                constructor
                · intro _
                  by_cases none : behind = []
                  · rw [none]
                    exact Nat.not_le.mp room
                  · have bounded := (ih foundRest).1 none
                    rw [List.length_cons]
                    omega
                · intro start member
                  rcases List.mem_cons.mp member with rfl | member
                  · exact ⟨0, byte, rfl, rfl, nonzero⟩
                  · exact later foundRest start member

/-- `execute` gets between one and seven tokens, none of them empty. -/
theorem newLineHandler_spec {cmdline : List UInt8} {cmdlen : ℕ} {unset : ℕ → CString}
    (executes : newLineHandler cmdline cmdlen unset = some (argc, argv)) :
    1 ≤ argc ∧ argc ≤ 7 ∧ ∀ k < argc, argv k ≠ [] ∧ 0 ∉ argv k := by
  unfold newLineHandler at executes
  split at executes
  · cases executes
  · next starts found =>
      split at executes
      · next nonempty =>
          cases executes
          have spec := splitFrom_spec found
          have bounded := spec.1 (List.ne_nil_of_length_pos nonempty)
          refine ⟨nonempty, by rw [commandTokenNmb] at bounded; omega, ?_⟩
          intro k inside
          have member := List.getElem_mem inside
          rcases spec.2 _ member with ⟨offset, byte, place, there, nonzero⟩
          simp only [List.getElem?_eq_getElem inside, place, Nat.zero_add]
          constructor
          · rw [List.getElem?_take, Option.ite_none_right_eq_some] at there
            rcases List.getElem?_eq_some_iff.mp there.2 with ⟨within, same⟩
            rw [List.drop_eq_getElem_cons within, same]
            simp [nonzero]
          · intro zero
            have passed := List.all_eq_true.mp List.all_takeWhile 0 zero
            exact absurd passed (by decide)
      · cases executes

end MqttAccelero.Shell
