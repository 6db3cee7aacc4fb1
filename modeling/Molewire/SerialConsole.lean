/-
# Two clients of one interpreter

The serial console of `serial_console.c`, which collects lines from bytes and
drives a pending scan, the command request of the portal, and the runs in which
their ticks and requests meet those of the connection manager and the radio's
reports in any order.
-/

import Molewire.ConfigProto
import Molewire.Library.Transition

namespace Molewire

open ByteBuffer Transition

namespace Control

/-! ### Serial console -/

/-- The start of `serial_console_task`: a terminal attaches or drops. -/
def consoleEdge (c : Control) (connected : Bool) : Control :=
  if connected ∧ ¬c.console.wasConnected then
    let c := c.protoReset.dump
    { c.say c.prompt with console := { lineBuf := [], wasConnected := true } }
  else if ¬connected ∧ c.console.wasConnected then
    { c.protoReset with console.wasConnected := false }
  else c

/-- A pending scan is driven while a terminal is there to print to. -/
def consolePoll (c : Control) (connected : Bool) : Control :=
  let c := c.consoleEdge connected
  if connected ∧ c.protoScanning then c.protoPoll else c

end Control

/-- Carriage return or line feed. -/
def isNewline (ch : UInt8) : Bool := ch == 10 || ch == 13

/-- The room in `line_buf`, without the terminating zero. -/
def lineBufMax : Nat := 191

namespace Control

/-- One byte typed. A command that restarts the firmware does not return to the loop. -/
def consoleByte (board : Board) (c : Control) (ch : UInt8) : Control :=
  if c.halted then c
  else if isNewline ch then
    let c := c.handleLine board c.console.lineBuf
    if c.halted then c else { c.say c.prompt with console.lineBuf := [] }
  -- backspace and delete
  else if ch = 0x08 ∨ ch = 0x7f then
    { c with console.lineBuf := c.console.lineBuf.dropLast }
  else if 0x20 ≤ ch ∧ ch < 0x7f ∧ c.console.lineBuf.length < lineBufMax then
    { c with console.lineBuf := c.console.lineBuf ++ [ch] }
  else c

/-- What was typed: any key stops a live scan, otherwise it goes into the line. -/
def consoleRead (board : Board) (c : Control) (rx : Bytes) : Control :=
  if c.proto.mode = .contscan then
    if rx = [] then c
    else
      let c := c.contscanStop
      { c.say c.prompt with console.lineBuf := [] }
  else rx.foldl (consoleByte board) c

/-- `serial_console_task`, with the state of the terminal and the bytes it sent. -/
def serialConsoleTask (board : Board) (c : Control) (connected : Bool) (rx : Bytes) : Control :=
  (c.consolePoll connected).consoleRead board rx

end Control

/-! ### Portal -/

/-- The console line in the body of a `/api/cmd` request. -/
def portalLine (body : Bytes) : CStr := (cstr body).takeWhile fun ch => !isNewline ch

/-! ### Runs -/

/-- What can happen to the control plane. -/
inductive ControlEvent
  | console (env : Env) (connected : Bool) (rx : Bytes)
  | portal (env : Env) (body : Bytes)
  | portalScan
  | manager (env : Env)
  | report (r : ScanReport)

namespace Control

/-- One event, unless the firmware is restarting. -/
def step (board : Board) (c : Control) (e : ControlEvent) : Control :=
  if c.halted then c
  else
    match e with
    | .console env connected rx => { c with env := env }.serialConsoleTask board connected rx
    | .portal env body => { c with env := env }.handleLine board (portalLine body)
    | .portalScan => c.wifiConnRequestScan
    | .manager env => { c with env := env }.wifiConnTask
    | .report r => { c with scan := c.scan.scanCb r }

/-- The start of `main`: the stored record, or the defaults, is loaded and the first join tried. -/
def boot (board : Board) (flash : Option Config) (env : Env) : Control :=
  ({ cfg := {}, flash := flash, env := env : Control }.configLoad board).wifiConnInit

/-- A board with no network compiled in. -/
def plainBoard : Board := ⟨[], [], countryWorldwide, fun _ => none, fun _ => none⟩

/-- The states of the runs in which every event is admitted. -/
def ReachedBy (board : Board) (admits : Control → ControlEvent → Prop) (c : Control) : Prop :=
  Reach (fun c => ∃ flash env, c = boot board flash env) admits (step board) c

/-! ### Handled lines -/

/-- The lines that typed bytes complete, each with the state in which it is handled. -/
def typedLines (board : Board) : Control → Bytes → List (Control × CStr)
  | _, [] => []
  | c, ch :: rest =>
    let lines := typedLines board (c.consoleByte board ch) rest
    if ¬c.halted ∧ isNewline ch then (c, c.console.lineBuf) :: lines else lines

/-- The lines an event has the interpreter handle. -/
def handled (board : Board) (c : Control) (e : ControlEvent) : List (Control × CStr) :=
  if c.halted then []
  else
    match e with
    | .console env connected rx =>
      let c := { c with env := env }.consolePoll connected
      if c.proto.mode = .contscan then [] else typedLines board c rx
    | .portal env body => [({ c with env := env }, portalLine body)]
    | _ => []

/-- What the line a byte completes, the prompt and the line buffer keep is kept by the byte. -/
theorem consoleByte_keeps {board : Board} {I : Control → Prop}
    (hbuf : ∀ c buf, I c → I { c with console.lineBuf := buf }) (hsay : ∀ c s, I c → I (c.say s))
    {c : Control} {ch : UInt8}
    (hline : ¬c.halted → isNewline ch → I (c.handleLine board c.console.lineBuf))
    (h : I c) : I (c.consoleByte board ch) := by
  unfold consoleByte
  dsimp only
  split_ifs with hhalt hnl hhalt'
  · exact h
  · exact hline hhalt hnl
  · exact hbuf _ _ (hsay _ _ (hline hhalt hnl))
  · exact hbuf c _ h
  · exact hbuf c _ h
  · exact h

theorem mem_typedLines_head {board : Board} {c : Control} {ch : UInt8} (rest : Bytes)
    (hhalt : ¬c.halted) (hnl : isNewline ch) :
    (c, c.console.lineBuf) ∈ typedLines board c (ch :: rest) := by
  simp [typedLines, hhalt, hnl]

theorem mem_typedLines_tail {board : Board} {c : Control} {ch : UInt8} {rest : Bytes}
    {x : Control × CStr} (hx : x ∈ typedLines board (c.consoleByte board ch) rest) :
    x ∈ typedLines board c (ch :: rest) := by
  unfold typedLines
  dsimp only
  split_ifs
  · exact List.mem_cons_of_mem _ hx
  · exact hx

/-- What every handled line, the prompt and the line buffer keep is kept by what was typed, and each
line is handled in a state that has it. -/
theorem consoleBytes_keeps {board : Board} {I : Control → Prop}
    (hbuf : ∀ c buf, I c → I { c with console.lineBuf := buf }) (hsay : ∀ c s, I c → I (c.say s))
    {rx : Bytes} {c : Control}
    (hline : ∀ x ∈ typedLines board c rx, I x.1 → I (x.1.handleLine board x.2)) (h : I c) :
    I (rx.foldl (consoleByte board) c) ∧ ∀ x ∈ typedLines board c rx, I x.1 := by
  induction rx generalizing c with
  | nil => exact ⟨h, by simp [typedLines]⟩
  | cons ch rest ih =>
    -- the first byte, which may complete a line, and then the rest by induction
    have hhandled (hhalt : ¬c.halted) (hnl : isNewline ch) :
        I (c.handleLine board c.console.lineBuf) :=
      hline _ (mem_typedLines_head rest hhalt hnl) h
    have hbyte := consoleByte_keeps hbuf hsay hhandled h
    obtain ⟨hrest, hlines⟩ := ih (fun x hx => hline x (mem_typedLines_tail hx)) hbyte
    refine ⟨hrest, ?_⟩
    intro x hx
    unfold typedLines at hx
    dsimp only at hx
    split_ifs at hx
    · rcases List.mem_cons.mp hx with rfl | hx
      · exact h
      · exact hlines x hx
    · exact hlines x hx

/-- In particular what every handled line keeps, if it depends on neither the output nor the line
buffer. -/
theorem consoleBytes_invariant {board : Board} {I : Control → Prop}
    (hbuf : ∀ c buf out, I c → I { c with console.lineBuf := buf, out := out }) {rx : Bytes}
    {c : Control} (hline : ∀ x ∈ typedLines board c rx, I x.1 → I (x.1.handleLine board x.2))
    (h : I c) :
    I (rx.foldl (consoleByte board) c) ∧ ∀ x ∈ typedLines board c rx, I x.1 :=
  consoleBytes_keeps (fun c buf => hbuf c buf c.out) (fun c _ => hbuf c c.console.lineBuf _) hline h

theorem foldl_consoleByte {board : Board} {I : Control → Prop}
    (hbuf : ∀ c buf out, I c → I { c with console.lineBuf := buf, out := out }) {rx : Bytes}
    {c : Control} (hline : ∀ x ∈ typedLines board c rx, I x.1 → I (x.1.handleLine board x.2))
    (h : I c) : I (rx.foldl (consoleByte board) c) := (consoleBytes_invariant hbuf hline h).1

end Control

end Molewire
