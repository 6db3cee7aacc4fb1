/-
# Portal lines and the console's menu

The portal sends its commands to the interpreter that the serial console is
talking to, in whatever menu the console has it. What a portal line does is
compared with what the main menu does with it. It is the same, and the menu is
left as it was, outside the scan submenu unless a scan starts; inside it only
for `scan` and for the lines that neither menu acts on.
-/

import Molewire.LineEffects

namespace Molewire

open ByteBuffer

namespace Control

/-! ### The two readings of a line -/

/-- What the main menu does with a line. -/
def mainLine (board : Board) (c : Control) (line : CStr) : Control :=
  let line := trimLine line
  if line = [] then c.dump
  else c.handleMain board (splitLine line).1 (splitLine line).2

/-- Two states agree on the configuration, saved or not, on the manager with the network it has
selected, and on what was asked of the rest of the device. -/
structure SameEffect (d e : Control) : Prop where
  cfg : d.cfg = e.cfg
  flash : d.flash = e.flash
  conn : d.conn = e.conn
  calls : d.calls = e.calls
  hist : d.hist = e.hist
  halted : d.halted = e.halted

theorem SameEffect.refl (c : Control) : SameEffect c c := ⟨rfl, rfl, rfl, rfl, rfl, rfl⟩

theorem SameEffect.symm {d e : Control} (h : SameEffect d e) : SameEffect e d :=
  ⟨h.cfg.symm, h.flash.symm, h.conn.symm, h.calls.symm, h.hist.symm, h.halted.symm⟩

theorem SameEffect.trans {c d e : Control} (h : SameEffect c d) (h' : SameEffect d e) :
    SameEffect c e :=
  ⟨h.cfg.trans h'.cfg, h.flash.trans h'.flash, h.conn.trans h'.conn, h.calls.trans h'.calls,
    h.hist.trans h'.hist, h.halted.trans h'.halted⟩

/-- The line does what the main menu does with it, and the menu stays. -/
def PortalIndependent (board : Board) (c : Control) (line : CStr) : Prop :=
  SameEffect (c.handleLine board line) (c.mainLine board line) ∧
    (c.handleLine board line).proto.mode = c.proto.mode

/-- A line that takes the scan submenu elsewhere, or the station off its network. -/
def leavesSubmenu (c : Control) (cmd : CStr) (args : Option CStr) : Bool :=
  isWord cmd "BACK" || isWord cmd "LIVE" ||
    (isWord cmd "JOIN" && args.isSome && (parseIndex (args.getD []) c.scan.resultCount).isSome)

/-- Which lines the portal can send without meeting the console's menu: blank ones; outside the
submenu those that do not start a scan; inside it `scan`, and the lines on which the main menu
would not act and that do not leave the submenu either. -/
def PortalSafe (board : Board) (c : Control) (line : CStr) : Prop :=
  let cmd := (splitLine (trimLine line)).1
  let args := (splitLine (trimLine line)).2
  trimLine line = [] ∨ (c.proto.mode ≠ .scan ∧ ¬c.startsScan line) ∨
    (c.proto.mode = .scan ∧ (isWord cmd "SCAN" ∨
      (¬c.leavesSubmenu cmd args ∧ SameEffect (c.mainLine board line) c)))

/-! ### Blank lines and the main menu -/

theorem portalIndependent_blank {board : Board} {c : Control} {line : CStr}
    (h : trimLine line = []) : PortalIndependent board c line := by
  unfold PortalIndependent handleLine mainLine
  dsimp only
  rw [if_pos h, if_pos h]
  split_ifs
  · exact ⟨⟨rfl, rfl, rfl, rfl, rfl, rfl⟩, rfl⟩
  · exact ⟨.refl _, rfl⟩

theorem handleLine_of_mode {board : Board} {c : Control} {line : CStr}
    (hmode : c.proto.mode ≠ .scan) : c.handleLine board line = c.mainLine board line := by
  unfold handleLine mainLine
  dsimp only
  rw [if_neg hmode, if_neg hmode]

/-- Outside the submenu the line is read as in the main menu; what can go wrong is the menu. -/
theorem portalIndependent_main {board : Board} {c : Control} {line : CStr}
    (hmode : c.proto.mode ≠ .scan) :
    PortalIndependent board c line ↔ ¬c.startsScan line := by
  constructor
  · rintro ⟨-, hkeep⟩ hstart
    obtain ⟨hword, hstarts⟩ := Bool.and_eq_true_iff.mp hstart
    have hne : trimLine line ≠ [] := by
      intro hnil
      rw [hnil] at hword
      exact absurd hword (by decide +kernel)
    -- a scan that starts opens the submenu
    rw [handleLine_of_mode hmode, mainLine, if_neg hne, handleMain_scan board c _ _ hword,
      startScan_of_starts hstarts] at hkeep
    exact hmode hkeep.symm
  · intro hstart
    refine ⟨?_, by rw [handleLine_proto hmode hstart]⟩
    rw [handleLine_of_mode hmode]
    exact .refl _

/-! ### The submenu -/

/-- Only the submenu knows the word `live`. -/
theorem handleMain_live (board : Board) (c : Control) (cmd : CStr) (args : Option CStr)
    (hlive : isWord cmd "LIVE") : SameEffect (c.handleMain board cmd args) c := by
  have hother := isWord_of_forall_ne ["SET", "LIST", "JOIN", "USE", "DEL", "PCAP", "GENKEY",
    "PUBKEY", "BOOTSEL", "REBOOT", "SCAN", "SAVE", "RESTORE"] hlive (by decide +kernel)
  simp only [List.forall_mem_cons] at hother
  simp only [handleMain, hother, Bool.false_and, Bool.or_self, Bool.false_eq_true, if_false]
  exact ⟨rfl, rfl, rfl, rfl, rfl, rfl⟩

/-- The live scan takes the station off its network first. -/
theorem scanLive_calls (c : Control) : c.scanLive.calls ≠ c.calls := by
  obtain ⟨_, _, calls, hstart, -⟩ := wifiScanStart_scanOnly c.wifiLeave
  -- the leave is among the calls whether or not the scan then starts
  have hcalls : c.wifiLeave.wifiScanStart.2.calls = c.calls ++ .wifiLeave :: calls := by
    rw [hstart]
    simp
  have hlive : c.scanLive.calls = c.wifiLeave.wifiScanStart.2.calls := by
    unfold scanLive
    split
    · next heq => rw [heq]; rfl
    · next heq => rw [heq]; rfl
  rw [hlive, hcalls]
  simp

/-- A number from the list joins that network and goes back to the main menu. -/
theorem scanJoin_mode {c : Control} {args : CStr}
    (h : (parseIndex args c.scan.resultCount).isSome) : (c.scanJoin args).proto.mode = .main := by
  obtain ⟨i, hi⟩ := Option.isSome_iff_exists.mp h
  unfold scanJoin
  rw [hi]
  exact congrArg Proto.mode
    (joinSsid_effect { c with proto.mode := .main } (c.scan.results i).ssid _).frame.1

/-- A line of the submenu other than `scan` that stays in it changes nothing. -/
theorem handleScan_idle {c : Control} {cmd : CStr} {args : Option CStr}
    (hscan : ¬isWord cmd "SCAN") (hleave : ¬c.leavesSubmenu cmd args) :
    SameEffect (c.handleScan cmd args) c ∧ (c.handleScan cmd args).proto = c.proto := by
  simp only [leavesSubmenu, Bool.or_eq_true, not_or, Bool.not_eq_true] at hleave
  obtain ⟨⟨hback, hlive⟩, hjoin⟩ := hleave
  unfold handleScan
  simp only [hback, hlive, hscan, Bool.false_eq_true, if_false]
  split_ifs with h
  · have hnone : parseIndex (args.getD []) c.scan.resultCount = none := by
      simpa [Bool.and_eq_true_iff.mp h] using hjoin
    unfold scanJoin
    rw [hnone]
    exact ⟨⟨rfl, rfl, rfl, rfl, rfl, rfl⟩, rfl⟩
  · exact ⟨⟨rfl, rfl, rfl, rfl, rfl, rfl⟩, rfl⟩

theorem startScan_mode {c : Control} (hmode : c.proto.mode = .scan) :
    c.startScan.proto.mode = .scan := by
  by_cases hs : c.scanStarts
  · rw [startScan_of_starts hs]
    rfl
  · rw [startScan_of_refused (Bool.not_eq_true _ ▸ hs)]
    exact (congrArg Proto.mode (wifiScanStart_scanOnly c).frame.1).trans hmode

/-- A line that leaves the submenu is not read as in the main menu. -/
theorem handleScan_leaves {board : Board} {c : Control} {cmd : CStr} {args : Option CStr}
    (hmode : c.proto.mode = .scan) (hleave : c.leavesSubmenu cmd args) :
    ¬(SameEffect (c.handleScan cmd args) (c.handleMain board cmd args) ∧
      (c.handleScan cmd args).proto.mode = c.proto.mode) := by
  rintro ⟨heffect, hkeep⟩
  rw [hmode] at hkeep
  simp only [leavesSubmenu, Bool.or_eq_true, Bool.and_eq_true] at hleave
  -- `back` and a number change the menu, `live` the association
  rcases hleave with (hback | hlive) | ⟨⟨hjoin, hargs⟩, hindex⟩
  · simp [handleScan, hback] at hkeep
  · have hother := isWord_of_forall_ne ["BACK", "SCAN"] hlive (by decide +kernel)
    simp only [List.forall_mem_cons] at hother
    have hsub : c.handleScan cmd args = c.scanLive := by
      simp [handleScan, hother, hlive]
    rw [hsub] at heffect
    exact scanLive_calls c (heffect.calls.trans (handleMain_live board c cmd args hlive).calls)
  · have hother := isWord_of_forall_ne ["BACK", "SCAN", "LIVE"] hjoin (by decide +kernel)
    simp only [List.forall_mem_cons] at hother
    have hsub : c.handleScan cmd args = c.scanJoin (args.getD []) := by
      simp [handleScan, hother, hjoin, hargs]
    rw [hsub, scanJoin_mode hindex] at hkeep
    cases hkeep

/-- Inside the submenu. -/
theorem portalIndependent_scan {board : Board} {c : Control} {line : CStr}
    (hmode : c.proto.mode = .scan) (hne : trimLine line ≠ []) :
    PortalIndependent board c line ↔
      isWord (splitLine (trimLine line)).1 "SCAN" ∨
        (¬c.leavesSubmenu (splitLine (trimLine line)).1 (splitLine (trimLine line)).2 ∧
          SameEffect (c.mainLine board line) c) := by
  have hline : c.handleLine board line =
      c.handleScan (splitLine (trimLine line)).1 (splitLine (trimLine line)).2 := by
    rw [handleLine, if_neg hne, if_pos hmode]
  have hmain : c.mainLine board line =
      c.handleMain board (splitLine (trimLine line)).1 (splitLine (trimLine line)).2 := by
    rw [mainLine, if_neg hne]
  rw [PortalIndependent, hline, hmain]
  generalize (splitLine (trimLine line)).1 = cmd
  generalize (splitLine (trimLine line)).2 = args
  -- `scan` means the same in both menus
  by_cases hscan : isWord cmd "SCAN"
  · have hback := isWord_of_ne (w := "BACK") hscan (by decide +kernel)
    have hsub : c.handleScan cmd args = c.startScan := by
      simp [handleScan, hscan, hback]
    rw [hsub, handleMain_scan board c _ _ hscan]
    exact iff_of_true ⟨.refl _, (startScan_mode hmode).trans hmode.symm⟩ (.inl hscan)
  · by_cases hleave : c.leavesSubmenu cmd args
    · exact iff_of_false (handleScan_leaves hmode hleave) (by simp [hscan, hleave])
    · obtain ⟨hidle, hproto⟩ := handleScan_idle hscan hleave
      constructor
      · exact fun h => .inr ⟨hleave, h.1.symm.trans hidle⟩
      · rintro (h | ⟨-, h⟩)
        · exact absurd h hscan
        · exact ⟨hidle.trans h.symm, by rw [hproto]⟩

/-- For one line, in any state. -/
theorem portalIndependent_iff {board : Board} {c : Control} {line : CStr} :
    PortalIndependent board c line ↔ PortalSafe board c line := by
  unfold PortalSafe
  dsimp only
  by_cases hne : trimLine line = []
  · exact iff_of_true (portalIndependent_blank hne) (.inl hne)
  · by_cases hmode : c.proto.mode = .scan
    · rw [portalIndependent_scan hmode hne]
      simp [hne, hmode]
    · rw [portalIndependent_main hmode]
      simp [hne, hmode]

/-! ### Runs -/

/-- The portal lines of a run, each with the state in which it is handled. -/
def portalLines (board : Board) : Control → List ControlEvent → List (Control × CStr)
  | _, [] => []
  | c, e :: rest =>
    let lines := portalLines board (c.step board e) rest
    match e with
    | .portal _ _ => handled board c e ++ lines
    | _ => lines

/-- **Portal lines and the console's menu.** In every run, the portal's lines are independent of
the console's menu and leave it alone exactly when each is a safe one where it is handled. -/
theorem menu_isolation_iff (board : Board) (flash : Option Config) (env : Env)
    (events : List ControlEvent) :
    (∀ x ∈ portalLines board (boot board flash env) events, PortalIndependent board x.1 x.2) ↔
      ∀ x ∈ portalLines board (boot board flash env) events, PortalSafe board x.1 x.2 :=
  forall₂_congr fun _ _ => portalIndependent_iff

/-- A terminal attached and its user asked for a scan. -/
def scanningConsole : Control :=
  (boot plainBoard none {}).step plainBoard (.console { scans := [true] } true (ascii "scan\r"))

/-- The console is collecting a scan when the portal joins a network by name. -/
theorem menu_isolation_fails :
    ¬∀ (board : Board) (flash : Option Config) (env : Env) (events : List ControlEvent),
      ∀ x ∈ portalLines board (boot board flash env) events, PortalIndependent board x.1 x.2 := by
  intro hclaim
  have hrun : scanningConsole.halted = false := by decide +kernel
  have hline := hclaim plainBoard none {}
    [.console { scans := [true] } true (ascii "scan\r"), .portal {} (ascii "join cafe")]
    ({ scanningConsole with env := {} }, portalLine (ascii "join cafe")) (by
      rw [scanningConsole] at hrun
      simp [portalLines, handled, hrun, scanningConsole])
  exact absurd hline.1.cfg (by decide +kernel)

end Control

end Molewire
